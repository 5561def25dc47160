import RequestTemplate.Function.Registry

/-!
# The secure function

A secret argument is stored as the mark `YENC_` and base64 text, encrypted with
the key of a workspace. Running the function decrypts it; storing a plain
argument encrypts it. A caller supplies the encryption.
-/

namespace RequestTemplate

variable {σ : Type}

/-- Encryption with the key of a workspace. -/
structure Encryptor (σ : Type) where
  encrypt : (workspace : String) → List UInt8 → Pass Note σ (List UInt8)
  decrypt : (workspace : String) → List UInt8 → Pass Note σ (List UInt8)

/-- The workspace that a function runs in, where it needs one. -/
def Context.requireWorkspace (context : Context) : Pass Note σ String :=
  match context.workspaceId with
  | none | some "" => Pass.fail (.missingContext "workspace_id")
  | some workspace => pure workspace

namespace Secure

def name : String := "secure"

/-- The mark of an encrypted argument. -/
def mark : String := "YENC_"

def descriptor : Descriptor where
  name := name
  description := some "Securely store encrypted text"
  arguments :=
    [{ name := "value", label := some "Value", multiLine := true, password := true }]

/-- The text behind the mark of an encrypted argument. -/
def payload? (text : String) : Option String :=
  (mark.toList.isPrefixOf? text.toList).map String.ofList

/-- Passes on render errors; any other failure becomes one of the function. -/
def guard {α : Type} (p : Pass Note σ α) : Pass Note σ α := do
  match ← p.attempt with
  | .ok a => pure a
  | .error failure =>
    if failure.kind.isRender then Pass.fail failure else Pass.fail (.functionFailed name failure)

/-- The bytes of base64 text. -/
def bytesOf (payload : String) : Pass Note σ (List UInt8) :=
  match Base64.decode payload with
  | .ok bytes => pure bytes
  | .error .notAscii => Pass.fail (.notBase64 .notAscii)
  | .error fault => Pass.fail (.functionFailed name (.notBase64 fault))

/-- The plain text of an encrypted argument. -/
def reveal (encryptor : Encryptor σ) (workspace text : String) : Pass Note σ String :=
  match payload? text with
  | none => Pass.fail .notEncrypted
  | some payload => do
    let bytes ← bytesOf payload
    let plain ← guard (encryptor.decrypt workspace bytes)
    match Utf8.decode plain with
    | .ok s => pure s
    | .error fault => Pass.fail (.notUtf8 fault)

def run (encryptor : Encryptor σ) (arguments : Arguments) (context : Context) :
    Pass Note σ String := do
  let workspace ← context.requireWorkspace
  match arguments.text? "value" with
  | some text => reveal encryptor workspace text
  | none => pure ""

/-- An argument as it is stored: encrypted, unless it is already or is empty. -/
def transform (encryptor : Encryptor σ) (argument text : String) (context : Context) :
    Pass Note σ String :=
  if argument ≠ "value" then pure text
  else do
    let workspace ← context.requireWorkspace
    if text = "" then pure ""
    else if (payload? text).isSome then pure text
    else do
      let bytes ← guard (encryptor.encrypt workspace (Utf8.encode text))
      pure (mark ++ Base64.encode bytes)

def function (encryptor : Encryptor σ) : TemplateFunction σ where
  descriptor := descriptor
  run := fun arguments context => some <$> run encryptor arguments context
  transform := transform encryptor

end Secure

end RequestTemplate
