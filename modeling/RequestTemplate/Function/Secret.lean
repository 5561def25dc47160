import RequestTemplate.Function.Secure
import RequestTemplate.Function.Stored
import RequestTemplate.Template.Parser
import RequestTemplate.Template.Printer

/-!
# Secret templates

A whole template can be kept as one encrypted argument. `decrypt` puts plain text
in the place of every secure tag; `encrypt` turns a template, decrypted first,
into one secure tag.
-/

namespace RequestTemplate.Secret

variable {σ : Type}

/-- The texts among the arguments of a call, by name. -/
def textArguments (arguments : List Argument) : Arguments :=
  Dictionary.ofList (arguments.filterMap fun a =>
    match a.value with
    | .text content => some (a.name, .text content)
    | _ => none)

/-- The tokens with every secure tag replaced by its plain text. -/
def decryptTokens (encryptor : Encryptor σ) (context : Context) : Template → Pass Note σ Template
  | [] => return []
  | .tag (.call name arguments) span :: rest => do
    let first ←
      if name = Secure.name then
        Token.raw <$> Secure.run encryptor (textArguments arguments) context
      else pure (.tag (.call name arguments) span)
    let others ← decryptTokens encryptor context rest
    return first :: others
  | token :: rest => do
    let others ← decryptTokens encryptor context rest
    return token :: others

def decrypt (encryptor : Encryptor σ) (context : Context) (source : String) : Pass Note σ String :=
  match Template.parse source with
  | .error e => Pass.fail (.parse e)
  | .ok template => Template.source <$> decryptTokens encryptor context template

/-- A tag that holds a text as the value of the secure function. -/
def tag (text : String) : Token :=
  .tag (.call Secure.name [⟨"value", .text text⟩]) none

/-- The callback that stores the tag decides how its text is encrypted. -/
def encryptWith (callback : Callback σ) (encryptor : Encryptor σ) (context : Context)
    (source : String) : Pass Note σ String := do
  let plain ← decrypt encryptor context source
  let stored ← Template.transform callback { context with purpose := .preview } [tag plain]
  return Template.source stored

/-- Encrypts with the secure function itself. -/
def encrypt (encryptor : Encryptor σ) (context : Context) (source : String) : Pass Note σ String := do
  let registry ← Pass.ofExcept (Registry.ofList [Secure.function encryptor])
  encryptWith registry.callback encryptor context source

end RequestTemplate.Secret
