import RequestTemplate.Function.Registry

/-!
# The keychain function

Reads a password from the credential store of the system. Without a service and
an account there is nothing to ask for, and a password that is not there renders
as empty text.
-/

namespace RequestTemplate

variable {σ : Type}

/-- A credential store: the password of an account with a service, if it has one. -/
abbrev Keyring (σ : Type) := (service account : String) → Pass Note σ (Option String)

namespace Keychain

def descriptor : Descriptor where
  name := "keychain"
  description := some "Get a password from the OS keychain or keyring"
  aliases := ["keyring"]
  arguments :=
    [{ name := "service", label := some "Service",
       description := some "App or URL for the password" },
     { name := "account", label := some "Account",
       description := some "Username or email address" }]

def run (keyring : Keyring σ) (arguments : Arguments) (_ : Context) : Pass Note σ (Option String) :=
  match (arguments.text? "service").getD "", (arguments.text? "account").getD "" with
  | "", _ => return some ""
  | _, "" => return some ""
  | service, account => do
    match ← (keyring service account).attempt with
    | .ok (some password) => return some password
    | .ok none => do
      Pass.emit (.noPassword service account)
      return some ""
    | .error failure =>
      if failure.kind = .keyring then Pass.fail (.functionFailed descriptor.name failure)
      else Pass.fail failure

def function (keyring : Keyring σ) : TemplateFunction σ where
  descriptor := descriptor
  run := run keyring

end Keychain

end RequestTemplate
