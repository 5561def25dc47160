import RequestTemplate.Function.Keychain
import RequestTemplate.Function.Secure

/-!
# The functions that are always there

The keychain is always registered, the secure function where there is an
encryptor for it.
-/

namespace RequestTemplate.Registry

variable {σ : Type}

def standardFunctions (encryptor : Option (Encryptor σ)) (keyring : Keyring σ) :
    List (TemplateFunction σ) :=
  (encryptor.map Secure.function).toList ++ [Keychain.function keyring]

def standard (encryptor : Option (Encryptor σ)) (keyring : Keyring σ) :
    Except Failure (Registry σ) :=
  ofList (standardFunctions encryptor keyring)

end RequestTemplate.Registry
