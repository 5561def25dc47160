import RequestTemplate.Function.Secret
import RequestTemplate.Proofs.Sealed
import RequestTemplate.Proofs.Sweep

/-!
# What functions fail with

A function is meant to fail with render errors alone. Whatever their collaborators do, the
secure function and the keychain keep to this apart from two failures that they let through
as they are: that of an encrypted argument with a character outside ASCII
(`Secure.Unreadable`), and that of a credential store that fails with no failure of stores
(`Keychain.Escapes`). Decrypting a template lets the first one through where it gets to such
a tag (`Secret.Meets`). Nothing else is let through (`contained`).
-/

namespace RequestTemplate

variable {ε σ α β : Type}

namespace Pass

/-- From the state `s`, the pass fails with what is no render error. -/
def LetsThrough (p : Pass ε σ α) (s : σ) (failure : Failure) : Prop :=
  (p s).outcome = .error failure ∧ failure.kind.isRender = false

variable {p : Pass ε σ α} {f : α → Pass ε σ β} {s : σ} {failure : Failure}

theorem not_letsThrough_pure (a : α) : ¬ (pure a : Pass ε σ α).LetsThrough s failure :=
  fun through => absurd through.1 (by simp)

theorem letsThrough_fail_iff {cause : Failure} :
    (fail cause : Pass ε σ α).LetsThrough s failure ↔ cause.kind.isRender = false ∧ failure = cause := by
  constructor
  · rintro ⟨failed, other⟩
    obtain rfl := Except.error.inj failed
    exact ⟨other, rfl⟩
  · rintro ⟨other, rfl⟩
    exact ⟨rfl, other⟩

theorem not_letsThrough_fail {cause : Failure} (render : cause.kind.isRender = true) :
    ¬ (fail cause : Pass ε σ α).LetsThrough s failure := by
  rw [letsThrough_fail_iff, render]
  exact fun through => absurd through.1 nofun

/-- A sequence lets through what its first pass does, or what the second does behind it. -/
theorem letsThrough_bind_iff :
    (p >>= f).LetsThrough s failure ↔
      p.LetsThrough s failure ∨ ∃ a, (p s).outcome = .ok a ∧ (f a).LetsThrough (p s).state failure := by
  simp only [LetsThrough, outcome_bind]
  cases (p s).outcome <;> simp

end Pass

/-! ## The secure function -/

namespace Secure

variable {encryptor : Encryptor σ} {arguments : Arguments} {context : Context} {s : σ} {failure : Failure}

/-- The text has a character outside ASCII. -/
def Foreign (text : String) : Prop := ∃ c ∈ text.toList, 128 ≤ c.toNat

/-- There is a workspace, and a value that is marked as encrypted, but for a character
    outside ASCII what stands behind the mark is no base64. -/
structure Unreadable (arguments : Arguments) (context : Context) : Prop where
  workspace : context.HasWorkspace
  value : ∃ payload, arguments.text? "value" = some (mark ++ payload) ∧ Foreign payload

theorem not_letsThrough_requireWorkspace :
    ¬ (context.requireWorkspace : Pass Note σ String).LetsThrough s failure := by
  unfold Context.requireWorkspace
  split
  · exact Pass.not_letsThrough_fail rfl
  · exact Pass.not_letsThrough_fail rfl
  · exact Pass.not_letsThrough_pure _

/-- Whatever a collaborator fails with, a guarded pass fails with a render error. -/
theorem not_letsThrough_guard (p : Pass Note σ α) : ¬ (guard p).LetsThrough s failure := by
  rw [guard, Pass.letsThrough_bind_iff]
  rintro (⟨failed, -⟩ | ⟨cause | a, -, through⟩)
  · simp [Pass.attempt] at failed
  · simp only at through
    split at through
    · rename_i render
      exact Pass.not_letsThrough_fail render through
    · exact Pass.not_letsThrough_fail rfl through
  · exact Pass.not_letsThrough_pure a through

theorem letsThrough_bytesOf_iff {payload : String} :
    (bytesOf payload : Pass Note σ (List UInt8)).LetsThrough s failure ↔
      Foreign payload ∧ failure = .notBase64 .notAscii := by
  rw [Foreign, ← Base64.decode_eq_notAscii_iff, bytesOf]
  split
  · rename_i read
    simp [read, Pass.not_letsThrough_pure]
  · rename_i read
    simp [read, Pass.letsThrough_fail_iff, Failure.kind, Failure.Kind.isRender]
  · rename_i other read
    rw [read]
    exact iff_of_false (Pass.not_letsThrough_fail rfl) fun outside => other (Except.error.inj outside.1)

theorem payload?_eq_some_iff {text payload : String} : payload? text = some payload ↔ text = mark ++ payload := by
  constructor
  · intro found
    obtain ⟨rest, marked⟩ := isSome_payload?_iff.1 (Option.isSome_of_eq_some found)
    have same : text = mark ++ String.ofList rest := String.toList_inj.1 (by simp [marked])
    rw [same, payload?_append] at found
    rw [same, Option.some.inj found]
  · rintro rfl
    exact payload?_append payload

theorem letsThrough_reveal_iff {workspace text : String} :
    (reveal encryptor workspace text).LetsThrough s failure ↔
      (∃ payload, text = mark ++ payload ∧ Foreign payload) ∧ failure = .notBase64 .notAscii := by
  simp only [← payload?_eq_some_iff, reveal]
  cases found : payload? text with
  | none =>
    have kept : ¬ (Pass.fail .notEncrypted : Pass Note σ String).LetsThrough s failure := Pass.not_letsThrough_fail rfl
    simp [kept]
  | some payload =>
    simp only [Option.some.injEq, exists_eq_left', Pass.letsThrough_bind_iff, letsThrough_bytesOf_iff]
    refine or_iff_left ?_
    rintro ⟨bytes, -, guarded | ⟨plain, -, through⟩⟩
    · exact not_letsThrough_guard _ guarded
    · split at through
      · exact Pass.not_letsThrough_pure _ through
      · exact Pass.not_letsThrough_fail rfl through

/-- Running the function lets through one failure, and that for one reason. -/
theorem letsThrough_run_iff :
    (run encryptor arguments context).LetsThrough s failure ↔
      Unreadable arguments context ∧ failure = .notBase64 .notAscii := by
  rw [run, Pass.letsThrough_bind_iff, or_iff_right not_letsThrough_requireWorkspace]
  constructor
  · rintro ⟨workspace, required, through⟩
    obtain ⟨present, known⟩ := Context.of_requireWorkspace required
    split at through
    · rename_i text given
      obtain ⟨⟨payload, rfl, foreign⟩, rfl⟩ := letsThrough_reveal_iff.1 through
      exact ⟨⟨⟨workspace, present, known⟩, payload, given, foreign⟩, rfl⟩
    · exact absurd through (Pass.not_letsThrough_pure _)
  · rintro ⟨⟨⟨workspace, present, known⟩, payload, given, foreign⟩, rfl⟩
    rw [Context.requireWorkspace_eq present known]
    refine ⟨workspace, rfl, ?_⟩
    rw [given]
    exact letsThrough_reveal_iff.2 ⟨⟨payload, rfl, foreign⟩, rfl⟩

/-- Nothing is let through when an argument is stored. -/
theorem not_letsThrough_transform (argument text : String) :
    ¬ (transform encryptor argument text context).LetsThrough s failure := by
  unfold transform
  split
  · exact Pass.not_letsThrough_pure _
  · rw [Pass.letsThrough_bind_iff, or_iff_right not_letsThrough_requireWorkspace]
    rintro ⟨workspace, -, through⟩
    split at through
    · exact Pass.not_letsThrough_pure _ through
    · split at through
      · exact Pass.not_letsThrough_pure _ through
      · obtain guarded | ⟨bytes, -, through⟩ := Pass.letsThrough_bind_iff.1 through
        · exact not_letsThrough_guard _ guarded
        · exact Pass.not_letsThrough_pure _ through

end Secure

/-! ## The keychain -/

namespace Keychain

variable {keyring : Keyring σ} {arguments : Arguments} {context : Context} {s : σ} {failure : Failure}

/-- The arguments name a service and an account, so that the store is asked. -/
structure Asks (arguments : Arguments) (service account : String) : Prop where
  named : service ≠ "" ∧ account ≠ ""
  given : arguments.text? "service" = some service ∧ arguments.text? "account" = some account

/-- The store is asked, and it fails with what is neither a failure of stores nor a render
    error. -/
def Escapes (keyring : Keyring σ) (arguments : Arguments) (s : σ) (failure : Failure) : Prop :=
  ∃ service account, Asks arguments service account ∧ (keyring service account s).outcome = .error failure ∧
    failure.kind ≠ .keyring ∧ failure.kind.isRender = false

/-- What the function makes of the answer of the store. -/
def settle (service account : String) : Except Failure (Option String) → Pass Note σ (Option String)
  | .ok (some password) => return some password
  | .ok none => do
    Pass.emit (.noPassword service account)
    return some ""
  | .error failure =>
    if failure.kind = .keyring then Pass.fail (.functionFailed descriptor.name failure)
    else Pass.fail failure

theorem run_of_asks {service account : String} (asks : Asks arguments service account) :
    run keyring arguments context = (keyring service account).attempt >>= settle service account := by
  unfold run
  rw [asks.given.1, asks.given.2]
  split
  · rename_i empty
    exact absurd empty asks.named.1
  · rename_i empty _
    exact absurd empty asks.named.2
  · rfl

/-- Where the store is not asked, the text is empty. -/
theorem run_of_not_asks (idle : ∀ service account, ¬ Asks arguments service account) :
    run keyring arguments context = pure (some "") := by
  unfold run
  split
  · rfl
  · rfl
  · rename_i namedService namedAccount
    refine absurd ⟨⟨namedService, namedAccount⟩, ?_, ?_⟩ (idle _ _)
    · cases given : arguments.text? "service" with
      | none => exact absurd (by simp [given]) namedService
      | some service => rfl
    · cases given : arguments.text? "account" with
      | none => exact absurd (by simp [given]) namedAccount
      | some account => rfl

/-- Running the function lets through what escapes from the store. -/
theorem letsThrough_run_iff :
    (run keyring arguments context).LetsThrough s failure ↔ Escapes keyring arguments s failure := by
  constructor
  · intro through
    by_cases asked : ∃ service account, Asks arguments service account
    · obtain ⟨service, account, asks⟩ := asked
      rw [run_of_asks asks, Pass.letsThrough_bind_iff] at through
      obtain attempted | ⟨outcome, given, through⟩ := through
      · exact absurd attempted.1 nofun
      · obtain rfl := Except.ok.inj given
        refine ⟨service, account, asks, ?_⟩
        rcases answered : (keyring service account s).outcome with cause | _ | password
        · rw [answered, settle] at through
          split at through
          · exact absurd through (Pass.not_letsThrough_fail rfl)
          · rename_i foreign
            obtain ⟨other, rfl⟩ := Pass.letsThrough_fail_iff.1 through
            exact ⟨rfl, foreign, other⟩
        · rw [answered] at through
          exact absurd through.1 nofun
        · rw [answered] at through
          exact absurd through.1 nofun
    · rw [run_of_not_asks fun service account asks => asked ⟨service, account, asks⟩] at through
      exact absurd through (Pass.not_letsThrough_pure _)
  · rintro ⟨service, account, asks, answered, foreign, other⟩
    rw [run_of_asks asks, Pass.letsThrough_bind_iff]
    refine .inr ⟨_, rfl, ?_⟩
    rw [answered, settle, if_neg foreign]
    exact Pass.letsThrough_fail_iff.2 ⟨other, rfl⟩

/-- What the function returns is text, also where the store has no password. -/
theorem isSome_of_run {result : Option String} (done : (run keyring arguments context s).outcome = .ok result) :
    result.isSome := by
  by_cases asked : ∃ service account, Asks arguments service account
  · obtain ⟨service, account, asks⟩ := asked
    rw [run_of_asks asks, Pass.outcome_bind_eq_ok] at done
    obtain ⟨outcome, -, settled⟩ := done
    rcases outcome with cause | _ | password
    · rw [settle] at settled
      split at settled <;> exact absurd settled nofun
    · obtain rfl := Except.ok.inj settled
      rfl
    · obtain rfl := Except.ok.inj settled
      rfl
  · rw [run_of_not_asks fun service account asks => asked ⟨service, account, asks⟩] at done
    obtain rfl := Except.ok.inj done
    rfl

end Keychain

/-! ## Decryption -/

namespace Secret

variable {encryptor : Encryptor σ} {context : Context} {s : σ} {failure : Failure}

/-- The token, or the plain text of a secure tag. -/
def decryptToken (encryptor : Encryptor σ) (context : Context) : Token → Pass Note σ Token
  | .tag (.call name arguments) span =>
    if name = Secure.name then Token.raw <$> Secure.run encryptor (textArguments arguments) context
    else pure (.tag (.call name arguments) span)
  | token => pure token

theorem decryptTokens_eq_mapM (template : Template) :
    decryptTokens encryptor context template = template.mapM (decryptToken encryptor context) := by
  induction template with
  | nil => rfl
  | cons token rest ih =>
    rw [List.mapM_cons, ← ih]
    rcases token with content | ⟨name | ⟨name, arguments⟩, span⟩
    · rfl
    · rfl
    · rw [decryptTokens, decryptToken]
      by_cases secure : name = Secure.name
      · simp only [secure, if_true]
      · simp only [secure, if_false]

/-- Decryption gets to a secure tag whose value cannot be read: it succeeds on all that
    stands before this tag. -/
def Meets (encryptor : Encryptor σ) (context : Context) (source : String) (s : σ) : Prop :=
  ∃ before arguments span after plain,
    Template.parse source = .ok (before ++ .tag (.call Secure.name arguments) span :: after) ∧
      (decryptTokens encryptor context before s).outcome = .ok plain ∧
      Secure.Unreadable (textArguments arguments) context

theorem letsThrough_decryptToken_iff {token : Token} :
    (decryptToken encryptor context token).LetsThrough s failure ↔
      (∃ arguments span, token = .tag (.call Secure.name arguments) span ∧
        Secure.Unreadable (textArguments arguments) context) ∧ failure = .notBase64 .notAscii := by
  rcases token with content | ⟨name | ⟨name, arguments⟩, span⟩
  · simp [decryptToken, Pass.not_letsThrough_pure]
  · simp [decryptToken, Pass.not_letsThrough_pure]
  · by_cases secure : name = Secure.name
    · rw [decryptToken, if_pos secure, map_eq_pure_bind, Pass.letsThrough_bind_iff, Secure.letsThrough_run_iff]
      simp [secure, Pass.not_letsThrough_pure]
    · simp [decryptToken, secure, Pass.not_letsThrough_pure]

/-- Decryption lets through the parse error of its template, and one failure more. -/
theorem letsThrough_decrypt_iff {source : String} :
    (decrypt encryptor context source).LetsThrough s failure ↔
      (∃ e, Template.parse source = .error e ∧ failure = .parse e) ∨
        Meets encryptor context source s ∧ failure = .notBase64 .notAscii := by
  unfold decrypt Meets
  cases read : Template.parse source with
  | error e => simp [Pass.letsThrough_fail_iff, Failure.kind, Failure.Kind.isRender]
  | ok template =>
    simp only [map_eq_pure_bind, Pass.letsThrough_bind_iff, Pass.not_letsThrough_pure, and_false,
      exists_false, or_false, decryptTokens_eq_mapM]
    constructor
    · rintro ⟨failed, other⟩
      obtain ⟨before, token, after, plain, rfl, done, stopped, -⟩ := Pass.exists_of_mapM_error failed
      obtain ⟨⟨arguments, span, rfl, unreadable⟩, rfl⟩ := letsThrough_decryptToken_iff.1 ⟨stopped, other⟩
      exact .inr ⟨⟨before, arguments, span, after, plain, rfl, done, unreadable⟩, rfl⟩
    · rintro (⟨e, ⟨⟩, -⟩ | ⟨⟨before, arguments, span, after, plain, same, done, unreadable⟩, rfl⟩)
      obtain rfl := Except.ok.inj same
      have stopped : (decryptToken encryptor context _).LetsThrough
          ((List.mapM (decryptToken encryptor context) before s).state) _ :=
        letsThrough_decryptToken_iff.2 ⟨⟨arguments, span, rfl, unreadable⟩, rfl⟩
      refine ⟨?_, stopped.2⟩
      rw [Pass.mapM_append_cons_of_error done stopped.1]

end Secret

/-! ## All functions that are always there -/

/-- What the functions of an encryptor and of a credential store fail with, apart from render
    errors, whatever state these are in. Decryption may also fail with a parse error. -/
structure Contained (encryptor : Encryptor σ) (keyring : Keyring σ) (context : Context) (s : σ) : Prop where
  run (arguments : Arguments) (failure : Failure) :
    (Secure.run encryptor arguments context).LetsThrough s failure ↔
      Secure.Unreadable arguments context ∧ failure = .notBase64 .notAscii
  transform (argument text : String) (failure : Failure) :
    ¬ (Secure.transform encryptor argument text context).LetsThrough s failure
  keychain (arguments : Arguments) (failure : Failure) :
    (Keychain.run keyring arguments context).LetsThrough s failure ↔
      Keychain.Escapes keyring arguments s failure
  password (arguments : Arguments) (result : Option String)
    (done : (Keychain.run keyring arguments context s).outcome = .ok result) : result.isSome
  decrypt (source : String) (failure : Failure) :
    (Secret.decrypt encryptor context source).LetsThrough s failure ↔
      (∃ e, Template.parse source = .error e ∧ failure = .parse e) ∨
        Secret.Meets encryptor context source s ∧ failure = .notBase64 .notAscii

/-- The functions return text or fail with render errors, but for the two failures that they
    let through, each under its condition and only under it. -/
theorem contained (encryptor : Encryptor σ) (keyring : Keyring σ) (context : Context) (s : σ) :
    Contained encryptor keyring context s where
  run _ _ := Secure.letsThrough_run_iff
  transform argument text _ := Secure.not_letsThrough_transform argument text
  keychain _ _ := Keychain.letsThrough_run_iff
  password _ _ := Keychain.isSome_of_run
  decrypt _ _ := Secret.letsThrough_decrypt_iff

/-- An encrypted argument outside ASCII and a store that breaks down are no render errors. -/
theorem contained_ne :
    let encryptor : Encryptor Unit :=
      { encrypt := fun _ bytes => return bytes, decrypt := fun _ bytes => return bytes }
    let keyring : Keyring Unit := fun _ _ => Pass.fail (.runtime "boom")
    let context : Context := { workspaceId := some "wk_1" }
    (Secure.run encryptor [("value", .text "YENC_é")] context ()).outcome = .error (.notBase64 .notAscii) ∧
      (Secret.decrypt encryptor context "$\x7b[ secure(value: \"YENC_é\") ]\x7d" ()).outcome =
        .error (.notBase64 .notAscii) ∧
      (Failure.notBase64 .notAscii).kind = .value ∧
      (Keychain.run keyring [("service", .text "github"), ("account", .text "me")] context ()).outcome =
        .error (.runtime "boom") ∧
      (Failure.runtime "boom").kind = .runtime := by
  intro encryptor keyring context
  have known : context.HasWorkspace := ⟨"wk_1", by decide, rfl⟩
  have foreign : Secure.Foreign "é" := ⟨'é', by decide, by decide⟩
  have read : Template.parse "$\x7b[ secure(value: \"YENC_é\") ]\x7d" =
      .ok [.tag (.call Secure.name [⟨"value", .text "YENC_é"⟩]) (some "$\x7b[ secure(value: \"YENC_é\") ]\x7d")] := by cbv
  refine ⟨?_, ?_, rfl, ?_, rfl⟩
  · exact (Secure.letsThrough_run_iff.2 ⟨⟨known, "é", rfl, foreign⟩, rfl⟩).1
  · have meets : Secret.Meets encryptor context _ () := ⟨[], _, _, [], [], read, rfl, known, "é", rfl, foreign⟩
    exact (Secret.letsThrough_decrypt_iff.2 (.inr ⟨meets, rfl⟩)).1
  · have asks : Keychain.Asks [("service", .text "github"), ("account", .text "me")] "github" "me" :=
      ⟨⟨by decide, by decide⟩, rfl, rfl⟩
    exact (Keychain.letsThrough_run_iff.2 ⟨"github", "me", asks, rfl, by decide, rfl⟩).1

end RequestTemplate
