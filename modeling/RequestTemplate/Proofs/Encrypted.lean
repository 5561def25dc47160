import RequestTemplate.Function.Secret
import RequestTemplate.Proofs.Canonical
import RequestTemplate.Proofs.Escape
import RequestTemplate.Proofs.Secure

/-!
# Encrypted templates

Encryption keeps the decrypted source of a template as one secret. The secret is put
back as raw text, not as source: its live openers are escaped when it is decrypted. The
empty source is stored as it is, and refused as a secret that is not encrypted
(`decrypt_encrypt`).
-/

namespace RequestTemplate

variable {σ : Type}

/-- What is encrypted is decrypted to the same bytes right after. -/
def Encryptor.RoundTrips (encryptor : Encryptor σ) : Prop :=
  ∀ workspace bytes s, ((encryptor.encrypt workspace bytes >>= encryptor.decrypt workspace) s).outcome = .ok bytes

variable {encryptor : Encryptor σ} {workspace content : String} {context later : Context}

namespace Secure

/-- What is stored of a plain text is revealed as that text. -/
theorem run_transform (roundTrips : encryptor.RoundTrips) (present : workspace ≠ "")
    (known : context.workspaceId = some workspace) (knownLater : later.workspaceId = some workspace)
    (filled : content ≠ "") (plain : ¬ mark.toList <+: content.toList) (s : σ) :
    ((transform encryptor "value" content context >>= fun stored =>
      run encryptor [("value", .text stored)] later) s).outcome = .ok content := by
  obtain ⟨cipher, encrypts, decrypts⟩ := Pass.outcome_bind_eq_ok.1 (roundTrips workspace (Utf8.encode content) s)
  rw [transform_plain present known filled plain, bind_assoc]
  refine Pass.outcome_bind_eq_ok.2 ⟨cipher, ?_, ?_⟩
  · rw [guard_of_ok encrypts, encrypts]
  · rw [guard_of_ok encrypts, pure_bind, run_stored present knownLater rfl]
    refine Pass.outcome_bind_eq_ok.2 ⟨Utf8.encode content, ?_, ?_⟩
    · rw [guard_of_ok decrypts, decrypts]
    · rw [Utf8.decode_encode]
      rfl

end Secure

namespace Secret

/-! ## One secure tag -/

theorem encrypt_eq (encryptor : Encryptor σ) (context : Context) (text : String) :
    encrypt encryptor context text =
      decrypt encryptor context text >>= fun plain =>
        Secure.transform encryptor "value" plain { context with purpose := .preview } >>= fun stored =>
          pure (Template.source [tag stored]) := by
  have registered : Registry.ofList [Secure.function encryptor] =
      .ok { functions := [Secure.function encryptor], index := [(Secure.name, Secure.function encryptor)] } := rfl
  rw [encrypt, registered, Pass.ofExcept, pure_bind, encryptWith]
  refine congrArg _ (funext fun plain => ?_)
  simp only [tag, Template.transform, Template.transformArguments, bind_assoc, pure_bind,
    Token.withExpression_unspanned]
  rfl

theorem source_tag (text : String) : Template.source [tag text] = (tag text).source := by
  simp [Template.source, String.join]

theorem decrypt_tag (encryptor : Encryptor σ) (context : Context) (text : String) :
    decrypt encryptor context (Template.source [tag text]) =
      Secure.run encryptor [("value", .text text)] context >>= fun plain => pure (Delimiter.escape plain) := by
  have formed : (Expression.call Secure.name [⟨"value", .text text⟩]).WellFormed := by
    have secure : Tag.IsName "secure" := ⟨'s', ['e', 'c', 'u', 'r', 'e'], rfl, rfl, List.all_eq_true.1 rfl⟩
    have value : Tag.IsName "value" := ⟨'v', ['a', 'l', 'u', 'e'], rfl, rfl, List.all_eq_true.1 rfl⟩
    exact ⟨secure, List.nodup_singleton _, List.forall_mem_singleton.2 ⟨value, trivial⟩⟩
  have shown (plain : String) : Template.source [.raw plain] = Delimiter.escape plain := by
    simp [Template.source, String.join, Token.source]
  rw [decrypt, source_tag, tag, Template.parse_canonical formed]
  simp only [decryptTokens, if_true, map_eq_pure_bind, bind_assoc, pure_bind, shown]
  rfl

/-! ## Encrypting and decrypting -/

/-- The empty source is stored without encryption, and refused. -/
theorem exists_encrypted_empty (present : workspace ≠ "") (known : context.workspaceId = some workspace)
    {text : String} {s : σ} (opened : (decrypt encryptor context text s).outcome = .ok "") :
    ∃ stored, (encrypt encryptor context text s).outcome = .ok stored ∧
      (decrypt encryptor context stored (encrypt encryptor context text s).state).outcome =
        .error .notEncrypted := by
  have preview : { context with purpose := .preview : Context }.workspaceId = some workspace := known
  rw [encrypt_eq, Pass.bind_of_ok opened, Secure.transform_empty present preview, pure_bind]
  refine ⟨_, rfl, ?_⟩
  rw [decrypt_tag, Secure.run_plain present known rfl (by decide)]
  rfl

/-- Any other source is encrypted, and decrypted to its escaped form. -/
theorem exists_encrypted (roundTrips : encryptor.RoundTrips) (present : workspace ≠ "")
    (known : context.workspaceId = some workspace) {text plain : String} {s : σ}
    (opened : (decrypt encryptor context text s).outcome = .ok plain) (filled : plain ≠ "")
    (unmarked : ¬ Secure.mark.toList <+: plain.toList) :
    ∃ stored, (encrypt encryptor context text s).outcome = .ok stored ∧
      (decrypt encryptor context stored (encrypt encryptor context text s).state).outcome =
        .ok (Delimiter.escape plain) := by
  have preview : { context with purpose := .preview : Context }.workspaceId = some workspace := known
  rw [encrypt_eq, Pass.bind_of_ok opened]
  generalize (decrypt encryptor context text s).state = t
  obtain ⟨stored, stores, reveals⟩ := Pass.outcome_bind_eq_ok.1
    (Secure.run_transform roundTrips present preview known filled unmarked t)
  rw [Pass.bind_of_ok stores]
  refine ⟨_, rfl, ?_⟩
  show (decrypt encryptor context (Template.source [tag stored]) _).outcome = _
  rw [decrypt_tag]
  exact Pass.outcome_bind_eq_ok.2 ⟨plain, reveals, rfl⟩

/-- Encryption succeeds wherever decryption does. What it stores is decrypted to the same
    source with its live openers escaped, and refused if there is nothing to store. So the
    source comes back if it is not empty and holds no live opener, and only then. -/
theorem decrypt_encrypt (roundTrips : encryptor.RoundTrips) (present : workspace ≠ "")
    (known : context.workspaceId = some workspace) {text plain : String} {s : σ}
    (opened : (decrypt encryptor context text s).outcome = .ok plain)
    (unmarked : ¬ Secure.mark.toList <+: plain.toList) :
    ∃ stored, (encrypt encryptor context text s).outcome = .ok stored ∧
      (decrypt encryptor context stored (encrypt encryptor context text s).state).outcome =
        (if plain = "" then .error .notEncrypted else .ok (Delimiter.escape plain)) ∧
      ((decrypt encryptor context stored (encrypt encryptor context text s).state).outcome = .ok plain ↔
        plain ≠ "" ∧ ¬ Delimiter.OpenerBehind Even plain) := by
  by_cases empty : plain = ""
  · subst empty
    obtain ⟨stored, stores, refuses⟩ := exists_encrypted_empty present known opened
    rw [if_pos rfl]
    exact ⟨stored, stores, refuses, by simp [refuses]⟩
  · obtain ⟨stored, stores, reads⟩ := exists_encrypted roundTrips present known opened empty unmarked
    rw [if_neg empty]
    refine ⟨stored, stores, reads, ?_⟩
    rw [reads, Except.ok.injEq, Delimiter.escape_eq_self_iff]
    exact (and_iff_right empty).symm

/-- Behind an escaped opener a secret is revealed, by an encryptor that puts a running
    number in front. The source without live openers comes back. -/
theorem decrypt_encrypt_escaped :
    let encryptor : Encryptor Nat :=
      { encrypt := fun _ bytes n => ⟨.ok (UInt8.ofNat n :: bytes.reverse), n + 1, []⟩
        decrypt := fun _ bytes => return bytes.tail.reverse }
    let context : Context := { workspaceId := some "k" }
    let text := "\\$\x7b[$\x7b[ secure(value: 'YENC_B3g=') ]\x7d"
    let plain := "\\$\x7b[x"
    encryptor.RoundTrips ∧ (decrypt encryptor context text 7).outcome = .ok plain ∧
      ¬ Secure.mark.toList <+: plain.toList ∧
      ∃ stored, (encrypt encryptor context text 7).outcome = .ok stored ∧
        (decrypt encryptor context stored (encrypt encryptor context text 7).state).outcome = .ok plain := by
  intro encryptor context text plain
  have roundTrips : encryptor.RoundTrips := by
    intro workspace bytes n
    show Except.ok bytes.reverse.reverse = Except.ok bytes
    rw [List.reverse_reverse]
  have opened : (decrypt encryptor context text 7).outcome = .ok plain := by cbv
  have unmarked : ¬ Secure.mark.toList <+: plain.toList := by decide
  obtain ⟨stored, stores, reads, -⟩ := decrypt_encrypt roundTrips (by decide) rfl opened unmarked
  refine ⟨roundTrips, opened, unmarked, stored, stores, ?_⟩
  rw [reads]
  cbv

/-- A source with a live opener does not come back, and neither does the empty one. -/
theorem decrypt_encrypt_ne :
    let encryptor : Encryptor Unit :=
      { encrypt := fun _ bytes => return bytes, decrypt := fun _ bytes => return bytes }
    let context : Context := { workspaceId := some "k" }
    let lost (plain : String) : Prop :=
      (decrypt encryptor context plain ()).outcome = .ok plain ∧ ¬ Secure.mark.toList <+: plain.toList ∧
        ∃ stored, (encrypt encryptor context plain ()).outcome = .ok stored ∧
          (decrypt encryptor context stored ()).outcome ≠ .ok plain
    encryptor.RoundTrips ∧ lost "a $\x7b[ x ]\x7d" ∧ lost "" := by
  intro encryptor context lost
  have roundTrips : encryptor.RoundTrips := fun _ _ _ => rfl
  have live : (decrypt encryptor context "a $\x7b[ x ]\x7d" ()).outcome = .ok "a $\x7b[ x ]\x7d" := by cbv
  have empty : (decrypt encryptor context "" ()).outcome = .ok "" := by cbv
  have escaped : Delimiter.escape "a $\x7b[ x ]\x7d" = "a \\$\x7b[ x ]\x7d" := by cbv
  obtain ⟨stored, stores, reads⟩ := exists_encrypted roundTrips (by decide) rfl live (by decide) (by decide)
  obtain ⟨nothing, storesNothing, refuses⟩ := exists_encrypted_empty (by decide) rfl empty
  rw [escaped] at reads
  refine ⟨roundTrips, ⟨live, by decide, stored, stores, ?_⟩, empty, by decide, nothing, storesNothing, ?_⟩
  · exact ne_of_eq_of_ne reads (by simp)
  · exact ne_of_eq_of_ne refuses (by simp)

end Secret

end RequestTemplate
