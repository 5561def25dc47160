import RequestTemplate.Function.Default
import RequestTemplate.Proofs.Saved

/-!
# Saving twice

Saving seals every secret of a template, whatever the encryptor returns: none is left in
plain text. A sealed secret is stored as it is, so saving again changes nothing and asks
no encryptor (`sealed_of_saved`).
-/

namespace RequestTemplate

variable {σ τ : Type}

/-- A template is saved as the source of what is stored of it. -/
def Template.save (callback : Callback σ) (context : Context) (text : String) : Pass Note σ String :=
  match Template.parse text with
  | .error e => Pass.fail (.parse e)
  | .ok template => Template.source <$> Template.transform callback context template

/-- Encrypting asks for a workspace with a name. -/
def Context.HasWorkspace (context : Context) : Prop :=
  ∃ workspace, workspace ≠ "" ∧ context.workspaceId = some workspace

theorem Registry.standard_eq (encryptor : Encryptor σ) (keyring : Keyring σ) :
    standard (some encryptor) keyring = .ok
      { functions := [Secure.function encryptor, Keychain.function keyring]
        index := [(Secure.name, Secure.function encryptor), ("keychain", Keychain.function keyring),
          ("keyring", Keychain.function keyring)] } :=
  rfl

/-- Where there is an encryptor, the functions that are always there store secrets. -/
theorem Registry.stores_of_standard {registry : Registry σ} {encryptor : Encryptor σ} {keyring : Keyring σ}
    (built : standard (some encryptor) keyring = .ok registry) : registry.Stores encryptor := by
  obtain rfl := Except.ok.inj ((standard_eq encryptor keyring).symm.trans built)
  refine ⟨rfl, fun name f other found argument text context => ?_⟩
  obtain ⟨before, after, eq, -⟩ := List.lookup_eq_some_iff.1 found
  have listed := eq ▸ List.mem_append_right before List.mem_cons_self
  simp only [List.mem_cons, Prod.mk.injEq, List.not_mem_nil, or_false] at listed
  rcases listed with ⟨secure, -⟩ | ⟨-, rfl⟩ | ⟨-, rfl⟩
  · exact absurd secure other
  · rfl
  · rfl

namespace Secure

variable {encryptor : Encryptor σ} {context : Context} {argument text stored : String} {s : σ}

/-- The text is stored as it is: it is empty, or marked as encrypted. -/
def Sealed (text : String) : Prop :=
  text = "" ∨ mark.toList <+: text.toList

/-- A text among the arguments that can be stored once more. -/
def Kept (context : Context) (argument text : String) : Prop :=
  argument = "value" → Sealed text ∧ context.HasWorkspace

/-- What is stored can be stored once more, whatever the encryptor returned. -/
theorem kept_of_transform (done : (transform encryptor argument text context s).outcome = .ok stored) :
    Kept context argument stored := by
  intro value
  rw [transform, if_neg (not_not.2 value), Pass.outcome_bind_eq_ok] at done
  obtain ⟨workspace, required, done⟩ := done
  refine ⟨?_, workspace, Context.of_requireWorkspace required⟩
  by_cases empty : text = ""
  · rw [if_pos empty] at done
    exact .inl (Except.ok.inj done).symm
  · rw [if_neg empty] at done
    by_cases marked : (payload? text).isSome
    · rw [if_pos marked] at done
      obtain rfl := Except.ok.inj done
      exact .inr (isSome_payload?_iff.1 marked)
    · rw [if_neg marked, Pass.outcome_bind_eq_ok] at done
      obtain ⟨cipher, -, done⟩ := done
      obtain rfl := Except.ok.inj done
      refine .inr ?_
      rw [String.toList_append]
      exact List.prefix_append _ _

theorem transform_of_kept (kept : Kept context argument text) :
    transform encryptor argument text context = pure text := by
  by_cases value : argument = "value"
  · obtain ⟨sealed, workspace, present, known⟩ := kept value
    subst value
    rcases sealed with rfl | marked
    · exact transform_empty present known
    · exact transform_marked present known marked
  · rw [transform, if_pos value]

end Secure

namespace Secret

variable {registry : Registry σ} {encryptor : Encryptor σ} {again : Registry τ} {other : Encryptor τ}
  {context : Context}

/-- No secure tag holds a secret in plain text. -/
def Sealed (template : Template) : Prop :=
  ∀ arguments span, .tag (.call Secure.name arguments) span ∈ template →
    ∀ content, ⟨"value", .text content⟩ ∈ arguments → Secure.Sealed content

/-- All texts in secure tags can be stored once more. -/
def Kept (context : Context) (template : Template) : Prop :=
  ∀ arguments span, .tag (.call Secure.name arguments) span ∈ template →
    ∀ argument content, ⟨argument, .text content⟩ ∈ arguments → Secure.Kept context argument content

theorem sealed_of_kept {template : Template} (kept : Kept context template) : Sealed template :=
  fun arguments span member content listed => (kept arguments span member "value" content listed rfl).1

/-! ## The first time -/

theorem kept_of_transformArguments (stores : registry.Stores encryptor) {arguments stored : List Argument}
    {s : σ}
    (done : (Template.transformArguments registry.callback context Secure.name arguments s).outcome = .ok stored) :
    ∀ argument content, ⟨argument, .text content⟩ ∈ stored → Secure.Kept context argument content := by
  induction arguments generalizing stored s with
  | nil =>
    obtain rfl : [] = stored := Except.ok.inj done
    simp
  | cons head rest ih =>
    obtain ⟨name, value⟩ := head
    rcases value with text | _ | _ | _ <;>
      simp only [Template.transformArguments, Pass.outcome_bind_eq_ok, Pass.outcome_pure, Except.ok.injEq] at done
    · obtain ⟨replaced, written, others, later, rfl⟩ := done
      rw [transform_secure stores] at written
      intro argument content member
      rcases List.mem_cons.1 member with here | there
      · cases here
        exact Secure.kept_of_transform written
      · exact ih later argument content there
    all_goals
      obtain ⟨others, later, rfl⟩ := done
      intro argument content member
      exact ih later argument content (List.mem_of_ne_of_mem (by simp) member)

theorem kept_of_transform (stores : registry.Stores encryptor) {template stored : Template} {s : σ}
    (done : (Template.transform registry.callback context template s).outcome = .ok stored) :
    Kept context stored := by
  induction template generalizing stored s with
  | nil =>
    obtain rfl : [] = stored := Except.ok.inj done
    simp [Kept]
  | cons token rest ih =>
    rcases token with content | ⟨⟨name⟩ | ⟨name, arguments⟩, span⟩ <;>
      simp only [Template.transform, Pass.outcome_bind_eq_ok, Pass.outcome_pure, Except.ok.injEq] at done
    · obtain ⟨others, later, rfl⟩ := done
      exact fun arguments span member => ih later arguments span (List.mem_of_ne_of_mem (by simp) member)
    · obtain ⟨others, later, rfl⟩ := done
      exact fun arguments span member => ih later arguments span (List.mem_of_ne_of_mem (by simp) member)
    · obtain ⟨replaced, written, others, later, rfl⟩ := done
      intro arguments span member
      rcases List.mem_cons.1 member with here | there
      -- with its span or without, the tag holds the arguments that were stored
      · obtain ⟨kept, eq⟩ := Token.withExpression_tag (.call name _) (.call name replaced) _
        rw [eq] at here
        cases here
        exact kept_of_transformArguments stores written
      · exact ih later arguments span there

/-! ## The second time -/

theorem transform_of_kept (stores : again.Stores other) {template : Template} (kept : Kept context template) :
    Template.transform again.callback context template = pure template := by
  refine Template.transform_of_kept fun name arguments span member => ?_
  by_cases secure : name = Secure.name
  · subst secure
    refine Template.transformArguments_of_kept fun argument content listed => ?_
    rw [transform_secure stores]
    exact Secure.transform_of_kept (kept arguments span member argument content listed)
  · exact transformArguments_other stores secure context arguments

/-- A template that is read back holds the same texts. -/
theorem kept_settled {template : Template} (kept : Kept context template) :
    Kept context (Template.settled template) := by
  intro arguments span member
  obtain ⟨token, old, eq⟩ := List.mem_map.1 member
  cases token with
  | raw content => cases eq
  | tag value written =>
    cases eq
    exact kept arguments written old

/-- No secret is left in plain text in what is saved, whatever the encryptor returns. To
    save it again is to leave it alone: it succeeds with the same text, and asks no
    encryptor for anything. -/
theorem sealed_of_saved (stores : registry.Stores encryptor) (storesAgain : again.Stores other) {text : String}
    {template stored : Template} (read : Template.parse text = .ok template) {s : σ}
    (done : (Template.transform registry.callback context template s).outcome = .ok stored) :
    Sealed stored ∧
      Template.save again.callback context (Template.source stored) = pure (Template.source stored) := by
  have kept := kept_of_transform stores done
  refine ⟨sealed_of_kept kept, ?_⟩
  obtain ⟨spans, spells, proper, -⟩ := Template.spells_of_rewritten (Template.rewritten_of_transform done)
    (Template.spells_of_parse read).1 (Span.proper_spans _)
  rw [Template.save, Template.parse_of_spells spells proper]
  show Template.source <$> Template.transform again.callback context (Template.settled stored) = _
  rw [transform_of_kept storesAgain (kept_settled kept), map_pure, Template.source_settled]

/-- A secret between an escaped opener and an empty secret is saved behind a running number.
    Both are sealed for an encryptor that refuses everything. -/
theorem sealed_of_saved_number :
    let encryptor : Encryptor Nat :=
      { encrypt := fun _ bytes n => ⟨.ok (UInt8.ofNat n :: bytes), n + 1, []⟩
        decrypt := fun _ bytes => return bytes }
    let refusing : Encryptor Unit :=
      { encrypt := fun _ _ => Pass.fail .notEncrypted, decrypt := fun _ _ => Pass.fail .notEncrypted }
    let registry (ω : Type) (encryptor : Encryptor ω) : Registry ω :=
      let keychain := Keychain.function fun _ _ => return none
      { functions := [Secure.function encryptor, keychain]
        index := [("secure", Secure.function encryptor), ("keychain", keychain), ("keyring", keychain)] }
    let context : Context := { workspaceId := some "k" }
    let text := "\\$\x7b[$\x7b[secure(value:'p')]\x7d$\x7b[secure(value:'')]\x7d"
    let template (content : String) (span : Option String) : Template :=
      [.raw "$\x7b[", .tag (.call "secure" [⟨"value", .text content⟩]) span,
        .tag (.call "secure" [⟨"value", .text ""⟩]) (some "$\x7b[secure(value:'')]\x7d")]
    let opened := template "p" (some "$\x7b[secure(value:'p')]\x7d")
    let stored := template "YENC_B3A=" none
    (registry Nat encryptor).Stores encryptor ∧ (registry Unit refusing).Stores refusing ∧
      Template.parse text = .ok opened ∧
      (Template.transform (registry Nat encryptor).callback context opened 7).outcome = .ok stored ∧
      Sealed stored ∧
      Template.save (registry Unit refusing).callback context (Template.source stored) =
        pure (Template.source stored) := by
  intro encryptor refusing registry context text template opened stored
  have stores : (registry Nat encryptor).Stores encryptor :=
    Registry.stores_of_standard (Registry.standard_eq encryptor _)
  have storesAgain : (registry Unit refusing).Stores refusing :=
    Registry.stores_of_standard (Registry.standard_eq refusing _)
  have read : Template.parse text = .ok opened := by cbv
  have done : (Template.transform (registry Nat encryptor).callback context opened 7).outcome =
      .ok stored := by cbv
  obtain ⟨sealed, same⟩ := sealed_of_saved stores storesAgain read done
  exact ⟨stores, storesAgain, read, done, sealed, same⟩

end Secret

end RequestTemplate
