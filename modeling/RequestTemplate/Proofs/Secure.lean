import RequestTemplate.Function.Secure
import RequestTemplate.Proofs.Base64
import RequestTemplate.Proofs.Pass
import RequestTemplate.Proofs.Utf8
import RequestTemplate.Render.Template

/-!
# The secure function

What comes out of the secure function depends on the state no more than decryption
does (`steadyOn_run`). An argument that is stored encrypted is decrypted to its text
(`succeedsOn_transform`, `yieldsOn_run`), whatever characters the text has.
-/

namespace RequestTemplate

variable {σ κ : Type} {view : σ → κ} {encryptor : Encryptor σ}

theorem Context.requireWorkspace_eq {context : Context} {workspace : String} (present : workspace ≠ "")
    (known : context.workspaceId = some workspace) :
    (context.requireWorkspace : Pass Note σ String) = pure workspace := by
  rw [requireWorkspace, known]
  split
  · contradiction
  · rename_i empty
    exact absurd (Option.some.inj empty) present
  · rename_i same
    rw [Option.some.inj same]

theorem Context.of_requireWorkspace {context : Context} {workspace : String} {s : σ}
    (required : (context.requireWorkspace s).outcome = .ok workspace) :
    workspace ≠ "" ∧ context.workspaceId = some workspace := by
  cases known : context.workspaceId with
  | none =>
    rw [requireWorkspace, known] at required
    cases required
  | some named =>
    by_cases empty : named = ""
    · rw [requireWorkspace, known, empty] at required
      cases required
    · rw [requireWorkspace_eq empty known] at required
      obtain rfl := Except.ok.inj required
      exact ⟨empty, rfl⟩

namespace Secure

/-! ## Nothing depends on the state -/

theorem steadyOn_requireWorkspace (context : Context) :
    (context.requireWorkspace : Pass Note σ String).SteadyOn view := by
  unfold Context.requireWorkspace
  split
  · exact Pass.steadyOn_fail _
  · exact Pass.steadyOn_fail _
  · exact Pass.steadyOn_pure _

theorem steadyOn_guard {α : Type} {p : Pass Note σ α} (steady : p.SteadyOn view) :
    (guard p).SteadyOn view := by
  obtain ⟨outcome, yields⟩ := steady
  refine Pass.steadyOn_bind ⟨_, Pass.yieldsOn_attempt yields⟩ fun result => ?_
  cases result with
  | ok a => exact Pass.steadyOn_pure a
  | error failure =>
    simp only
    split
    · exact Pass.steadyOn_fail _
    · exact Pass.steadyOn_fail _

theorem steadyOn_bytesOf (payload : String) : (bytesOf payload : Pass Note σ (List UInt8)).SteadyOn view := by
  unfold bytesOf
  split
  · exact Pass.steadyOn_pure _
  · exact Pass.steadyOn_fail _
  · exact Pass.steadyOn_fail _

theorem steadyOn_reveal (steady : ∀ workspace bytes, (encryptor.decrypt workspace bytes).SteadyOn view)
    (workspace text : String) : (reveal encryptor workspace text).SteadyOn view := by
  unfold reveal
  split
  · exact Pass.steadyOn_fail _
  · refine Pass.steadyOn_bind (steadyOn_bytesOf _) fun bytes => ?_
    refine Pass.steadyOn_bind (steadyOn_guard (steady workspace bytes)) fun plain => ?_
    split
    · exact Pass.steadyOn_pure _
    · exact Pass.steadyOn_fail _

theorem steadyOn_run (steady : ∀ workspace bytes, (encryptor.decrypt workspace bytes).SteadyOn view)
    (arguments : Arguments) (context : Context) : (run encryptor arguments context).SteadyOn view := by
  refine Pass.steadyOn_bind (steadyOn_requireWorkspace context) fun workspace => ?_
  split
  · exact steadyOn_reveal steady workspace _
  · exact Pass.steadyOn_pure _

/-- Of the arguments only the text of the value matters. -/
theorem run_congr (encryptor : Encryptor σ) {arguments others : Arguments}
    (same : arguments.text? "value" = others.text? "value") (context : Context) :
    run encryptor arguments context = run encryptor others context := by
  unfold run
  rw [same]

/-! ## Text that is stored encrypted -/

theorem payload?_append (payload : String) : payload? (mark ++ payload) = some payload := by
  simp [payload?]

theorem isSome_payload?_iff {text : String} : (payload? text).isSome ↔ mark.toList <+: text.toList := by
  rw [payload?, Option.isSome_map, List.isSome_isPrefixOf?_eq_isPrefixOf, List.isPrefixOf_iff_prefix]

theorem payload?_eq_none {text : String} (plain : ¬ mark.toList <+: text.toList) : payload? text = none := by
  rwa [← Option.not_isSome_iff_eq_none, isSome_payload?_iff]

/-- A success is passed on as it is. -/
theorem guard_of_ok {α : Type} {p : Pass Note σ α} {a : α} {s : σ} (done : (p s).outcome = .ok a) :
    guard p s = p s := by
  have attempted : (p.attempt s).outcome = .ok (.ok a) := congrArg Except.ok done
  rw [guard, Pass.bind_of_ok attempted]
  show (⟨.ok a, (p s).state, (p s).record ++ []⟩ : Report Note σ α) = p s
  rw [List.append_nil, ← done]

theorem succeedsOn_guard {α : Type} {p : Pass Note σ α} {P : α → Prop} (succeeds : p.SucceedsOn view P) :
    (guard p).SucceedsOn view P := by
  intro s
  obtain ⟨a, value, kept, holds⟩ := succeeds s
  rw [guard_of_ok value]
  exact ⟨a, value, kept, holds⟩

theorem yieldsOn_guard {α : Type} {p : Pass Note σ α} {a : α} (yields : p.YieldsOn view (.ok a)) :
    (guard p).YieldsOn view (.ok a) :=
  Pass.yieldsOn_bind (Pass.yieldsOn_attempt yields) (Pass.yieldsOn_pure a)

/-- The empty text is stored as it is. -/
theorem transform_empty {context : Context} {workspace : String} (present : workspace ≠ "")
    (known : context.workspaceId = some workspace) :
    transform encryptor "value" "" context = pure "" := by
  rw [transform, if_neg (not_not.2 rfl), Context.requireWorkspace_eq present known, pure_bind, if_pos rfl]

/-- A text that is stored encrypted already stays as it is. -/
theorem transform_marked {context : Context} {workspace content : String} (present : workspace ≠ "")
    (known : context.workspaceId = some workspace) (marked : mark.toList <+: content.toList) :
    transform encryptor "value" content context = pure content := by
  have filled : content ≠ "" := by
    rintro rfl
    exact absurd marked (by decide)
  rw [transform, if_neg (not_not.2 rfl), Context.requireWorkspace_eq present known, pure_bind, if_neg filled,
    if_pos (isSome_payload?_iff.2 marked)]

/-- A plain text is stored behind the mark, as what it is encrypted to. -/
theorem transform_plain {context : Context} {workspace content : String} (present : workspace ≠ "")
    (known : context.workspaceId = some workspace) (filled : content ≠ "")
    (plain : ¬ mark.toList <+: content.toList) :
    transform encryptor "value" content context =
      guard (encryptor.encrypt workspace (Utf8.encode content)) >>= fun cipher =>
        pure (mark ++ Base64.encode cipher) := by
  simp only [transform, ne_eq, not_true_eq_false, if_false, Context.requireWorkspace_eq present known,
    pure_bind, filled, payload?_eq_none plain, Option.isSome_none, Bool.false_eq_true]

/-- A text that is not encrypted is refused. -/
theorem run_plain {context : Context} {workspace content : String} {arguments : Arguments}
    (present : workspace ≠ "") (known : context.workspaceId = some workspace)
    (given : arguments.text? "value" = some content) (plain : ¬ mark.toList <+: content.toList) :
    run encryptor arguments context = Pass.fail .notEncrypted := by
  simp only [run, Context.requireWorkspace_eq present known, pure_bind, given, reveal, payload?_eq_none plain]

/-- Of a text behind the mark the bytes are decrypted. -/
theorem run_stored {context : Context} {workspace : String} {cipher : List UInt8} {arguments : Arguments}
    (present : workspace ≠ "") (known : context.workspaceId = some workspace)
    (stored : arguments.text? "value" = some (mark ++ Base64.encode cipher)) :
    run encryptor arguments context =
      guard (encryptor.decrypt workspace cipher) >>= fun plain =>
        Pass.ofExcept ((Utf8.decode plain).mapError .notUtf8) := by
  have bytes : (bytesOf (Base64.encode cipher) : Pass Note σ (List UInt8)) = pure cipher := by
    rw [bytesOf, Base64.decode_encode]
  simp only [run, Context.requireWorkspace_eq present known, pure_bind, stored, reveal, payload?_append,
    bytes]
  refine congrArg _ (funext fun plain => ?_)
  cases Utf8.decode plain with
  | ok s => rfl
  | error fault => rfl

theorem succeedsOn_transform {context : Context} {workspace content : String} {P : List UInt8 → Prop}
    (present : workspace ≠ "") (known : context.workspaceId = some workspace) (filled : content ≠ "")
    (plain : ¬ mark.toList <+: content.toList)
    (encrypts : (encryptor.encrypt workspace (Utf8.encode content)).SucceedsOn view P) :
    (transform encryptor "value" content context).SucceedsOn view
      fun stored => ∃ cipher, stored = mark ++ Base64.encode cipher ∧ P cipher := by
  rw [transform_plain present known filled plain]
  refine Pass.succeedsOn_bind (succeedsOn_guard encrypts) fun cipher holds => ?_
  exact Pass.succeedsOn_pure ⟨cipher, rfl, holds⟩

/-- A text that is stored encrypted is revealed. -/
theorem yieldsOn_run {context : Context} {workspace content : String} {cipher : List UInt8}
    {arguments : Arguments} (present : workspace ≠ "") (known : context.workspaceId = some workspace)
    (stored : arguments.text? "value" = some (mark ++ Base64.encode cipher))
    (decrypts : (encryptor.decrypt workspace cipher).YieldsOn view (.ok (Utf8.encode content))) :
    (run encryptor arguments context).YieldsOn view (.ok content) := by
  rw [run_stored present known stored]
  refine Pass.yieldsOn_bind (yieldsOn_guard decrypts) ?_
  rw [Utf8.decode_encode]
  exact Pass.yieldsOn_pure content

/-! ## Calls from a template -/

/-- A call of the secure function renders its plain text. -/
theorem yieldsOn_call {registry : Registry σ} {r : Renderer σ}
    (found : registry.find? name = some (function encryptor)) (calls : r.callback = registry.callback)
    {arguments : Arguments} {text : String}
    (reveals : (run encryptor arguments r.context).YieldsOn view (.ok text)) :
    (r.call name arguments).YieldsOn view (.ok text) := by
  have runs : (r.callback.execute name arguments r.context).YieldsOn view (.ok (some text)) := by
    rw [calls]
    simp only [Registry.callback, Registry.execute, Registry.get, found, Pass.ofExcept, pure_bind,
      function, map_eq_pure_bind]
    exact Pass.yieldsOn_bind reveals (Pass.yieldsOn_pure _)
  refine Pass.yieldsOn_bind (Pass.yieldsOn_emit _) ?_
  exact Pass.yieldsOn_bind (Pass.yieldsOn_attempt (Pass.yieldsOn_noting runs)) (Pass.yieldsOn_pure text)

end Secure

end RequestTemplate
