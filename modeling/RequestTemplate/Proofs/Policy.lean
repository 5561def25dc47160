import Mathlib
import RequestTemplate.Proofs.Lockstep
import RequestTemplate.Proofs.Pass

/-!
# Throwing and silent passes

A pass that ends at the first failure is compared with one that renders failures as
empty text. What the first one records the second one records too, up to the failure
that ends the first (`Report.Precedes`). So both return the same text wherever the
first returns one, and the first calls no function that the second does not call
(`agrees_under`).
-/

namespace RequestTemplate

variable {σ α β : Type}

/-! ## What a pass calls and warns of -/

/-- The function that is called, with its arguments. -/
def Event.call? : Event → Option (String × Arguments)
  | .called name arguments => some (name, arguments)
  | _ => none

/-- The function whose failure is rendered as empty text, and the failure. -/
def Event.warning? : Event → Option (String × Failure)
  | .suppressed name failure => some (name, failure)
  | _ => none

namespace Report

def calls (report : Report Event σ α) : List (String × Arguments) :=
  report.record.filterMap Event.call?

def warnings (report : Report Event σ α) : List (String × Failure) :=
  report.record.filterMap Event.warning?

/-- The lenient pass makes the calls of the strict one, and maybe more behind them. It
    does the same and warns of nothing where the strict one succeeds, and it fails only
    where the strict one fails. -/
structure Agrees (strict lenient : Report Event σ α) : Prop where
  calls : strict.calls <+: lenient.calls
  success (a : α) (done : strict.outcome = .ok a) :
    lenient.outcome = .ok a ∧ lenient.calls = strict.calls ∧ lenient.warnings = []
  failure (failed : Failure) (ended : lenient.outcome = .error failed) :
    ∃ first, strict.outcome = .error first

/-- The lenient pass does all that the strict one does up to its failure, and nothing
    else if the strict one succeeds. -/
structure Precedes (strict lenient : Report Event σ α) : Prop where
  record : strict.record <+: lenient.record
  success (a : α) (done : strict.outcome = .ok a) : lenient = strict ∧ strict.warnings = []

theorem Precedes.agrees {strict lenient : Report Event σ α} (precedes : Precedes strict lenient) :
    Agrees strict lenient where
  calls := precedes.record.filterMap Event.call?
  success a done := by
    obtain ⟨rfl, quiet⟩ := precedes.success a done
    exact ⟨done, rfl, quiet⟩
  failure failed ended := by
    cases outcome : strict.outcome with
    | error first => exact ⟨first, rfl⟩
    | ok a =>
      obtain ⟨rfl, -⟩ := precedes.success a outcome
      exact absurd (outcome.symm.trans ended) (by simp)

/-- A pass that warns of nothing precedes itself. -/
theorem precedes_refl {report : Report Event σ α} (quiet : report.warnings = []) :
    Precedes report report :=
  ⟨List.prefix_rfl, fun _ _ => ⟨rfl, quiet⟩⟩

/-- A strict pass that fails at once precedes every pass. -/
theorem precedes_fail (failure : Failure) (s : σ) (report : Report Event σ α) :
    Precedes ((Pass.fail failure : Pass Event σ α) s) report :=
  ⟨List.nil_prefix, fun _ done => absurd done (by simp)⟩

theorem precedes_bind {p q : Pass Event σ α} {f g : α → Pass Event σ β}
    (first : ∀ s, Precedes (p s) (q s)) (later : ∀ a s, Precedes (f a s) (g a s)) (s : σ) :
    Precedes ((p >>= f) s) ((q >>= g) s) := by
  obtain ⟨record, success⟩ := first s
  cases outcome : (p s).outcome with
  | error failure =>
    refine ⟨?_, fun b done => ?_⟩
    · -- the strict pass has ended, and the record of the lenient one only grows
      rw [Pass.record_bind, outcome]
      refine record.trans ?_
      rw [Pass.record_bind]
      cases (q s).outcome with
      | error _ => exact List.prefix_rfl
      | ok a => exact List.prefix_append _ _
    · rw [Pass.outcome_bind, outcome] at done
      exact absurd done (by simp)
  | ok a =>
    obtain ⟨same, quiet⟩ := success a outcome
    obtain ⟨recordLater, successLater⟩ := later a (p s).state
    refine ⟨?_, fun b done => ?_⟩
    · rw [Pass.record_bind, Pass.record_bind, same, outcome]
      exact (List.prefix_append_right_inj _).2 recordLater
    · rw [Pass.outcome_bind, outcome] at done
      obtain ⟨sameLater, quietLater⟩ := successLater b done
      constructor
      · rw [Pass.bind_apply, Pass.bind_apply, same]
        revert outcome sameLater
        rcases p s with ⟨_ | a, t, before⟩
        · rintro ⟨⟩
        · rintro ⟨⟩ sameLater
          exact congrArg (fun report => Report.mk report.outcome report.state (before ++ report.record)) sameLater
      · rw [warnings, Pass.record_bind, outcome, List.filterMap_append]
        exact List.append_eq_nil_iff.2 ⟨quiet, quietLater⟩

end Report

/-- The relation between a strict pass and a lenient one, in every state. -/
def Pass.precedes (σ : Type) : Pass.Lockstep σ where
  Rel p q := ∀ s, (p s).Precedes (q s)
  pure _ _ := Report.precedes_refl rfl
  fail failure s := Report.precedes_fail failure s _
  bind := Report.precedes_bind

namespace Renderer

/-- The renderer with another policy. -/
def under (r : Renderer σ) (policy : FailurePolicy) : Renderer σ :=
  { r with options := { r.options with onFailure := policy } }

/-- Notes of a function are no warnings. -/
theorem precedes_noting (p : Pass Note σ α) (s : σ) :
    (p.noting.attempt s).Precedes (p.noting.attempt s) := by
  refine Report.precedes_refl ?_
  unfold Report.warnings Pass.attempt Pass.noting
  simp [Event.warning?, List.filterMap_eq_nil_iff]

theorem precedes_missing (r : Renderer σ) (name : String) :
    (Pass.precedes σ).Rel ((r.under .throw).missing name) ((r.under .silent).missing name) :=
  fun s => Report.precedes_fail (.missingVariable name) s _

theorem precedes_call (r : Renderer σ) (name : String) (arguments : Arguments) :
    (Pass.precedes σ).Rel ((r.under .throw).call name arguments) ((r.under .silent).call name arguments) := by
  refine (Pass.precedes σ).bind (fun s => Report.precedes_refl rfl) fun _ => ?_
  refine (Pass.precedes σ).bind (precedes_noting _) fun result => ?_
  cases result with
  | ok text => exact (Pass.precedes σ).pure _
  | error failure =>
    simp only
    split
    · exact (Pass.precedes σ).fail failure
    · exact fun s => Report.precedes_fail (failure.inCall name) s _

theorem inStep_under (r : Renderer σ) : (r.under .throw).InStep (Pass.precedes σ) (r.under .silent) where
  scope := rfl
  missing := precedes_missing r
  call := precedes_call r

/-- A throwing pass and a silent pass agree, over every template, over every source and
    over every document, in whatever state the functions are. -/
theorem agrees_under (r : Renderer σ) (s : σ) :
    (∀ template, ((r.under .throw).render template s).Agrees ((r.under .silent).render template s)) ∧
      (∀ source, ((r.under .throw).renderSource source s).Agrees ((r.under .silent).renderSource source s)) ∧
      ∀ d, ((r.under .throw).renderDocument d s).Agrees ((r.under .silent).renderDocument d s) :=
  ⟨fun template => ((inStep_under r).render template s).agrees,
    fun source => ((inStep_under r).renderSource source s).agrees,
    fun d => ((inStep_under r).renderDocument d s).agrees⟩

end Renderer

end RequestTemplate
