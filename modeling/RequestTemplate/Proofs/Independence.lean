import RequestTemplate.Proofs.Expansion

/-!
# What functions return

Text that a function returns is put in the place of its call and never read as a
template. So functions have no say in which calls a silent pass makes: these are the
calls that stand in the expansion, up to its first failure (`calls_independent`). Only
the texts that are passed for variables differ.
-/

namespace RequestTemplate

variable {σ τ : Type}

namespace Step

/-- The calls before the first failure. -/
def reached : List Step → List CallSite
  | [] => []
  | .failure _ :: _ => []
  | .call site :: rest => site :: reached rest

/-- The first failure. -/
def ending? : List Step → Option Failure
  | [] => none
  | .failure cause :: _ => some cause
  | .call _ :: rest => ending? rest

end Step

/-- The calls that a silent pass makes for an expansion. -/
def Expansion.sites (e : Expansion) : List CallSite := Step.reached e.steps

/-- A course that no call ends makes every call before the first failure, and ends with
    this failure. -/
theorem Course.reached {r : Renderer σ} {steps : List Step} {xs : List (Exchange σ)} {ending : Option Failure}
    (course : Course r steps xs ending) (goesOn : ∀ x ∈ xs, r.fatal? x = none) :
    List.Forall₂ CallSite.Fits (Step.reached steps) (xs.map Exchange.call) ∧ ending = Step.ending? steps := by
  induction course with
  | done => exact ⟨.nil, rfl⟩
  | failed => exact ⟨.nil, rfl⟩
  | fatal _ ends _ => exact absurd ((goesOn _ List.mem_cons_self).symm.trans ends) (by simp)
  | next fits _ _ ih =>
    obtain ⟨later, same⟩ := ih fun x made => goesOn x (List.mem_cons_of_mem _ made)
    exact ⟨.cons fits later, same⟩

/-- The text that a function returns stands for its call as it is. -/
def Renderer.Verbatim (r : Renderer σ) : Prop :=
  ∀ name arguments s text, (r.callback.execute name arguments r.context s).outcome = .ok text →
    (r.call name arguments s).outcome = .ok (text.getD "")

/-- What two sets of functions cannot change about passes over the same text, each pass
    under both policies. -/
structure Independent (expansion : FailurePolicy → Expansion) (r : Renderer σ) (q : Renderer τ)
    (pass : FailurePolicy → Pass Event σ String) (other : FailurePolicy → Pass Event τ String) (s : σ) (t : τ) :
    Prop where
  run (policy : FailurePolicy) :
    pass policy = (expansion policy).run (r.under policy).call ∧
      other policy = (expansion policy).run (q.under policy).call
  verbatim (policy : FailurePolicy) : (r.under policy).Verbatim ∧ (q.under policy).Verbatim
  calls :
    List.Forall₂ CallSite.Fits (expansion .silent).sites (pass .silent s).calls ∧
      List.Forall₂ CallSite.Fits (expansion .silent).sites (other .silent t).calls
  failures (failure : Failure) :
    (pass .silent s).outcome = .error failure ↔ (other .silent t).outcome = .error failure
  strict (text textOther : String) (returned : (pass .throw s).outcome = .ok text)
    (returnedOther : (other .throw t).outcome = .ok textOther) :
    List.Forall₂ CallSite.Fits (expansion .silent).sites (pass .throw s).calls ∧
      List.Forall₂ CallSite.Fits (expansion .silent).sites (other .throw t).calls

namespace Renderer

theorem verbatim (r : Renderer σ) : r.Verbatim := by
  intro name arguments s text returned
  have answer : (r.exchange s (name, arguments)).report.outcome = .ok text := returned
  rw [call_apply, fatal?, Exchange.text, answer]

theorem reached_run {r : Renderer σ} (silent : r.isSilent) (spares : r.callback.NeverExceeds) (e : Expansion)
    (s : σ) :
    List.Forall₂ CallSite.Fits e.sites (e.run r.call s).calls ∧
      (e.run r.call s).failure? = Step.ending? e.steps := by
  obtain ⟨fits, ending⟩ := (e.follows_run r s).course.reached fun x made => fatal?_of_silent silent spares made
  rw [call_exchanges] at fits
  exact ⟨fits, ending⟩

/-- Passes are independent of what functions return if they carry out the same
    expansions, and a strict one that returns text makes the calls of the lenient one. -/
theorem independent_of_run {r : Renderer σ} {q : Renderer τ} (spares : r.callback.NeverExceeds)
    (sparesOther : q.callback.NeverExceeds) {expansion : FailurePolicy → Expansion}
    {pass : FailurePolicy → Pass Event σ String} {other : FailurePolicy → Pass Event τ String} {s : σ} {t : τ}
    (runs : ∀ policy, pass policy = (expansion policy).run (r.under policy).call)
    (runsOther : ∀ policy, other policy = (expansion policy).run (q.under policy).call)
    (agrees : (pass .throw s).Agrees (pass .silent s)) (agreesOther : (other .throw t).Agrees (other .silent t)) :
    Independent expansion r q pass other s t := by
  obtain ⟨calls, ending⟩ := reached_run (r := r.under .silent) rfl spares (expansion .silent) s
  obtain ⟨callsOther, endingOther⟩ := reached_run (r := q.under .silent) rfl sparesOther (expansion .silent) t
  rw [← runs] at calls ending
  rw [← runsOther] at callsOther endingOther
  refine ⟨fun policy => ⟨runs policy, runsOther policy⟩, fun policy => ⟨verbatim _, verbatim _⟩,
    ⟨calls, callsOther⟩, fun failure => ?_, ?_⟩
  · rw [← Report.failure?_eq_some, ← Report.failure?_eq_some, ending, endingOther]
  · intro text textOther returned returnedOther
    obtain ⟨-, same, -⟩ := agrees.success text returned
    obtain ⟨-, sameOther, -⟩ := agreesOther.success textOther returnedOther
    exact ⟨same ▸ calls, sameOther ▸ callsOther⟩

/-- With the same variables in scope, passes make the same calls and fail alike, whatever
    functions return and whatever they fail with. -/
theorem calls_independent (r : Renderer σ) (q : Renderer τ) (alike : q.scope = r.scope)
    (spares : r.callback.NeverExceeds) (sparesOther : q.callback.NeverExceeds) (s : σ) (t : τ) :
    (∀ template,
      Independent (fun policy => .ofTemplate (.ofName r.scope policy maxDepth) template) r q
        (fun policy => (r.under policy).render template) (fun policy => (q.under policy).render template) s t) ∧
      ∀ source,
        Independent (fun policy => .ofSource r.scope policy source) r q
          (fun policy => (r.under policy).renderSource source) (fun policy => (q.under policy).renderSource source)
          s t := by
  constructor
  · intro template
    refine independent_of_run spares sparesOther (fun policy => (r.under policy).render_eq_run template) ?_
      ((inStep_under r).render template s).agrees ((inStep_under q).render template t).agrees
    exact fun policy => alike ▸ (q.under policy).render_eq_run template
  · intro source
    refine independent_of_run spares sparesOther (fun policy => (r.under policy).renderSource_eq_run source) ?_
      ((inStep_under r).renderSource source s).agrees ((inStep_under q).renderSource source t).agrees
    exact fun policy => alike ▸ (q.under policy).renderSource_eq_run source

/-- Functions that return a tag and functions that fail are called alike, also where their
    text is passed on to another call. -/
theorem calls_independent_tag :
    let returning : Callback Nat :=
      { execute := fun _ _ _ n => ⟨.ok (some "$\x7b[ evil() ]\x7d"), n + 1, []⟩
        transform := fun _ _ text _ => return text }
    let failing : Callback Unit :=
      { execute := fun name _ _ => Pass.fail (.functionNotFound name), transform := fun _ _ text _ => return text }
    let r : Renderer Nat := { scope := [("v", "x$\x7b[ f() ]\x7d")], callback := returning }
    let q : Renderer Unit := { scope := [("v", "x$\x7b[ f() ]\x7d")], callback := failing }
    let source := "$\x7b[ v ]\x7d$\x7b[ g(a: v, b: 'w') ]\x7d"
    let sites : List CallSite := [⟨"f", []⟩, ⟨"f", []⟩, ⟨"g", [("a", none), ("b", some (.text "w"))]⟩]
    q.scope = r.scope ∧ r.callback.NeverExceeds ∧ q.callback.NeverExceeds ∧
      List.Forall₂ CallSite.Fits sites ((r.under .silent).renderSource source 0).calls ∧
      List.Forall₂ CallSite.Fits sites ((q.under .silent).renderSource source ()).calls ∧
      ((r.under .silent).renderSource source 0).outcome = .ok "x$\x7b[ evil() ]\x7d$\x7b[ evil() ]\x7d" := by
  intro returning failing r q source sites
  have spares : r.callback.NeverExceeds := fun _ _ _ _ _ failed => absurd failed nofun
  have sparesOther : q.callback.NeverExceeds := by
    intro name arguments context t failure failed
    obtain rfl := Except.error.inj failed
    exact nofun
  have independent := (calls_independent r q rfl spares sparesOther 0 ()).2 source
  have written : (Expansion.ofSource r.scope .silent source).sites = sites := by cbv
  obtain ⟨calls, callsOther⟩ := independent.calls
  rw [written] at calls callsOther
  exact ⟨rfl, spares, sparesOther, calls, callsOther, by cbv⟩

end Renderer

end RequestTemplate
