import RequestTemplate.Proofs.Reach

/-!
# How passes end

A strict pass ends with the first failure that it meets: a template that is malformed, a
failure of rendering itself, or the failure of the last call, which render errors leave
as they are and which is the function's otherwise (`Strict`). A silent pass ends only
where a template is malformed or a stack is exceeded. To it, every other call that fails
is a call that returns nothing, and it warns of each of them once (`Lenient`).
-/

namespace RequestTemplate

variable {σ α β : Type}

/-! ## Failures of the templates themselves -/

/-- The value of a variable that is reached is malformed. -/
def Scope.Malformed (scope : Dictionary String String) (root : String → Prop) (e : ParseError) : Prop :=
  ∃ name source, Scope.Reaches scope root name ∧ scope.lookup name = some source ∧
    Template.parse source = .error e

/-- Why an expansion holds a failure. -/
inductive Cause (policy : FailurePolicy) (malformed : ParseError → Prop) : Failure → Prop
  | parse {e : ParseError} (holds : malformed e) : Cause policy malformed (.parse e)
  | missing (name : String) (strict : policy = .throw) : Cause policy malformed (.missingVariable name)
  | exceeded (depth : Int) : Cause policy malformed (.stackExceeded depth)

namespace Expansion

variable {scope : Dictionary String String} {policy : FailurePolicy} {root : String → Prop}
  {malformed : ParseError → Prop} {failure : Failure}

theorem cause_of_fails {room : Nat} {name : String} (fails : Fails scope policy room name failure)
    (reached : Scope.Reaches scope root name) : Cause policy (Scope.Malformed scope root) failure := by
  induction fails with
  | missing _ strict => exact .missing _ strict
  | exceeded => exact .exceeded _
  | malformed known refused => exact .parse ⟨_, _, reached, known, refused⟩
  | inside known read refers _ ih => exact ih (reached.step ((Scope.leadsTo_iff known read _).2 refers))

theorem cause_of_mem_ofTemplate {room : Nat} {template : Template}
    (member : .failure failure ∈ (ofTemplate (ofName scope policy room) template).steps) :
    Cause policy (Scope.Malformed scope (· ∈ Template.references template)) failure := by
  obtain ⟨name, refers, fails⟩ := failure_mem_steps_iff.1 member
  exact cause_of_fails fails (Scope.reaches_of_root refers)

theorem cause_of_mem_ofSource {source : String}
    (member : .failure failure ∈ (ofSource scope policy source).steps) :
    Cause policy (fun e => Template.parse source = .error e ∨ Scope.Malformed scope (Template.Refers source) e)
      failure := by
  unfold ofSource at member
  cases read : Template.parse source with
  | error e =>
    rw [read, steps] at member
    cases List.mem_singleton.1 member
    exact .parse (.inl rfl)
  | ok template =>
    rw [read] at member
    rw [Template.refers_eq read]
    cases cause_of_mem_ofTemplate member with
    | parse holds => exact .parse (.inr holds)
    | missing name strict => exact .missing name strict
    | exceeded depth => exact .exceeded depth

end Expansion

/-! ## Strict passes -/

/-- A strict pass returns text, or it ends with a parse error of a template or with a render
    error. A call that fails is its last, and its failure is passed on if it is a render
    error, and is that of the function under the name of the call if it is not. -/
structure Strict (r : Renderer σ) (malformed : ParseError → Prop) (s : σ) (report : Report Event σ String) :
    Prop where
  replays : r.Replays s report
  endings (failure : Failure) (ended : report.outcome = .error failure) :
    (∃ e, failure = .parse e ∧ malformed e) ∨ failure.kind.isRender = true
  failed (before after : List (Exchange σ)) (x : Exchange σ) (failure : Failure)
    (made : r.exchanges s report.calls = before ++ x :: after) (failed : x.report.outcome = .error failure) :
    after = [] ∧ (failure.kind.isRender = true → report.outcome = .error failure) ∧
      (failure.kind.isRender = false → report.outcome = .error (.functionFailed x.call.1 failure))

theorem Failure.isRender_inCall (failure : Failure) (name : String) :
    (failure.inCall name).kind.isRender = true := by
  unfold inCall
  split
  · assumption
  · rfl

/-- The exchange that ends a pass is its last, and its failure is that of the pass. -/
theorem Course.ends {r : Renderer σ} {steps : List Step} {before after : List (Exchange σ)} {x : Exchange σ}
    {failure : Failure} {ending : Option Failure} (course : Course r steps (before ++ x :: after) ending)
    (fatal : r.fatal? x = some failure) : after = [] ∧ ending = some failure := by
  generalize made : before ++ x :: after = xs at course
  induction course generalizing before with
  | done => exact absurd made (by simp)
  | failed => exact absurd made (by simp)
  | @fatal _ y _ _ ends _ =>
    obtain ⟨rfl, rfl, rfl⟩ : before = [] ∧ x = y ∧ after = [] := by
      simpa [List.append_eq_cons_iff] using made
    exact ⟨rfl, ends.symm.trans fatal⟩
  | @next _ y _ xs _ _ goesOn _ ih =>
    obtain _ | ⟨first, before⟩ := before
    · obtain ⟨rfl, -⟩ := List.cons.inj made
      exact absurd (goesOn.symm.trans fatal) (by simp)
    · exact ih (List.cons.inj made).2

namespace Renderer

variable {r : Renderer σ} {malformed : ParseError → Prop} {steps : List Step} {s : σ}
  {report : Report Event σ String}

/-- A pass ends with a parse error or with a render error. -/
theorem ends_of_follows {policy : FailurePolicy} {failure : Failure} (follows : r.Follows steps s report)
    (causes : ∀ failure, .failure failure ∈ steps → Cause policy malformed failure)
    (ended : report.outcome = .error failure) :
    (∃ e, failure = .parse e ∧ malformed e) ∨ failure.kind.isRender = true := by
  have course := follows.course
  rw [Report.failure?, ended] at course
  obtain member | ⟨x, _, fatal⟩ := course.failure_cases
  · cases causes failure member with
    | parse holds => exact .inl ⟨_, rfl, holds⟩
    | missing name _ => exact .inr rfl
    | exceeded depth => exact .inr rfl
  · obtain ⟨cause, _, _, rfl⟩ := fatal?_eq_some.1 fatal
    exact .inr (cause.isRender_inCall _)

theorem strict_of_follows (follows : r.Follows steps s report) (loud : r.isSilent = false)
    (causes : ∀ failure, .failure failure ∈ steps → Cause .throw malformed failure) :
    Strict r malformed s report where
  replays := follows.replays
  endings failure ended := ends_of_follows follows causes ended
  failed before after x failure made failed := by
    have fatal : r.fatal? x = some (failure.inCall x.call.1) :=
      fatal?_eq_some.2 ⟨failure, failed, by simp [loud], rfl⟩
    obtain ⟨last, ended⟩ := (made ▸ follows.course).ends fatal
    rw [Report.failure?_eq_some] at ended
    refine ⟨last, fun render => ?_, fun other => ?_⟩
    · rw [ended, Failure.inCall, if_pos render]
    · rw [ended, Failure.inCall, if_neg (by simp [other])]

end Renderer

/-! ## Silent passes -/

/-- The reports differ at most in the warnings of the first. -/
structure Report.SameButWarnings (first second : Report Event σ α) : Prop where
  outcome : first.outcome = second.outcome
  state : first.state = second.state
  record : first.record.filter (fun event => event.warning?.isNone) = second.record

/-- The callback whose functions return nothing where they failed. Only a stack that is
    exceeded still is. -/
def Callback.forgiving (callback : Callback σ) : Callback σ where
  execute name arguments context := fun s =>
    match callback.execute name arguments context s with
    | ⟨.ok text, t, notes⟩ => ⟨.ok text, t, notes⟩
    | ⟨.error failure, t, notes⟩ =>
      ⟨if failure.kind = .stackExceeded then .error failure else .ok none, t, notes⟩
  transform := callback.transform

/-- The renderer whose functions return nothing where they failed. -/
def Renderer.forgiving (r : Renderer σ) : Renderer σ := { r with callback := r.callback.forgiving }

/-- A silent pass returns text, or it ends with a parse error of a template or because a
    stack is exceeded. It warns once of each other failure of a call, in the order of the
    calls, and is the same in all else as if the call had returned nothing. -/
structure Lenient (r : Renderer σ) (malformed : ParseError → Prop) (s : σ)
    (report forgiven : Report Event σ String) : Prop where
  replays : r.Replays s report
  endings (failure : Failure) (ended : report.outcome = .error failure) :
    (∃ e, failure = .parse e ∧ malformed e) ∨ failure.kind = .stackExceeded
  warnings : report.warnings = (r.exchanges s report.calls).filterMap Exchange.suppressed?
  emptyText : report.SameButWarnings forgiven

/-- Passes that differ at most in the warnings of the first. -/
def Pass.sameButWarnings (σ : Type) : Pass.Lockstep σ where
  Rel p q := ∀ s, (p s).SameButWarnings (q s)
  pure _ _ := ⟨rfl, rfl, rfl⟩
  fail _ _ := ⟨rfl, rfl, rfl⟩
  bind {_ _ p q f g} first later s := by
    obtain ⟨outcome, state, record⟩ := first s
    cases value : (q s).outcome with
    | error failure =>
      rw [Pass.bind_of_error (outcome.trans value), Pass.bind_of_error value]
      exact ⟨rfl, state, record⟩
    | ok a =>
      obtain ⟨outcomeLater, stateLater, recordLater⟩ := later a (q s).state
      rw [Pass.bind_of_ok (outcome.trans value), Pass.bind_of_ok value, state]
      refine ⟨outcomeLater, stateLater, ?_⟩
      rw [List.filter_append, record, recordLater]

namespace Renderer

variable {r : Renderer σ} {malformed : ParseError → Prop} {steps : List Step} {s : σ}
  {report forgiven : Report Event σ String}

/-- The failure of a call and no result at all differ in the warning alone. -/
theorem sameButWarnings_call (r : Renderer σ) (silent : r.isSilent) (name : String) (arguments : Arguments)
    (s : σ) :
    (r.call name arguments s).SameButWarnings (r.forgiving.call name arguments s) := by
  have silentOther : r.forgiving.isSilent := silent
  rw [call_apply, call_apply]
  have here : r.exchange s (name, arguments) =
      ⟨(name, arguments), r.callback.execute name arguments r.context s⟩ := rfl
  rcases run : r.callback.execute name arguments r.context s with ⟨failure | text, t, notes⟩
  · rw [run] at here
    have there : r.forgiving.exchange s (name, arguments) =
        ⟨(name, arguments), ⟨if failure.kind = .stackExceeded then .error failure else .ok none, t, notes⟩⟩ := by
      simp [exchange, forgiving, Callback.forgiving, run]
    rw [here, there]
    by_cases exceeded : failure.kind = .stackExceeded
    · refine ⟨?_, rfl, ?_⟩
      · simp [fatal?, exceeded]
      · simp [events, warning?, Exchange.suppressed?, exceeded, Event.warning?]
    · refine ⟨?_, rfl, ?_⟩
      · simp [fatal?, exceeded, silent, Exchange.text]
      · simp [events, warning?, Exchange.suppressed?, exceeded, silent, Event.warning?]
  · rw [run] at here
    have there : r.forgiving.exchange s (name, arguments) = ⟨(name, arguments), ⟨.ok text, t, notes⟩⟩ := by
      simp [exchange, forgiving, Callback.forgiving, run]
    rw [here, there]
    refine ⟨rfl, rfl, ?_⟩
    simp [events, warning?, Exchange.suppressed?, Event.warning?]

theorem inStep_forgiving (r : Renderer σ) (silent : r.isSilent) :
    r.InStep (Pass.sameButWarnings σ) r.forgiving where
  scope := rfl
  missing name := by
    have same : r.forgiving.missing name = r.missing name := rfl
    rw [same, missing, if_pos silent]
    exact (Pass.sameButWarnings σ).pure ""
  call := r.sameButWarnings_call silent

theorem warning_events (r : Renderer σ) (x : Exchange σ) :
    (r.events x).filterMap Event.warning? = (r.warning? x).toList := by
  have quiet : (x.report.record.map Event.noted).filterMap Event.warning? = [] := by
    simp [List.filterMap_eq_nil_iff, Event.warning?]
  unfold events
  cases r.warning? x <;> simp [List.filterMap_cons, quiet, Event.warning?]

theorem warnings_of_replays (replays : r.Replays s report) (silent : r.isSilent) :
    report.warnings = (r.exchanges s report.calls).filterMap Exchange.suppressed? := by
  have warns : r.warning? = Exchange.suppressed? := by
    funext x
    rw [warning?, if_pos silent]
  rw [Report.warnings, replays.record, List.filterMap_flatMap, ← warns, List.filterMap_eq_flatMap_toList]
  exact congrArg (List.flatMap · _) (funext r.warning_events)

theorem lenient_of_follows (follows : r.Follows steps s report) (silent : r.isSilent)
    (causes : ∀ failure, .failure failure ∈ steps → Cause .silent malformed failure)
    (same : report.SameButWarnings forgiven) : Lenient r malformed s report forgiven where
  replays := follows.replays
  endings failure ended := by
    have course := follows.course
    rw [Report.failure?, ended] at course
    obtain member | ⟨x, _, fatal⟩ := course.failure_cases
    · cases causes failure member with
      | parse holds => exact .inl ⟨_, rfl, holds⟩
      | missing name strict => exact absurd strict (by decide)
      | exceeded depth => exact .inr rfl
    · obtain ⟨cause, _, exceeded, rfl⟩ := fatal?_eq_some.1 fatal
      rw [inCall_of_stackExceeded (exceeded silent)]
      exact .inr (exceeded silent)
  warnings := warnings_of_replays follows.replays silent
  emptyText := same

/-- What passes of both policies end with, and what becomes of the failures of functions,
    for templates and for sources. -/
theorem disciplined (r : Renderer σ) (s : σ) :
    (∀ template,
      Strict (r.under .throw) (Scope.Malformed r.scope (· ∈ Template.references template)) s
          ((r.under .throw).render template s) ∧
        Lenient (r.under .silent) (Scope.Malformed r.scope (· ∈ Template.references template)) s
          ((r.under .silent).render template s) ((r.under .silent).forgiving.render template s)) ∧
      ∀ source,
        Strict (r.under .throw)
            (fun e => Template.parse source = .error e ∨ Scope.Malformed r.scope (Template.Refers source) e) s
            ((r.under .throw).renderSource source s) ∧
          Lenient (r.under .silent)
            (fun e => Template.parse source = .error e ∨ Scope.Malformed r.scope (Template.Refers source) e) s
            ((r.under .silent).renderSource source s) ((r.under .silent).forgiving.renderSource source s) := by
  have step := inStep_forgiving (r.under .silent) rfl
  constructor
  · intro template
    constructor
    · have follows := (r.under .throw).follows_render template s
      exact strict_of_follows follows rfl fun failure => Expansion.cause_of_mem_ofTemplate
    · have follows := (r.under .silent).follows_render template s
      exact lenient_of_follows follows rfl (fun failure => Expansion.cause_of_mem_ofTemplate)
        (step.render template s)
  · intro source
    constructor
    · have follows := (r.under .throw).follows_renderSource source s
      exact strict_of_follows follows rfl fun failure => Expansion.cause_of_mem_ofSource
    · have follows := (r.under .silent).follows_renderSource source s
      exact lenient_of_follows follows rfl (fun failure => Expansion.cause_of_mem_ofSource)
        (step.renderSource source s)

end Renderer

end RequestTemplate
