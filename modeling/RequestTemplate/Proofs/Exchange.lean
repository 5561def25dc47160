import RequestTemplate.Proofs.Policy

/-!
# What calls are answered

The functions that a pass calls keep their state between its calls, and nothing else
changes it. So the calls of a pass, made again one after the other from the state in
which it started, are answered as they were then (`Renderer.exchanges`). A pass that
`Replays` its calls records nothing but what these exchanges leave, and an exchange
either lets it go on or ends it.
-/

namespace RequestTemplate

variable {σ α β : Type}

/-- A call, with all that came of it. -/
structure Exchange (σ : Type) where
  call : String × Arguments
  report : Report Note σ (Option String)

/-- The text that stands for the call: none at all if it fails. -/
def Exchange.text (x : Exchange σ) : String :=
  match x.report.outcome with
  | .ok text => text.getD ""
  | .error _ => ""

/-- The failure that a silent pass renders as empty text, with the name of the function as
    it is called. -/
def Exchange.suppressed? (x : Exchange σ) : Option (String × Failure) :=
  match x.report.outcome with
  | .ok _ => none
  | .error failure =>
    if failure.kind = .stackExceeded then none else some (x.call.1, failure.inCall x.call.1)

/-- No function fails because a stack is exceeded. -/
def Callback.NeverExceeds (callback : Callback σ) : Prop :=
  ∀ name arguments context s failure, (callback.execute name arguments context s).outcome = .error failure →
    failure.kind ≠ .stackExceeded

namespace Renderer

/-! ## Exchanges of a pass -/

/-- One call, made in a state. -/
def exchange (r : Renderer σ) (s : σ) (call : String × Arguments) : Exchange σ :=
  ⟨call, r.callback.execute call.1 call.2 r.context s⟩

/-- Calls that are made one after the other, the first one in the state `s`. -/
def exchanges (r : Renderer σ) : σ → List (String × Arguments) → List (Exchange σ)
  | _, [] => []
  | s, call :: rest => r.exchange s call :: r.exchanges (r.exchange s call).report.state rest

/-- The state that the last of the calls leaves. -/
def stateAfter (r : Renderer σ) : σ → List (String × Arguments) → σ
  | s, [] => s
  | s, call :: rest => r.stateAfter (r.exchange s call).report.state rest

/-- The failure with which an exchange ends the pass. -/
def fatal? (r : Renderer σ) (x : Exchange σ) : Option Failure :=
  match x.report.outcome with
  | .ok _ => none
  | .error failure =>
    if r.isSilent && failure.kind != .stackExceeded then none else some (failure.inCall x.call.1)

/-- What a pass warns of because of an exchange. -/
def warning? (r : Renderer σ) (x : Exchange σ) : Option (String × Failure) :=
  if r.isSilent then x.suppressed? else none

/-- What a pass records of an exchange. -/
def events (r : Renderer σ) (x : Exchange σ) : List Event :=
  .called x.call.1 x.call.2 :: x.report.record.map .noted ++
    (r.warning? x).toList.map fun warning => .suppressed warning.1 warning.2

/-- A stack that is exceeded inside a function ends the pass as it is. -/
theorem inCall_of_stackExceeded {failure : Failure} (exceeded : failure.kind = .stackExceeded) (name : String) :
    failure.inCall name = failure := by
  rw [Failure.inCall, exceeded]
  rfl

/-- All that a call comes to. -/
theorem call_apply (r : Renderer σ) (name : String) (arguments : Arguments) (s : σ) :
    let x := r.exchange s (name, arguments)
    r.call name arguments s =
      ⟨match r.fatal? x with
        | some failure => .error failure
        | none => .ok x.text, x.report.state, r.events x⟩ := by
  intro x
  have called : x = ⟨(name, arguments), r.callback.execute name arguments r.context s⟩ := rfl
  clear_value x
  unfold call
  rcases run : r.callback.execute name arguments r.context s with ⟨failure | text, t, notes⟩
  · rw [run] at called
    subst called
    simp only [Pass.bind_apply, Pass.emit, Pass.attempt, Pass.noting, run]
    by_cases exceeded : failure.kind = .stackExceeded
    · simp [fatal?, warning?, events, Exchange.suppressed?, exceeded, inCall_of_stackExceeded exceeded, Pass.fail]
    · by_cases silent : r.isSilent
      · simp [fatal?, warning?, events, Exchange.suppressed?, exceeded, silent, Exchange.text,
          Pass.bind_apply, Pass.emit, Pass.pure_apply]
      · simp [fatal?, warning?, events, exceeded, silent, Pass.fail]
  · rw [run] at called
    subst called
    simp only [Pass.bind_apply, Pass.emit, Pass.attempt, Pass.noting, run]
    simp [fatal?, warning?, events, Exchange.suppressed?, Exchange.text, Pass.pure_apply]

/-- A call is recorded as itself, whatever comes of it. -/
theorem calls_call (r : Renderer σ) (name : String) (arguments : Arguments) (s : σ) :
    (r.call name arguments s).calls = [(name, arguments)] := by
  rw [call_apply, Report.calls, events]
  simp [Event.call?, List.filterMap_eq_nil_iff, exchange]

/-- All that a pass from `s` leaves comes of its exchanges. -/
structure Replays (r : Renderer σ) (s : σ) (report : Report Event σ α) : Prop where
  state : report.state = r.stateAfter s report.calls
  record : report.record = (r.exchanges s report.calls).flatMap r.events

/-! ## Many calls -/

theorem exchanges_append (r : Renderer σ) (s : σ) (calls others : List (String × Arguments)) :
    r.exchanges s (calls ++ others) = r.exchanges s calls ++ r.exchanges (r.stateAfter s calls) others := by
  induction calls generalizing s with
  | nil => rfl
  | cons call rest ih => rw [List.cons_append, exchanges, ih, exchanges, stateAfter, List.cons_append]

theorem stateAfter_append (r : Renderer σ) (s : σ) (calls others : List (String × Arguments)) :
    r.stateAfter s (calls ++ others) = r.stateAfter (r.stateAfter s calls) others := by
  induction calls generalizing s with
  | nil => rfl
  | cons call rest ih => rw [List.cons_append, stateAfter, ih, stateAfter]

theorem call_exchanges (r : Renderer σ) (s : σ) (calls : List (String × Arguments)) :
    (r.exchanges s calls).map Exchange.call = calls := by
  induction calls generalizing s with
  | nil => rfl
  | cons call rest ih =>
    rw [exchanges, List.map_cons, ih]
    rfl

/-- Every exchange is a call that is made in some state. -/
theorem exists_of_mem_exchanges {r : Renderer σ} {s : σ} {calls : List (String × Arguments)} {x : Exchange σ}
    (made : x ∈ r.exchanges s calls) : ∃ t, x = r.exchange t x.call := by
  induction calls generalizing s with
  | nil => exact absurd made (by simp [exchanges])
  | cons call rest ih =>
    rw [exchanges, List.mem_cons] at made
    obtain rfl | later := made
    · exact ⟨s, rfl⟩
    · exact ih later

/-! ## What ends a pass -/

theorem fatal?_eq_some {r : Renderer σ} {x : Exchange σ} {failure : Failure} :
    r.fatal? x = some failure ↔
      ∃ cause, x.report.outcome = .error cause ∧ (r.isSilent → cause.kind = .stackExceeded) ∧
        cause.inCall x.call.1 = failure := by
  unfold fatal?
  cases x.report.outcome with
  | ok text => simp
  | error cause => cases r.isSilent <;> simp

theorem kind_inCall {failure : Failure} (spared : failure.kind ≠ .stackExceeded) (name : String) :
    (failure.inCall name).kind ≠ .stackExceeded := by
  unfold Failure.inCall
  split
  · exact spared
  · simp [Failure.kind]

variable {r : Renderer σ} {s : σ} {calls : List (String × Arguments)} {x : Exchange σ}

/-- The failure of a function is no exceeded stack. -/
theorem kind_of_neverExceeds (spares : r.callback.NeverExceeds) (made : x ∈ r.exchanges s calls)
    {failure : Failure} (failed : x.report.outcome = .error failure) : failure.kind ≠ .stackExceeded := by
  obtain ⟨t, called⟩ := exists_of_mem_exchanges made
  rw [called] at failed
  exact spares _ _ _ _ _ failed

theorem kind_of_fatal (spares : r.callback.NeverExceeds) (made : x ∈ r.exchanges s calls) {failure : Failure}
    (ends : r.fatal? x = some failure) : failure.kind ≠ .stackExceeded := by
  obtain ⟨cause, failed, _, rfl⟩ := fatal?_eq_some.1 ends
  exact kind_inCall (kind_of_neverExceeds spares made failed) _

/-- A silent pass goes on whatever a function fails with. -/
theorem fatal?_of_silent (silent : r.isSilent) (spares : r.callback.NeverExceeds)
    (made : x ∈ r.exchanges s calls) :
    r.fatal? x = none := by
  refine Option.eq_none_iff_forall_ne_some.2 fun failure ends => ?_
  obtain ⟨cause, failed, exceeded, _⟩ := fatal?_eq_some.1 ends
  exact kind_of_neverExceeds spares made failed (exceeded silent)

end Renderer

end RequestTemplate
