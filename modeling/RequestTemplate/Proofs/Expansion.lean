import RequestTemplate.Proofs.Exchange

/-!
# Expansions

Rendering comes in two halves that know nothing of each other. The first replaces
variables by the templates that are their values, down to texts and calls; it sees the
variables in scope and calls nothing (`Expansion.ofSource`). The second makes the calls
and puts their texts in their places; it sees no variable and reads no template
(`Expansion.run`). `renderSource_eq_run` says that the one after the other is rendering,
and `follows_run` that a pass takes the steps of its expansion one after the other.
-/

namespace RequestTemplate

variable {σ α β : Type}

mutual

/-- What is left to do for a template, in order, up to a failure that ends the pass. -/
inductive Expansion where
  | done
  | failed (failure : Failure)
  | text (content : String) (rest : Expansion)
  /-- The value of a variable stands in the place of the variable. -/
  | value (inner rest : Expansion)
  | call (name : String) (slots : Slots) (rest : Expansion)

/-- The arguments of a call. -/
inductive Slots where
  | done
  | literal (name : String) (value : ArgumentValue) (rest : Slots)
  | expanded (name : String) (inner : Expansion) (rest : Slots)

end

/-! ## Expanding -/

/-- The arguments of a call, given what variables stand for. -/
def Slots.ofArguments (expand : String → Expansion) : List Argument → Slots
  | [] => .done
  | ⟨name, .text content⟩ :: rest => .literal name (.text content) (ofArguments expand rest)
  | ⟨name, .bool value⟩ :: rest => .literal name (.bool value) (ofArguments expand rest)
  | ⟨name, .null⟩ :: rest => .literal name .null (ofArguments expand rest)
  | ⟨name, .variable other⟩ :: rest => .expanded name (expand other) (ofArguments expand rest)

namespace Expansion

/-- The expansion of a template, given what variables stand for. -/
def ofTemplate (expand : String → Expansion) : Template → Expansion
  | [] => .done
  | .raw content :: rest => .text content (ofTemplate expand rest)
  | .tag (.variable name) _ :: rest => .value (expand name) (ofTemplate expand rest)
  | .tag (.call name arguments) _ :: rest =>
    .call name (Slots.ofArguments expand arguments) (ofTemplate expand rest)

/-- What stands for a variable that is not in scope. -/
def ofMissing (policy : FailurePolicy) (name : String) : Expansion :=
  if policy = .silent then .done else .failed (.missingVariable name)

/-- What a variable stands for, with `room` levels left for its value. -/
def ofName (scope : Dictionary String String) (policy : FailurePolicy) :
    (room : Nat) → (name : String) → Expansion
  | room, name =>
    match scope.lookup name with
    | none => ofMissing policy name
    | some source =>
      match room with
      | 0 => .failed (.stackExceeded (Renderer.maxDepth + 1))
      | room + 1 =>
        match Template.parse source with
        | .error e => .failed (.parse e)
        | .ok template => ofTemplate (ofName scope policy room) template

/-- The expansion of a template's source. -/
def ofSource (scope : Dictionary String String) (policy : FailurePolicy) (source : String) : Expansion :=
  match Template.parse source with
  | .error e => .failed (.parse e)
  | .ok template => ofTemplate (ofName scope policy Renderer.maxDepth) template

section

variable {scope : Dictionary String String} {policy : FailurePolicy} {name source : String}

theorem ofName_missing (unknown : scope.lookup name = none) (room : Nat) :
    ofName scope policy room name = ofMissing policy name := by
  rw [ofName, unknown]

theorem ofName_zero (known : scope.lookup name = some source) :
    ofName scope policy 0 name = .failed (.stackExceeded (Renderer.maxDepth + 1)) := by
  rw [ofName, known]

theorem ofName_error {e : ParseError} (known : scope.lookup name = some source)
    (refused : Template.parse source = .error e) (room : Nat) :
    ofName scope policy (room + 1) name = .failed (.parse e) := by
  simp only [ofName, known, refused]

theorem ofName_ok {template : Template} (known : scope.lookup name = some source)
    (read : Template.parse source = .ok template) (room : Nat) :
    ofName scope policy (room + 1) name = ofTemplate (ofName scope policy room) template := by
  simp only [ofName, known, read]

end

end Expansion

/-! ## Carrying out an expansion -/

mutual

/-- Makes the calls from left to right and puts their texts between the others. -/
def Expansion.run (call : String → Arguments → Pass Event σ String) : Expansion → Pass Event σ String
  | .done => return ""
  | .failed failure => Pass.fail failure
  | .text content rest => return content ++ (← rest.run call)
  | .value inner rest => do
    let first ← inner.run call
    let others ← rest.run call
    return first ++ others
  | .call name slots rest => do
    let values ← slots.run call
    let first ← call name (Dictionary.ofList values)
    let others ← rest.run call
    return first ++ others

def Slots.run (call : String → Arguments → Pass Event σ String) :
    Slots → Pass Event σ (List (String × ArgumentValue))
  | .done => return []
  | .literal name value rest => return (name, value) :: (← rest.run call)
  | .expanded name inner rest => do
    let content ← inner.run call
    let others ← rest.run call
    return (name, .text content) :: others

end

namespace Renderer

section

variable {r : Renderer σ} {expand : String → Pass Event σ String} {expansion : String → Expansion}

theorem arguments_eq_run (expands : ∀ name, expand name = (expansion name).run r.call) (args : List Argument) :
    Renderer.arguments expand args = (Slots.ofArguments expansion args).run r.call := by
  induction args with
  | nil => rfl
  | cons argument rest ih =>
    obtain ⟨name, content | value | _ | other⟩ := argument <;>
      simp [Renderer.arguments, Renderer.operand, Slots.ofArguments, Slots.run, ih, expands]

theorem tokens_eq_run (expands : ∀ name, expand name = (expansion name).run r.call) (template : Template) :
    r.tokens expand template = (Expansion.ofTemplate expansion template).run r.call := by
  induction template with
  | nil => rfl
  | cons token rest ih =>
    obtain content | ⟨⟨name⟩ | ⟨name, args⟩, span⟩ := token
    · rw [tokens, ih, Expansion.ofTemplate, Expansion.run]
    · rw [tokens, ih, Expansion.ofTemplate, Expansion.run, expression, expands]
    · rw [tokens, ih, Expansion.ofTemplate, Expansion.run, expression, arguments_eq_run expands, bind_assoc]

end

theorem missing_eq_run (r : Renderer σ) (name : String) :
    r.missing name = (Expansion.ofMissing r.options.onFailure name).run r.call := by
  unfold missing isSilent Expansion.ofMissing
  cases r.options.onFailure <;> rfl

theorem expand_eq_run (r : Renderer σ) (room : Nat) (name : String) :
    r.expand room name = (Expansion.ofName r.scope r.options.onFailure room name).run r.call := by
  induction room generalizing name with
  | zero =>
    cases known : r.scope.lookup name with
    | none => rw [expand_missing known, Expansion.ofName_missing known, missing_eq_run]
    | some source => rw [expand_zero known, Expansion.ofName_zero known, Expansion.run]
  | succ room ih =>
    cases known : r.scope.lookup name with
    | none => rw [expand_missing known, Expansion.ofName_missing known, missing_eq_run]
    | some source =>
      cases read : Template.parse source with
      | error e => rw [expand_error known read, Expansion.ofName_error known read, Expansion.run]
      | ok template =>
        rw [expand_ok known read, Expansion.ofName_ok known read]
        exact tokens_eq_run ih template

/-- Rendering is expanding, and then carrying out the expansion. -/
theorem render_eq_run (r : Renderer σ) (template : Template) :
    r.render template =
      (Expansion.ofTemplate (Expansion.ofName r.scope r.options.onFailure maxDepth) template).run r.call :=
  tokens_eq_run (r.expand_eq_run maxDepth) template

theorem renderSource_eq_run (r : Renderer σ) (source : String) :
    r.renderSource source = (Expansion.ofSource r.scope r.options.onFailure source).run r.call := by
  unfold renderSource Expansion.ofSource
  cases Template.parse source with
  | error e => rfl
  | ok template => exact r.render_eq_run template

end Renderer

/-! ## Steps -/

/-- A call as it is written. An argument that is no literal has no value yet. -/
structure CallSite where
  name : String
  slots : List (String × Option ArgumentValue)
  deriving DecidableEq

/-- What a pass comes to on its way: a call, or a failure that ends it. -/
inductive Step where
  | call (site : CallSite)
  | failure (failure : Failure)

/-- The arguments of a call, as they are written. -/
def Slots.written : Slots → List (String × Option ArgumentValue)
  | .done => []
  | .literal name value rest => (name, some value) :: rest.written
  | .expanded name _ rest => (name, none) :: rest.written

mutual

/-- The steps from left to right, those in the arguments of a call before the call. -/
def Expansion.steps : Expansion → List Step
  | .done => []
  | .failed failure => [.failure failure]
  | .text _ rest => rest.steps
  | .value inner rest => inner.steps ++ rest.steps
  | .call name slots rest => slots.steps ++ .call ⟨name, slots.written⟩ :: rest.steps

def Slots.steps : Slots → List Step
  | .done => []
  | .literal _ _ rest => rest.steps
  | .expanded _ inner rest => inner.steps ++ rest.steps

end

/-- An argument is passed as it is written, and what is not a literal is passed as text. -/
def FitsSlot (slot : String × Option ArgumentValue) (argument : String × ArgumentValue) : Prop :=
  argument.1 = slot.1 ∧
    match slot.2 with
    | some value => argument.2 = value
    | none => ∃ content, argument.2 = .text content

/-- A call is made as it is written. -/
def CallSite.Fits (site : CallSite) (call : String × Arguments) : Prop :=
  call.1 = site.name ∧
    ∃ values, List.Forall₂ FitsSlot site.slots values ∧ call.2 = Dictionary.ofList values

/-- A pass that comes to these steps has these exchanges, and then ends with a failure or
    goes on. -/
inductive Course (r : Renderer σ) : List Step → List (Exchange σ) → Option Failure → Prop
  | done : Course r [] [] none
  | failed (failure : Failure) (rest : List Step) : Course r (.failure failure :: rest) [] (some failure)
  | fatal {site : CallSite} {x : Exchange σ} {failure : Failure} (fits : site.Fits x.call)
      (ends : r.fatal? x = some failure) (rest : List Step) : Course r (.call site :: rest) [x] (some failure)
  | next {site : CallSite} {x : Exchange σ} {steps : List Step} {xs : List (Exchange σ)} {ending : Option Failure}
      (fits : site.Fits x.call) (goesOn : r.fatal? x = none) (later : Course r steps xs ending) :
      Course r (.call site :: steps) (x :: xs) ending

namespace Course

variable {r : Renderer σ} {steps others : List Step} {xs ys : List (Exchange σ)} {ending : Option Failure}

theorem append (first : Course r steps xs none) (later : Course r others ys ending) :
    Course r (steps ++ others) (xs ++ ys) ending := by
  generalize open_ : (none : Option Failure) = going at first
  induction first with
  | done => exact later
  | failed => cases open_
  | fatal => cases open_
  | next fits goesOn _ ih => exact .next fits goesOn (ih open_)

theorem append_of_failure {failure : Failure} (first : Course r steps xs (some failure)) (others : List Step) :
    Course r (steps ++ others) xs (some failure) := by
  generalize closed : some failure = ending at first
  induction first with
  | done => cases closed
  | failed _ rest => exact .failed _ (rest ++ others)
  | fatal fits ends rest => exact .fatal fits ends (rest ++ others)
  | next fits goesOn _ ih => exact .next fits goesOn (ih closed)

/-- A course that goes on has come to no failure. -/
theorem failure_notMem (course : Course r steps xs none) (failure : Failure) : .failure failure ∉ steps := by
  generalize open_ : (none : Option Failure) = going at course
  induction course with
  | done => exact List.not_mem_nil
  | failed => cases open_
  | fatal => cases open_
  | next _ _ _ ih => simpa using ih open_

/-- A course ends with a failure that it comes to, or with that of a call. -/
theorem failure_cases {failure : Failure} (course : Course r steps xs (some failure)) :
    .failure failure ∈ steps ∨ ∃ x ∈ xs, r.fatal? x = some failure := by
  generalize closed : some failure = ending at course
  induction course with
  | done => cases closed
  | failed _ rest =>
    obtain rfl := Option.some.inj closed
    exact .inl List.mem_cons_self
  | fatal _ ends _ =>
    obtain rfl := Option.some.inj closed
    exact .inr ⟨_, List.mem_cons_self, ends⟩
  | next _ _ _ ih =>
    obtain member | ⟨x, made, ends⟩ := ih closed
    · exact .inl (List.mem_cons_of_mem _ member)
    · exact .inr ⟨x, List.mem_cons_of_mem _ made, ends⟩

end Course

/-! ## A pass takes the steps of its expansion -/

/-- The failure with which a pass ends. -/
def Report.failure? (report : Report Event σ α) : Option Failure :=
  match report.outcome with
  | .ok _ => none
  | .error failure => some failure

theorem Report.failure?_eq_some {report : Report Event σ α} {failure : Failure} :
    report.failure? = some failure ↔ report.outcome = .error failure := by
  unfold failure?
  cases report.outcome <;> simp

namespace Renderer

/-- The pass from `s` takes the steps. -/
structure Follows (r : Renderer σ) (steps : List Step) (s : σ) (report : Report Event σ α) : Prop where
  replays : r.Replays s report
  course : Course r steps (r.exchanges s report.calls) report.failure?

variable {r : Renderer σ} {steps others : List Step}

theorem follows_pure (a : α) (s : σ) : r.Follows [] s ((pure a : Pass Event σ α) s) := ⟨⟨rfl, rfl⟩, .done⟩

theorem follows_fail (failure : Failure) (s : σ) :
    r.Follows [.failure failure] s ((Pass.fail failure : Pass Event σ α) s) := ⟨⟨rfl, rfl⟩, .failed failure []⟩

theorem follows_bind {p : Pass Event σ α} {f : α → Pass Event σ β} {s : σ}
    (first : r.Follows steps s (p s))
    (later : ∀ a, (p s).outcome = .ok a → r.Follows others (p s).state (f a (p s).state)) :
    r.Follows (steps ++ others) s ((p >>= f) s) := by
  obtain ⟨⟨state, record⟩, course⟩ := first
  rw [Report.failure?] at course
  cases outcome : (p s).outcome with
  | error failure =>
    rw [outcome] at course
    rw [Pass.bind_of_error outcome]
    exact ⟨⟨state, record⟩, course.append_of_failure others⟩
  | ok a =>
    rw [outcome] at course
    obtain ⟨⟨stateLater, recordLater⟩, courseLater⟩ := later a outcome
    rw [Pass.bind_of_ok outcome]
    -- the later exchanges begin where the first ones end
    have calls : (Report.mk (f a (p s).state).outcome (f a (p s).state).state
        ((p s).record ++ (f a (p s).state).record)).calls = (p s).calls ++ (f a (p s).state).calls :=
      List.filterMap_append
    have exchanges := r.exchanges_append s (p s).calls (f a (p s).state).calls
    rw [← state] at exchanges
    refine ⟨⟨?_, ?_⟩, ?_⟩
    · rw [calls, stateAfter_append, ← state]
      exact stateLater
    · rw [calls, exchanges, List.flatMap_append, ← record, ← recordLater]
    · rw [calls, exchanges]
      exact course.append courseLater

theorem follows_call {site : CallSite} {name : String} {arguments : Arguments} {s : σ}
    (fits : site.Fits (name, arguments)) : r.Follows [.call site] s (r.call name arguments s) := by
  have calls := r.calls_call name arguments s
  refine ⟨⟨?_, ?_⟩, ?_⟩
  · rw [calls, call_apply]
    rfl
  · rw [calls, call_apply]
    simp [exchanges]
  · rw [calls, exchanges, exchanges, call_apply, Report.failure?]
    cases fatal : r.fatal? (r.exchange s (name, arguments)) with
    | none => exact .next fits fatal .done
    | some failure => exact .fatal fits fatal []

end Renderer

theorem Slots.fits_run (call : String → Arguments → Pass Event σ String) :
    ∀ (slots : Slots) (s : σ) (values : List (String × ArgumentValue)),
      (slots.run call s).outcome = .ok values → List.Forall₂ FitsSlot slots.written values
  | .done, s, values, passed => by
    obtain rfl : [] = values := Except.ok.inj passed
    exact .nil
  | .literal name value rest, s, values, passed => by
    obtain ⟨others, filled, last⟩ := Pass.outcome_bind_eq_ok.1 passed
    obtain rfl : (name, value) :: others = values := Except.ok.inj last
    exact .cons ⟨rfl, rfl⟩ (fits_run call rest s others filled)
  | .expanded name inner rest, s, values, passed => by
    obtain ⟨content, _, onward⟩ := Pass.outcome_bind_eq_ok.1 passed
    obtain ⟨others, filled, last⟩ := Pass.outcome_bind_eq_ok.1 onward
    obtain rfl : (name, .text content) :: others = values := Except.ok.inj last
    exact .cons ⟨rfl, content, rfl⟩ (fits_run call rest _ others filled)

mutual

theorem Expansion.follows_run (r : Renderer σ) :
    ∀ (e : Expansion) (s : σ), r.Follows e.steps s (e.run r.call s)
  | .done, s => Renderer.follows_pure "" s
  | .failed failure, s => Renderer.follows_fail failure s
  | .text content rest, s => by
    rw [Expansion.steps, Expansion.run, ← List.append_nil rest.steps]
    exact Renderer.follows_bind (rest.follows_run r s) fun others _ => Renderer.follows_pure _ _
  | .value inner rest, s => by
    rw [Expansion.steps, Expansion.run, ← List.append_nil rest.steps]
    refine Renderer.follows_bind (inner.follows_run r s) fun first _ => ?_
    exact Renderer.follows_bind (rest.follows_run r _) fun others _ => Renderer.follows_pure _ _
  | .call name slots rest, s => by
    rw [Expansion.steps, Expansion.run, ← List.append_nil rest.steps, ← List.singleton_append]
    refine Renderer.follows_bind (slots.follows_run r s) fun values passed => ?_
    have fits : CallSite.Fits ⟨name, slots.written⟩ (name, Dictionary.ofList values) :=
      ⟨rfl, values, slots.fits_run r.call s values passed, rfl⟩
    refine Renderer.follows_bind (Renderer.follows_call fits) fun first _ => ?_
    exact Renderer.follows_bind (rest.follows_run r _) fun others _ => Renderer.follows_pure _ _

theorem Slots.follows_run (r : Renderer σ) :
    ∀ (slots : Slots) (s : σ), r.Follows slots.steps s (slots.run r.call s)
  | .done, s => Renderer.follows_pure [] s
  | .literal name value rest, s => by
    rw [Slots.steps, Slots.run, ← List.append_nil rest.steps]
    exact Renderer.follows_bind (rest.follows_run r s) fun others _ => Renderer.follows_pure _ _
  | .expanded name inner rest, s => by
    rw [Slots.steps, Slots.run, ← List.append_nil rest.steps]
    refine Renderer.follows_bind (inner.follows_run r s) fun first _ => ?_
    exact Renderer.follows_bind (rest.follows_run r _) fun others _ => Renderer.follows_pure _ _

end

namespace Renderer

/-- A pass over a template takes the steps of its expansion. -/
theorem follows_render (r : Renderer σ) (template : Template) (s : σ) :
    r.Follows (Expansion.ofTemplate (Expansion.ofName r.scope r.options.onFailure maxDepth) template).steps s
      (r.render template s) := by
  rw [render_eq_run]
  exact Expansion.follows_run r _ s

theorem follows_renderSource (r : Renderer σ) (source : String) (s : σ) :
    r.Follows (Expansion.ofSource r.scope r.options.onFailure source).steps s (r.renderSource source s) := by
  rw [renderSource_eq_run]
  exact Expansion.follows_run r _ s

end Renderer

end RequestTemplate
