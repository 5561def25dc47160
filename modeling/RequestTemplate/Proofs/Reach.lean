import RequestTemplate.Proofs.Expansion

/-!
# The variables that a template reaches

A template refers to variables in its tags and in the arguments of its calls, and the
values of these refer to others. A pass looks at no other variable: scopes that agree on
what a template reaches render it alike (`report_withScope`).
-/

namespace RequestTemplate

variable {σ : Type}

/-! ## References -/

def Operand.reference? : Operand → Option String
  | .variable name => some name
  | _ => none

/-- The variables that stand as values of arguments. -/
def Argument.references (arguments : List Argument) : List String :=
  arguments.filterMap fun argument => argument.value.reference?

def Expression.references : Expression → List String
  | .variable name => [name]
  | .call _ arguments => Argument.references arguments

namespace Template

/-- The variables that a template names, in the order in which they are rendered. -/
def references : Template → List String
  | [] => []
  | .raw _ :: rest => references rest
  | .tag value _ :: rest => value.references ++ references rest

/-- A source refers to a variable. One that is malformed refers to none. -/
def Refers (source name : String) : Prop :=
  ∃ template, parse source = .ok template ∧ name ∈ references template

theorem refers_iff {source : String} {template : Template} (read : parse source = .ok template) (name : String) :
    Refers source name ↔ name ∈ references template := by
  constructor
  · rintro ⟨other, again, member⟩
    obtain rfl := Except.ok.inj (read.symm.trans again)
    exact member
  · exact fun member => ⟨template, read, member⟩

theorem refers_eq {source : String} {template : Template} (read : parse source = .ok template) :
    Refers source = (· ∈ references template) := funext fun name => propext (refers_iff read name)

end Template

namespace Scope

/-- The value of a variable refers to another. -/
def LeadsTo (scope : Dictionary String String) (name other : String) : Prop :=
  ∃ source, scope.lookup name = some source ∧ Template.Refers source other

/-- A variable is referred to, by what `root` says or by the value of a variable that is
    reached. -/
def Reaches (scope : Dictionary String String) (root : String → Prop) (name : String) : Prop :=
  ∃ first, root first ∧ Relation.ReflTransGen (LeadsTo scope) first name

/-- The scopes have the same values for all that is reached, or none in both. -/
def Agree (scope other : Dictionary String String) (root : String → Prop) : Prop :=
  ∀ name, Reaches scope root name → scope.lookup name = other.lookup name

variable {scope other : Dictionary String String} {root : String → Prop} {name : String}

theorem leadsTo_iff {source : String} {template : Template} (known : scope.lookup name = some source)
    (read : Template.parse source = .ok template) (next : String) :
    LeadsTo scope name next ↔ next ∈ Template.references template := by
  rw [← Template.refers_iff read]
  constructor
  · rintro ⟨other, again, refers⟩
    obtain rfl := Option.some.inj (known.symm.trans again)
    exact refers
  · exact fun refers => ⟨source, known, refers⟩

theorem reaches_of_root (holds : root name) : Reaches scope root name := ⟨name, holds, .refl⟩

theorem Reaches.step {next : String} (reached : Reaches scope root name) (leads : LeadsTo scope name next) :
    Reaches scope root next := by
  obtain ⟨first, holds, path⟩ := reached
  exact ⟨first, holds, path.tail leads⟩

theorem Reaches.induct {P : String → Prop} (base : ∀ name, root name → P name)
    (step : ∀ name next, P name → LeadsTo scope name next → P next) (reached : Reaches scope root name) :
    P name := by
  obtain ⟨first, holds, path⟩ := reached
  induction path with
  | refl => exact base first holds
  | tail _ leads ih => exact step _ _ ih leads

end Scope

/-! ## Expansions look at nothing else -/

namespace Expansion

variable {expand expandOther : String → Expansion}

theorem ofArguments_congr {args : List Argument}
    (agree : ∀ name ∈ Argument.references args, expand name = expandOther name) :
    Slots.ofArguments expand args = Slots.ofArguments expandOther args := by
  induction args with
  | nil => rfl
  | cons argument rest ih =>
    obtain ⟨name, content | value | _ | other⟩ := argument
    · rw [Slots.ofArguments, ih agree, Slots.ofArguments]
    · rw [Slots.ofArguments, ih agree, Slots.ofArguments]
    · rw [Slots.ofArguments, ih agree, Slots.ofArguments]
    · have later := ih fun name member => agree name (List.mem_cons_of_mem _ member)
      rw [Slots.ofArguments, later, agree other List.mem_cons_self, Slots.ofArguments]

theorem ofTemplate_congr {template : Template}
    (agree : ∀ name ∈ Template.references template, expand name = expandOther name) :
    ofTemplate expand template = ofTemplate expandOther template := by
  induction template with
  | nil => rfl
  | cons token rest ih =>
    obtain content | ⟨value, span⟩ := token
    · rw [ofTemplate, ih agree, ofTemplate]
    · have later := ih fun name member => agree name (List.mem_append_right _ member)
      have here : ∀ name ∈ value.references, expand name = expandOther name :=
        fun name member => agree name (List.mem_append_left _ member)
      obtain ⟨name⟩ | ⟨name, args⟩ := value
      · rw [ofTemplate, later, here name List.mem_cons_self, ofTemplate]
      · rw [ofTemplate, later, ofArguments_congr here, ofTemplate]

theorem ofName_congr {scope other : Dictionary String String} (policy : FailurePolicy) {root : String → Prop}
    (agree : Scope.Agree scope other root) (room : Nat) (name : String) (reached : Scope.Reaches scope root name) :
    ofName scope policy room name = ofName other policy room name := by
  have same := agree name reached
  induction room generalizing name with
  | zero =>
    cases known : scope.lookup name with
    | none => rw [ofName_missing known, ofName_missing (same ▸ known)]
    | some source => rw [ofName_zero known, ofName_zero (same ▸ known)]
  | succ room ih =>
    cases known : scope.lookup name with
    | none => rw [ofName_missing known, ofName_missing (same ▸ known)]
    | some source =>
      cases read : Template.parse source with
      | error e => rw [ofName_error known read, ofName_error (same ▸ known) read]
      | ok template =>
        rw [ofName_ok known read, ofName_ok (same ▸ known) read]
        refine ofTemplate_congr fun next member => ?_
        have onward := reached.step ((Scope.leadsTo_iff known read next).2 member)
        exact ih next onward (agree next onward)

/-! ## Failures come from variables -/

theorem failure_mem_steps_ofArguments {failure : Failure} {args : List Argument} :
    .failure failure ∈ (Slots.ofArguments expand args).steps ↔
      ∃ name ∈ Argument.references args, .failure failure ∈ (expand name).steps := by
  induction args with
  | nil => simp [Slots.ofArguments, Slots.steps, Argument.references]
  | cons argument rest ih =>
    obtain ⟨name, content | value | _ | other⟩ := argument
    · exact ih
    · exact ih
    · exact ih
    · rw [Slots.ofArguments, Slots.steps, List.mem_append, ih]
      show _ ↔ ∃ name ∈ other :: Argument.references rest, _
      rw [List.exists_mem_cons_iff]

theorem failure_mem_steps_ofTemplate {failure : Failure} {template : Template} :
    .failure failure ∈ (ofTemplate expand template).steps ↔
      ∃ name ∈ Template.references template, .failure failure ∈ (expand name).steps := by
  induction template with
  | nil => simp [ofTemplate, steps, Template.references]
  | cons token rest ih =>
    obtain content | ⟨⟨name⟩ | ⟨name, args⟩, span⟩ := token
    · exact ih
    · rw [ofTemplate, steps, List.mem_append, ih]
      show _ ↔ ∃ other ∈ name :: Template.references rest, _
      rw [List.exists_mem_cons_iff]
    · rw [ofTemplate, steps, List.mem_append, List.mem_cons, failure_mem_steps_ofArguments, ih]
      simp [Template.references, Expression.references, or_and_right, exists_or]

/-- A variable stands for an expansion that holds a failure: its own, or one of a variable
    that its value refers to. -/
inductive Fails (scope : Dictionary String String) (policy : FailurePolicy) : Nat → String → Failure → Prop
  | missing {room : Nat} {name : String} (unknown : scope.lookup name = none) (strict : policy = .throw) :
      Fails scope policy room name (.missingVariable name)
  | exceeded {name source : String} (known : scope.lookup name = some source) :
      Fails scope policy 0 name (.stackExceeded (Renderer.maxDepth + 1))
  | malformed {room : Nat} {name source : String} {e : ParseError} (known : scope.lookup name = some source)
      (refused : Template.parse source = .error e) : Fails scope policy (room + 1) name (.parse e)
  | inside {room : Nat} {name source next : String} {template : Template} {failure : Failure}
      (known : scope.lookup name = some source) (read : Template.parse source = .ok template)
      (refers : next ∈ Template.references template) (deeper : Fails scope policy room next failure) :
      Fails scope policy (room + 1) name failure

theorem failure_mem_steps_ofMissing {policy : FailurePolicy} {name : String} {failure : Failure} :
    .failure failure ∈ (ofMissing policy name).steps ↔ policy = .throw ∧ failure = .missingVariable name := by
  cases policy <;> simp [ofMissing, steps]

theorem fails_of_mem {scope : Dictionary String String} {policy : FailurePolicy} {room : Nat} {name : String}
    {failure : Failure} (member : .failure failure ∈ (ofName scope policy room name).steps) :
    Fails scope policy room name failure := by
  induction room generalizing name with
  | zero =>
    cases known : scope.lookup name with
    | none =>
      rw [ofName_missing known, failure_mem_steps_ofMissing] at member
      obtain ⟨strict, rfl⟩ := member
      exact .missing known strict
    | some source =>
      rw [ofName_zero known, steps] at member
      cases List.mem_singleton.1 member
      exact .exceeded known
  | succ room ih =>
    cases known : scope.lookup name with
    | none =>
      rw [ofName_missing known, failure_mem_steps_ofMissing] at member
      obtain ⟨strict, rfl⟩ := member
      exact .missing known strict
    | some source =>
      cases read : Template.parse source with
      | error e =>
        rw [ofName_error known read, steps] at member
        cases List.mem_singleton.1 member
        exact .malformed known read
      | ok template =>
        rw [ofName_ok known read, failure_mem_steps_ofTemplate] at member
        obtain ⟨next, refers, deeper⟩ := member
        exact .inside known read refers (ih deeper)

theorem mem_of_fails {scope : Dictionary String String} {policy : FailurePolicy} {room : Nat} {name : String}
    {failure : Failure} (fails : Fails scope policy room name failure) :
    .failure failure ∈ (ofName scope policy room name).steps := by
  induction fails with
  | missing unknown strict =>
    rw [ofName_missing unknown]
    exact failure_mem_steps_ofMissing.2 ⟨strict, rfl⟩
  | exceeded known =>
    rw [ofName_zero known]
    exact List.mem_cons_self
  | malformed known refused =>
    rw [ofName_error known refused]
    exact List.mem_cons_self
  | inside known read refers _ ih =>
    rw [ofName_ok known read]
    exact failure_mem_steps_ofTemplate.2 ⟨_, refers, ih⟩

/-- The failures in the expansion of a template are those of the variables it refers to. -/
theorem failure_mem_steps_iff {scope : Dictionary String String} {policy : FailurePolicy} {room : Nat}
    {template : Template} {failure : Failure} :
    .failure failure ∈ (ofTemplate (ofName scope policy room) template).steps ↔
      ∃ name ∈ Template.references template, Fails scope policy room name failure := by
  rw [failure_mem_steps_ofTemplate]
  exact exists_congr fun name => and_congr_right fun _ => ⟨fails_of_mem, mem_of_fails⟩

end Expansion

/-! ## Passes look at nothing else -/

namespace Renderer

/-- The renderer with other variables in scope. -/
def withScope (r : Renderer σ) (scope : Dictionary String String) : Renderer σ := { r with scope }

theorem render_withScope (r : Renderer σ) {other : Dictionary String String} {template : Template}
    (agree : Scope.Agree r.scope other (· ∈ Template.references template)) :
    (r.withScope other).render template = r.render template := by
  rw [render_eq_run, render_eq_run]
  have same : Expansion.ofTemplate (Expansion.ofName r.scope r.options.onFailure maxDepth) template =
      Expansion.ofTemplate (Expansion.ofName other r.options.onFailure maxDepth) template :=
    Expansion.ofTemplate_congr fun name member =>
      Expansion.ofName_congr _ agree _ name (Scope.reaches_of_root member)
  rw [same]
  rfl

theorem renderSource_withScope (r : Renderer σ) {other : Dictionary String String} {source : String}
    (agree : Scope.Agree r.scope other (Template.Refers source)) :
    (r.withScope other).renderSource source = r.renderSource source := by
  unfold renderSource
  cases read : Template.parse source with
  | error e => rfl
  | ok template => exact r.render_withScope (Template.refers_eq read ▸ agree)

/-- In every state, a pass leaves the same with other variables in scope, as long as all
    that the template reaches has the same value. A variable that it does not reach may
    be added, changed or removed. -/
theorem report_withScope (r : Renderer σ) (s : σ) :
    (∀ template other, Scope.Agree r.scope other (· ∈ Template.references template) →
        (r.withScope other).render template s = r.render template s) ∧
      (∀ source other, Scope.Agree r.scope other (Template.Refers source) →
        (r.withScope other).renderSource source s = r.renderSource source s) ∧
      ∀ source name, ¬ Scope.Reaches r.scope (Template.Refers source) name →
        (∀ value, (r.withScope (r.scope.insert name value)).renderSource source s = r.renderSource source s) ∧
          (r.withScope (r.scope.erase name)).renderSource source s = r.renderSource source s := by
  refine ⟨fun template other agree => ?_, fun source other agree => ?_, fun source name unreached => ?_⟩
  · rw [r.render_withScope agree]
  · rw [r.renderSource_withScope agree]
  · have unlike (next : String) (reached : Scope.Reaches r.scope (Template.Refers source) next) : next ≠ name :=
      fun same => unreached (same ▸ reached)
    constructor
    · intro value
      have agree : Scope.Agree r.scope (r.scope.insert name value) (Template.Refers source) := by
        intro next reached
        have other : (next == name) = false := by simpa using unlike next reached
        rw [Dictionary.lookup_insert, other]
        rfl
      rw [r.renderSource_withScope agree]
    · have agree : Scope.Agree r.scope (r.scope.erase name) (Template.Refers source) :=
        fun next reached => (Dictionary.lookup_erase_of_ne r.scope (unlike next reached)).symm
      rw [r.renderSource_withScope agree]

/-- A template reaches a variable, one that the value of this one names in a tag, and one
    in an argument that is not in scope. What else is in scope does not matter, were it
    malformed. -/
theorem report_withScope_malformed :
    let callback : Callback Nat :=
      { execute := fun _ _ _ n => ⟨.ok (some (toString n)), n + 1, []⟩, transform := fun _ _ text _ => return text }
    let r : Renderer Nat :=
      { scope := [("a", "$\x7b[ b ]\x7d$\x7b[ f(x: c) ]\x7d"), ("b", "1"), ("z", "old")], callback
        options := { onFailure := .silent } }
    let other : Dictionary String String :=
      [("z", "$\x7b["), ("b", "1"), ("a", "$\x7b[ b ]\x7d$\x7b[ f(x: c) ]\x7d")]
    let source := "$\x7b[ a ]\x7d"
    Scope.Agree r.scope other (Template.Refers source) ∧ ¬ Scope.Reaches r.scope (Template.Refers source) "z" ∧
      (r.withScope other).renderSource source 7 = r.renderSource source 7 ∧
      (r.withScope (r.scope.insert "z" "$\x7b[ a ]\x7d")).renderSource source 7 = r.renderSource source 7 := by
  intro callback r other source
  have root : Template.parse source = .ok [.tag (.variable "a") (some "$\x7b[ a ]\x7d")] := by cbv
  have value : Template.parse "$\x7b[ b ]\x7d$\x7b[ f(x: c) ]\x7d" =
      .ok [.tag (.variable "b") (some "$\x7b[ b ]\x7d"),
        .tag (.call "f" [⟨"x", .variable "c"⟩]) (some "$\x7b[ f(x: c) ]\x7d")] := by cbv
  have leaf : Template.parse "1" = .ok [.raw "1"] := by cbv
  have within : ∀ name, Scope.Reaches r.scope (Template.Refers source) name → name ∈ ["a", "b", "c"] := by
    intro name reached
    refine reached.induct (fun name refers => ?_) fun name next here leads => ?_
    · obtain rfl : name = "a" := List.mem_singleton.1 ((Template.refers_iff root name).1 refers)
      exact List.mem_cons_self
    · simp only [List.mem_cons, List.not_mem_nil, or_false] at here
      obtain rfl | rfl | rfl := here
      · have known : r.scope.lookup "a" = some "$\x7b[ b ]\x7d$\x7b[ f(x: c) ]\x7d" := rfl
        have named : next ∈ ["b", "c"] := (Scope.leadsTo_iff known value next).1 leads
        exact List.mem_cons_of_mem _ named
      · have known : r.scope.lookup "b" = some "1" := rfl
        have named : next ∈ [] := (Scope.leadsTo_iff known leaf next).1 leads
        exact absurd named List.not_mem_nil
      · have unknown : r.scope.lookup "c" = none := rfl
        obtain ⟨_, found, _⟩ := leads
        exact absurd (unknown.symm.trans found) (by simp)
  have agree : Scope.Agree r.scope other (Template.Refers source) := by
    intro name reached
    have named := within name reached
    simp only [List.mem_cons, List.not_mem_nil, or_false] at named
    obtain rfl | rfl | rfl := named <;> rfl
  have unreached : ¬ Scope.Reaches r.scope (Template.Refers source) "z" :=
    fun reached => absurd (within "z" reached) (by decide)
  obtain ⟨-, sources, others⟩ := report_withScope r 7
  exact ⟨agree, unreached, sources source other agree, (others source "z" unreached).1 _⟩

end Renderer

end RequestTemplate
