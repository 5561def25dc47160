import RequestTemplate.Proofs.Reach

/-!
# How deep values nest

A value that holds variables is rendered in the place of a variable, at most `maxDepth`
values inside each other. The cap is exact: a pass exceeds it only if a chain of one
more variable hangs on the template, each in the value of the one before, and a pass
over such a template returns no text. A circle of variables is a chain of every length
(`Renderer.capped`).
-/

namespace RequestTemplate

variable {σ : Type}

namespace Scope

/-- Variables that are in scope, the first one referred to as `root` says, each other one
    by the value of the one before. -/
structure Chain (scope : Dictionary String String) (root : String → Prop) (names : List String) : Prop where
  first : ∀ name ∈ names.head?, root name
  defined : ∀ name ∈ names, ∃ source, scope.lookup name = some source
  linked : names.IsChain (LeadsTo scope)

variable {scope : Dictionary String String} {root other : String → Prop} {name : String} {names : List String}

theorem chain_nil : Chain scope root [] := ⟨by simp, by simp, .nil⟩

theorem chain_cons :
    Chain scope root (name :: names) ↔
      root name ∧ (∃ source, scope.lookup name = some source) ∧ Chain scope (LeadsTo scope name) names := by
  constructor
  · rintro ⟨first, defined, linked⟩
    obtain ⟨onward, later⟩ := List.isChain_cons.1 linked
    refine ⟨first name rfl, defined name List.mem_cons_self, onward, ?_, later⟩
    exact fun next member => defined next (List.mem_cons_of_mem _ member)
  · rintro ⟨holds, known, onward, defined, linked⟩
    refine ⟨fun head same => ?_, ?_, List.isChain_cons.2 ⟨onward, linked⟩⟩
    · obtain rfl := Option.some.inj same
      exact holds
    · intro next member
      obtain rfl | later := List.mem_cons.1 member
      · exact known
      · exact defined next later

theorem Chain.mono (chain : Chain scope root names) (sub : ∀ name, root name → other name) :
    Chain scope other names :=
  ⟨fun name head => sub name (chain.first name head), chain.defined, chain.linked⟩

/-- Where every variable leads on to another one, chains are as long as one likes. -/
theorem exists_chain {P : String → Prop}
    (endless : ∀ name, P name → ∃ next, LeadsTo scope name next ∧ P next)
    (length : Nat) (holds : P name) : ∃ names, names.length = length ∧ Chain scope (· = name) names := by
  induction length generalizing name with
  | zero => exact ⟨[], rfl, chain_nil⟩
  | succ length ih =>
    obtain ⟨next, leads, onward⟩ := endless name holds
    obtain ⟨names, long, chain⟩ := ih onward
    obtain ⟨source, known, refers⟩ := leads
    refine ⟨name :: names, congrArg (· + 1) long, chain_cons.2 ⟨rfl, ⟨source, known⟩, ?_⟩⟩
    exact chain.mono fun other same => same ▸ ⟨source, known, refers⟩

/-- A circle that is reached gives chains of every length. -/
theorem exists_chain_of_cycle (reached : Reaches scope root name)
    (turns : Relation.TransGen (LeadsTo scope) name name) (length : Nat) :
    ∃ names, names.length = length ∧ Chain scope root names := by
  obtain ⟨first, holds, path⟩ := reached
  -- from every variable on the way to the circle, and on it, the way goes on
  have endless (here : String) (path : Relation.ReflTransGen (LeadsTo scope) here name) :
      ∃ next, LeadsTo scope here next ∧ Relation.ReflTransGen (LeadsTo scope) next name := by
    obtain rfl | ⟨next, leads, onward⟩ := Relation.ReflTransGen.cases_head path
    · exact Relation.TransGen.head'_iff.1 turns
    · exact ⟨next, leads, onward⟩
  obtain ⟨names, long, chain⟩ := exists_chain endless length path
  exact ⟨names, long, chain.mono fun other same => same ▸ holds⟩

end Scope

/-! ## Chains and expansions -/

namespace Expansion

variable {scope : Dictionary String String} {policy : FailurePolicy} {name : String}

/-- An expansion that exceeds the stack has gone down a chain. -/
theorem exists_chain_of_fails {room : Nat} {failure : Failure} (kind : failure.kind = .stackExceeded)
    (fails : Fails scope policy room name failure) :
    failure = .stackExceeded (Renderer.maxDepth + 1) ∧
      ∃ names, names.length = room + 1 ∧ Scope.Chain scope (· = name) names := by
  induction fails with
  | missing => exact absurd kind (by simp [Failure.kind])
  | malformed => exact absurd kind (by simp [Failure.kind])
  | @exceeded name source known =>
    exact ⟨rfl, [name], rfl, Scope.chain_cons.2 ⟨rfl, ⟨source, known⟩, Scope.chain_nil⟩⟩
  | @inside _ name source next template _ known read refers _ ih =>
    obtain ⟨depth, names, long, chain⟩ := ih kind
    refine ⟨depth, name :: names, congrArg (· + 1) long, ?_⟩
    refine Scope.chain_cons.2 ⟨rfl, ⟨source, known⟩, chain.mono fun other same => ?_⟩
    exact same ▸ (Scope.leadsTo_iff known read next).2 refers

/-- A chain that is too long exceeds the stack. -/
theorem fails_of_chain {room : Nat} {names : List String} (long : names.length = room)
    (known : ∃ source, scope.lookup name = some source)
    (chain : Scope.Chain scope (Scope.LeadsTo scope name) names) :
    Fails scope policy room name (.stackExceeded (Renderer.maxDepth + 1)) := by
  induction names generalizing name room with
  | nil =>
    obtain ⟨source, known⟩ := known
    exact long ▸ .exceeded known
  | cons next rest ih =>
    obtain ⟨⟨source, known, template, read, refers⟩, onward, later⟩ := Scope.chain_cons.1 chain
    exact long ▸ .inside known read refers (ih rfl onward later)

end Expansion

/-! ## Passes -/

/-- The stack is exceeded only by a chain of one variable more than values nest, and where
    there is such a chain, or a circle, no text comes out. -/
structure Capped (scope : Dictionary String String) (root : String → Prop) (outcome : Except Failure String) :
    Prop where
  exceeded (failure : Failure) (ended : outcome = .error failure) (kind : failure.kind = .stackExceeded) :
    failure = .stackExceeded 51 ∧ ∃ names, names.length = 51 ∧ Scope.Chain scope root names
  shallow (short : ∀ names, Scope.Chain scope root names → names.length ≤ 50) (failure : Failure)
    (ended : outcome = .error failure) : failure.kind ≠ .stackExceeded
  chain (names : List String) (long : names.length = 51) (chain : Scope.Chain scope root names) (text : String) :
    outcome ≠ .ok text
  cycle (name : String) (reached : Scope.Reaches scope root name)
    (turns : Relation.TransGen (Scope.LeadsTo scope) name name) (text : String) : outcome ≠ .ok text

/-- All that is said of a cap follows from what is said of chains of this length. -/
theorem capped_of_chains {scope : Dictionary String String} {root : String → Prop}
    {outcome : Except Failure String}
    (exceeded : ∀ failure, outcome = .error failure → failure.kind = .stackExceeded →
      failure = .stackExceeded 51 ∧ ∃ names, names.length = 51 ∧ Scope.Chain scope root names)
    (chain : ∀ names, names.length = 51 → Scope.Chain scope root names → ∀ text, outcome ≠ .ok text) :
    Capped scope root outcome where
  exceeded := exceeded
  shallow short failure ended kind := by
    obtain ⟨-, names, long, chain⟩ := exceeded failure ended kind
    have bound := short names chain
    omega
  chain := chain
  cycle name reached turns text := by
    obtain ⟨names, long, linked⟩ := Scope.exists_chain_of_cycle reached turns 51
    exact chain names long linked text

namespace Renderer

theorem capped_render (r : Renderer σ) (spares : r.callback.NeverExceeds) (template : Template) (s : σ) :
    Capped r.scope (· ∈ Template.references template) (r.render template s).outcome := by
  have course := (r.follows_render template s).course
  rw [Report.failure?] at course
  refine capped_of_chains (fun failure ended kind => ?_) fun names long chain text done => ?_
  · rw [ended] at course
    obtain member | ⟨x, made, ends⟩ := course.failure_cases
    · obtain ⟨name, refers, fails⟩ := Expansion.failure_mem_steps_iff.1 member
      obtain ⟨depth, names, long, chain⟩ := Expansion.exists_chain_of_fails kind fails
      exact ⟨depth, names, long, chain.mono fun other same => same ▸ refers⟩
    · exact absurd kind (kind_of_fatal spares made ends)
  · rw [done] at course
    obtain _ | ⟨name, rest⟩ := names
    · exact absurd long (by simp)
    · obtain ⟨refers, known, later⟩ := Scope.chain_cons.1 chain
      have fails : Expansion.Fails r.scope r.options.onFailure maxDepth name (.stackExceeded (maxDepth + 1)) :=
        Expansion.fails_of_chain (Nat.succ.inj long) known later
      exact course.failure_notMem _ (Expansion.failure_mem_steps_iff.2 ⟨name, refers, fails⟩)

/-- Where no function exceeds a stack of its own, the cap on values inside each other is
    exact, for templates and for sources. -/
theorem capped (r : Renderer σ) (spares : r.callback.NeverExceeds) (s : σ) :
    (∀ template, Capped r.scope (· ∈ Template.references template) (r.render template s).outcome) ∧
      ∀ source, Capped r.scope (Template.Refers source) (r.renderSource source s).outcome := by
  refine ⟨fun template => r.capped_render spares template s, fun source => ?_⟩
  unfold renderSource
  cases read : Template.parse source with
  | error e =>
    refine capped_of_chains (fun failure ended kind => ?_) fun names long chain text => ?_
    · obtain rfl := Except.error.inj ended
      exact absurd kind (by simp [Failure.kind])
    · simp
  | ok template =>
    rw [Template.refers_eq read]
    exact r.capped_render spares template s

/-- Two variables refer to each other, one of them in an argument of a function that
    always fails. -/
theorem capped_circle :
    let callback : Callback Unit :=
      { execute := fun _ _ _ => Pass.fail (.runtime "boom"), transform := fun _ _ text _ => return text }
    let r : Renderer Unit :=
      { scope := [("a", "$\x7b[ f(x: b) ]\x7d"), ("b", "$\x7b[ a ]\x7d")], callback
        options := { onFailure := .silent } }
    callback.NeverExceeds ∧ Scope.Reaches r.scope (Template.Refers "$\x7b[ a ]\x7d") "a" ∧
      Relation.TransGen (Scope.LeadsTo r.scope) "a" "a" ∧
      ∀ text, (r.renderSource "$\x7b[ a ]\x7d" ()).outcome ≠ .ok text := by
  intro callback r
  have spares : callback.NeverExceeds := by
    intro name arguments context s failure failed
    obtain rfl := Except.error.inj failed
    exact nofun
  have tag : Template.parse "$\x7b[ a ]\x7d" = .ok [.tag (.variable "a") (some "$\x7b[ a ]\x7d")] := by cbv
  have call : Template.parse "$\x7b[ f(x: b) ]\x7d" =
      .ok [.tag (.call "f" [⟨"x", .variable "b"⟩]) (some "$\x7b[ f(x: b) ]\x7d")] := by cbv
  have reached : Scope.Reaches r.scope (Template.Refers "$\x7b[ a ]\x7d") "a" :=
    Scope.reaches_of_root ⟨_, tag, List.mem_cons_self⟩
  have there : Scope.LeadsTo r.scope "a" "b" := ⟨_, rfl, _, call, List.mem_cons_self⟩
  have back : Scope.LeadsTo r.scope "b" "a" := ⟨_, rfl, _, tag, List.mem_cons_self⟩
  have turns : Relation.TransGen (Scope.LeadsTo r.scope) "a" "a" := .tail (.single there) back
  exact ⟨spares, reached, turns, ((capped r spares ()).2 _).cycle "a" reached turns⟩

end Renderer

end RequestTemplate
