import RequestTemplate.Render.Pass

/-!
# What passes leave behind

The outcome and the state of a sequence of passes, in terms of those of its parts.
`sameOn_bind` says that parts may be replaced by others that come to the same, and
`sameOn_bind_of_yieldsOn` that a part may be replaced by its value, as far as a view of
the state shows. `Yields`, `Steady` and `Same` are what is said so of the whole state.
-/

namespace RequestTemplate.Pass

variable {ε σ α β : Type}

@[simp] theorem outcome_pure (a : α) (s : σ) : ((pure a : Pass ε σ α) s).outcome = .ok a := rfl

@[simp] theorem outcome_fail (failure : Failure) (s : σ) :
    ((fail failure : Pass ε σ α) s).outcome = .error failure := rfl

/-- The second pass starts in the state that the first one left, with its value. -/
theorem outcome_bind (p : Pass ε σ α) (f : α → Pass ε σ β) (s : σ) :
    ((p >>= f) s).outcome =
      match (p s).outcome with
      | .ok a => (f a (p s).state).outcome
      | .error failure => .error failure := by
  rw [bind_apply]
  rcases p s with ⟨_ | a, t, record⟩ <;> rfl

theorem state_bind (p : Pass ε σ α) (f : α → Pass ε σ β) (s : σ) :
    ((p >>= f) s).state =
      match (p s).outcome with
      | .ok a => (f a (p s).state).state
      | .error _ => (p s).state := by
  rw [bind_apply]
  rcases p s with ⟨_ | a, t, record⟩ <;> rfl

theorem record_bind (p : Pass ε σ α) (f : α → Pass ε σ β) (s : σ) :
    ((p >>= f) s).record =
      match (p s).outcome with
      | .ok a => (p s).record ++ (f a (p s).state).record
      | .error _ => (p s).record := by
  rw [bind_apply]
  rcases p s with ⟨_ | a, t, record⟩ <;> rfl

/-- A sequence whose first pass fails is that pass. -/
theorem bind_of_error {p : Pass ε σ α} {f : α → Pass ε σ β} {s : σ} {failure : Failure}
    (failed : (p s).outcome = .error failure) :
    (p >>= f) s = ⟨.error failure, (p s).state, (p s).record⟩ := by
  rw [bind_apply]
  revert failed
  rcases p s with ⟨_ | a, t, record⟩ <;> rintro ⟨⟩
  rfl

theorem bind_of_ok {p : Pass ε σ α} {f : α → Pass ε σ β} {s : σ} {a : α} (done : (p s).outcome = .ok a) :
    (p >>= f) s =
      ⟨(f a (p s).state).outcome, (f a (p s).state).state, (p s).record ++ (f a (p s).state).record⟩ := by
  rw [bind_apply]
  revert done
  rcases p s with ⟨_ | a, t, record⟩ <;> rintro ⟨⟩
  rfl

/-- A sequence succeeds when both of its passes do. -/
theorem outcome_bind_eq_ok {p : Pass ε σ α} {f : α → Pass ε σ β} {s : σ} {b : β} :
    ((p >>= f) s).outcome = .ok b ↔
      ∃ a, (p s).outcome = .ok a ∧ (f a (p s).state).outcome = .ok b := by
  rw [outcome_bind]
  cases (p s).outcome with
  | error failure => simp
  | ok a => simp

/-! ## What is seen of the state

`view` shows a part of the state. Passes that leave this part alone, or depend on nothing
else, may do with the rest of the state what they like. -/

section

variable {κ : Type} {view : σ → κ}

/-- The pass succeeds in every state, with a value of `P`, and changes nothing that is
    seen. -/
def SucceedsOn (view : σ → κ) (p : Pass ε σ α) (P : α → Prop) : Prop :=
  ∀ s, ∃ a, (p s).outcome = .ok a ∧ view (p s).state = view s ∧ P a

theorem succeedsOn_pure {P : α → Prop} {a : α} (holds : P a) : (pure a : Pass ε σ α).SucceedsOn view P :=
  fun _ => ⟨a, rfl, rfl, holds⟩

theorem succeedsOn_bind {p : Pass ε σ α} {f : α → Pass ε σ β} {P : α → Prop} {Q : β → Prop}
    (first : p.SucceedsOn view P) (later : ∀ a, P a → (f a).SucceedsOn view Q) :
    (p >>= f).SucceedsOn view Q := by
  intro s
  obtain ⟨a, value, kept, holds⟩ := first s
  obtain ⟨b, onward, again, result⟩ := later a holds (p s).state
  rw [outcome_bind, state_bind, value]
  exact ⟨b, onward, again.trans kept, result⟩

/-- The pass has this outcome in every state, and changes nothing that is seen. -/
def YieldsOn (view : σ → κ) (p : Pass ε σ α) (outcome : Except Failure α) : Prop :=
  ∀ s, (p s).outcome = outcome ∧ view (p s).state = view s

/-- What comes out of the pass does not depend on the state. -/
def SteadyOn (view : σ → κ) (p : Pass ε σ α) : Prop := ∃ outcome, p.YieldsOn view outcome

theorem yieldsOn_pure (a : α) : (pure a : Pass ε σ α).YieldsOn view (.ok a) := fun _ => ⟨rfl, rfl⟩

theorem yieldsOn_fail (failure : Failure) : (fail failure : Pass ε σ α).YieldsOn view (.error failure) :=
  fun _ => ⟨rfl, rfl⟩

theorem yieldsOn_emit (entry : ε) : (emit entry : Pass ε σ Unit).YieldsOn view (.ok ()) :=
  fun _ => ⟨rfl, rfl⟩

theorem yieldsOn_bind {p : Pass ε σ α} {f : α → Pass ε σ β} {a : α} {outcome : Except Failure β}
    (first : p.YieldsOn view (.ok a)) (later : (f a).YieldsOn view outcome) :
    (p >>= f).YieldsOn view outcome := by
  intro s
  obtain ⟨value, kept⟩ := first s
  obtain ⟨onward, again⟩ := later (p s).state
  rw [outcome_bind, state_bind, value]
  exact ⟨onward, again.trans kept⟩

theorem yieldsOn_bind_error {p : Pass ε σ α} {failure : Failure} (first : p.YieldsOn view (.error failure))
    (f : α → Pass ε σ β) : (p >>= f).YieldsOn view (.error failure) := by
  intro s
  obtain ⟨value, kept⟩ := first s
  rw [outcome_bind, state_bind, value]
  exact ⟨rfl, kept⟩

theorem yieldsOn_attempt {p : Pass ε σ α} {outcome : Except Failure α} (first : p.YieldsOn view outcome) :
    p.attempt.YieldsOn view (.ok outcome) := fun s => ⟨congrArg _ (first s).1, (first s).2⟩

theorem yieldsOn_noting {p : Pass Note σ α} {outcome : Except Failure α} (first : p.YieldsOn view outcome) :
    p.noting.YieldsOn view outcome := fun s => first s

theorem steadyOn_pure (a : α) : (pure a : Pass ε σ α).SteadyOn view := ⟨_, yieldsOn_pure a⟩

theorem steadyOn_fail (failure : Failure) : (fail failure : Pass ε σ α).SteadyOn view :=
  ⟨_, yieldsOn_fail failure⟩

theorem steadyOn_bind {p : Pass ε σ α} {f : α → Pass ε σ β} (first : p.SteadyOn view)
    (later : ∀ a, (f a).SteadyOn view) : (p >>= f).SteadyOn view := by
  obtain ⟨_ | a, yields⟩ := first
  · exact ⟨_, yieldsOn_bind_error yields f⟩
  · obtain ⟨outcome, onward⟩ := later a
    exact ⟨outcome, yieldsOn_bind yields onward⟩

/-- From states that look alike, both passes have the same outcome and leave states that
    look alike. A pass that depends on what is not seen is not even the same as itself. -/
def SameOn (view : σ → κ) (p q : Pass ε σ α) : Prop :=
  ∀ s t, view s = view t → (p s).outcome = (q t).outcome ∧ view (p s).state = view (q t).state

theorem sameOn_of_yieldsOn {p q : Pass ε σ α} {outcome : Except Failure α} (first : p.YieldsOn view outcome)
    (second : q.YieldsOn view outcome) : p.SameOn view q := by
  intro s t alike
  obtain ⟨value, kept⟩ := first s
  obtain ⟨same, unchanged⟩ := second t
  exact ⟨value.trans same.symm, kept.trans (alike.trans unchanged.symm)⟩

theorem sameOn_of_steadyOn {p : Pass ε σ α} (steady : p.SteadyOn view) : p.SameOn view p := by
  obtain ⟨outcome, yields⟩ := steady
  exact sameOn_of_yieldsOn yields yields

theorem sameOn_symm {p q : Pass ε σ α} (same : p.SameOn view q) : q.SameOn view p :=
  fun s t alike => ⟨(same t s alike.symm).1.symm, (same t s alike.symm).2.symm⟩

theorem sameOn_trans {p q o : Pass ε σ α} (first : p.SameOn view q) (later : q.SameOn view o) : p.SameOn view o :=
  fun s t alike => ⟨(first s t alike).1.trans (later t t rfl).1, (first s t alike).2.trans (later t t rfl).2⟩

theorem sameOn_bind {p q : Pass ε σ α} {f g : α → Pass ε σ β} (first : p.SameOn view q)
    (later : ∀ a, (f a).SameOn view (g a)) : (p >>= f).SameOn view (q >>= g) := by
  intro s t alike
  obtain ⟨value, left⟩ := first s t alike
  rw [outcome_bind, state_bind, outcome_bind, state_bind, value]
  cases (q t).outcome with
  | error failure => exact ⟨rfl, left⟩
  | ok a => exact later a _ _ left

/-- A pass that changes nothing that is seen may be left out for its value. -/
theorem sameOn_bind_of_yieldsOn {p : Pass ε σ α} {a : α} {f : α → Pass ε σ β} {q : Pass ε σ β}
    (first : p.YieldsOn view (.ok a)) (later : (f a).SameOn view q) : (p >>= f).SameOn view q := by
  intro s t alike
  obtain ⟨value, kept⟩ := first s
  rw [outcome_bind, state_bind, value]
  exact later _ t (kept.trans alike)

theorem sameOn_attempt {p q : Pass ε σ α} (same : p.SameOn view q) : p.attempt.SameOn view q.attempt :=
  fun s t alike => ⟨congrArg Except.ok (same s t alike).1, (same s t alike).2⟩

theorem sameOn_noting {p q : Pass Note σ α} (same : p.SameOn view q) : p.noting.SameOn view q.noting :=
  fun s t alike => same s t alike

end

/-! ## The whole state

What was said of a view, said of the state itself. -/

/-- The pass has this outcome in every state, and leaves the state as it is. -/
abbrev Yields (p : Pass ε σ α) (outcome : Except Failure α) : Prop := p.YieldsOn id outcome

/-- What comes out of the pass does not depend on the state. -/
abbrev Steady (p : Pass ε σ α) : Prop := p.SteadyOn id

/-- Both passes have the same outcome and leave the same state, though not the same
    record. -/
abbrev Same (p q : Pass ε σ α) : Prop := p.SameOn id q

theorem same_refl (p : Pass ε σ α) : p.Same p := by
  intro s t alike
  obtain rfl : s = t := alike
  exact ⟨rfl, rfl⟩

end RequestTemplate.Pass
