import RequestTemplate.Proofs.Pass
import RequestTemplate.Render.Document

/-!
# Sweeps

A sweep renders templates one after the other, from left to right, and ends with the
first that fails (`Pass.exists_of_mapM_error`). A document is rendered by a sweep over
its leaves in the order in which they stand: the pass does what the sweep does, and its
result is the document with the texts of the sweep in the places of its templates
(`Document.coupled_mapTexts`).
-/

namespace RequestTemplate

variable {ε σ α β γ δ : Type}

/-! ## Passes that do the same for other values -/

/-- Both ended alike, in the same state and with the same record: with the same failure,
    or with values that are related. -/
inductive Report.Coupled (Related : α → β → Prop) : Report ε σ α → Report ε σ β → Prop
  | ok {a : α} {b : β} (s : σ) (record : List ε) (related : Related a b) :
    Coupled Related ⟨.ok a, s, record⟩ ⟨.ok b, s, record⟩
  | error (failure : Failure) (s : σ) (record : List ε) :
    Coupled Related ⟨.error failure, s, record⟩ ⟨.error failure, s, record⟩

theorem Report.Coupled.exists_of_ok {Related : α → β → Prop} {report : Report ε σ α} {other : Report ε σ β}
    (coupled : report.Coupled Related other) {a : α} (done : report.outcome = .ok a) :
    ∃ b, other = ⟨.ok b, report.state, report.record⟩ ∧ Related a b := by
  cases coupled with
  | ok s record related =>
    cases done
    exact ⟨_, rfl, related⟩
  | error => cases done

theorem Report.Coupled.eq_of_error {Related : α → β → Prop} {report : Report ε σ α} {other : Report ε σ β}
    (coupled : report.Coupled Related other) {failure : Failure} (failed : report.outcome = .error failure) :
    other = ⟨.error failure, report.state, report.record⟩ := by
  cases coupled with
  | ok => cases failed
  | error =>
    cases failed
    rfl

theorem Report.Coupled.symm {Related : α → β → Prop} {report : Report ε σ α} {other : Report ε σ β}
    (coupled : report.Coupled Related other) : other.Coupled (flip Related) report := by
  cases coupled with
  | ok s record related => exact .ok s record related
  | error failure s record => exact .error failure s record

namespace Pass

/-- From every state, both passes end alike. -/
def Coupled (Related : α → β → Prop) (p : Pass ε σ α) (q : Pass ε σ β) : Prop :=
  ∀ s, (p s).Coupled Related (q s)

variable {Related : α → β → Prop} {Later : γ → δ → Prop}

theorem coupled_pure {a : α} {b : β} (related : Related a b) :
    Coupled Related (pure a : Pass ε σ α) (pure b) :=
  fun s => .ok s [] related

theorem coupled_refl (p : Pass ε σ α) : Coupled Eq p p := by
  intro s
  rcases p s with ⟨failure | a, t, record⟩
  · exact .error failure t record
  · exact .ok t record rfl

theorem coupled_bind {p : Pass ε σ α} {q : Pass ε σ β} {f : α → Pass ε σ γ} {g : β → Pass ε σ δ}
    (first : Coupled Related p q) (later : ∀ a b, Related a b → Coupled Later (f a) (g b)) :
    Coupled Later (p >>= f) (q >>= g) := by
  intro s
  have here := first s
  rw [bind_apply, bind_apply]
  revert here
  generalize p s = report
  generalize q s = other
  rintro (⟨t, before, related⟩ | ⟨failure, t, before⟩)
  · rename_i a b
    have there := later a b related t
    revert there
    simp only
    generalize f a t = report
    generalize g b t = other
    rintro (⟨u, after, related⟩ | ⟨failure, u, after⟩)
    · exact .ok u _ related
    · exact .error failure u _
  · exact .error failure t before

/-! ## The first failure -/

/-- A pass over a list goes on behind an element that succeeds. -/
theorem mapM_cons_of_ok {f : α → Pass ε σ β} {x : α} {s : σ} {y : β} (first : (f x s).outcome = .ok y)
    (xs : List α) :
    (x :: xs).mapM f s =
      ⟨(xs.mapM f (f x s).state).outcome.map (y :: ·), (xs.mapM f (f x s).state).state,
        (f x s).record ++ (xs.mapM f (f x s).state).record⟩ := by
  rw [List.mapM_cons, bind_of_ok first]
  cases rest : (xs.mapM f (f x s).state).outcome with
  | error failure =>
    rw [bind_of_error rest]
    rfl
  | ok ys =>
    rw [bind_of_ok rest]
    simp [pure_apply, Except.map]

/-- A pass over a list ends with the first element that fails. -/
theorem mapM_append_cons_of_error {f : α → Pass ε σ β} {before : List α} {x : α} {s : σ} {ys : List β}
    {failure : Failure} (done : (before.mapM f s).outcome = .ok ys)
    (failed : (f x (before.mapM f s).state).outcome = .error failure) (after : List α) :
    (before ++ x :: after).mapM f s =
      ⟨.error failure, (f x (before.mapM f s).state).state,
        (before.mapM f s).record ++ (f x (before.mapM f s).state).record⟩ := by
  have stopped : (x :: after).mapM f (before.mapM f s).state =
      ⟨.error failure, (f x (before.mapM f s).state).state, (f x (before.mapM f s).state).record⟩ := by
    rw [List.mapM_cons, bind_of_error failed]
  rw [List.mapM_append, bind_of_ok done, bind_of_error (congrArg Report.outcome stopped), stopped]

/-- A pass over a list that fails has gone through the elements before one that fails, and
    does nothing about those behind it. -/
theorem exists_of_mapM_error {f : α → Pass ε σ β} {xs : List α} {s : σ} {failure : Failure}
    (failed : (xs.mapM f s).outcome = .error failure) :
    ∃ before x after ys, xs = before ++ x :: after ∧ (before.mapM f s).outcome = .ok ys ∧
      (f x (before.mapM f s).state).outcome = .error failure ∧
      (xs.mapM f s).state = (f x (before.mapM f s).state).state ∧
      (xs.mapM f s).record = (before.mapM f s).record ++ (f x (before.mapM f s).state).record := by
  induction xs generalizing s with
  | nil => exact absurd failed (by simp)
  | cons x xs ih =>
    cases first : (f x s).outcome with
    | error cause =>
      rw [List.mapM_cons, bind_of_error first] at failed ⊢
      obtain rfl := Except.error.inj failed
      exact ⟨[], x, xs, [], rfl, rfl, first, rfl, rfl⟩
    | ok y =>
      rw [mapM_cons_of_ok first] at failed ⊢
      have inner : (xs.mapM f (f x s).state).outcome = .error failure := by
        cases rest : (xs.mapM f (f x s).state).outcome with
        | error cause => simpa [rest, Except.map] using failed
        | ok ys => simp [rest, Except.map] at failed
      obtain ⟨before, z, after, ys, rfl, done, stopped, state, record⟩ := ih inner
      refine ⟨x :: before, z, after, y :: ys, rfl, ?_⟩
      rw [mapM_cons_of_ok first before, done]
      refine ⟨rfl, stopped, state, ?_⟩
      rw [record, List.append_assoc]

end Pass

/-! ## Leaves -/

/-- What a pass over a document meets: a text, which is a template of its own, or a value
    that cannot be rendered. -/
inductive Leaf where
  | template (source : String)
  | foreign (value : DateKind)
  deriving DecidableEq, Inhabited

def Leaf.render (f : String → Pass Event σ String) : Leaf → Pass Event σ String
  | template source => f source
  | foreign value => Pass.fail (.notRenderable value)

/-- Renders leaves one after the other. -/
def Renderer.sweep (r : Renderer σ) (leaves : List Leaf) : Pass Event σ (List String) :=
  leaves.mapM (Leaf.render r.renderSource)

/-- `filled` is `whole` with these texts in the places of its templates: they are its
    templates now, and without its texts it is what `whole` is without them. -/
structure Filled (leaves : α → List Leaf) (blanked : α → α) (whole : α) (filled : α) (texts : List String) :
    Prop where
  leaves : leaves filled = texts.map .template
  blanked : blanked filled = blanked whole

namespace Document

mutual

/-- The leaves of a document in the order in which they stand. -/
def leaves : Document → List Leaf
  | scalar (.text content) => [.template content]
  | scalar (.date _) => [.foreign .date]
  | scalar (.dateTime _ _) => [.foreign .dateTime]
  | scalar _ => []
  | list items => leavesOfItems items
  | mapping entries => leavesOfEntries entries

def leavesOfItems : List Document → List Leaf
  | [] => []
  | item :: rest => leaves item ++ leavesOfItems rest

def leavesOfEntries : List (Scalar × Document) → List Leaf
  | [] => []
  | (_, value) :: rest => leaves value ++ leavesOfEntries rest

end

mutual

/-- The document with all its texts empty. -/
def blanked : Document → Document
  | scalar (.text _) => scalar (.text "")
  | scalar s => scalar s
  | list items => list (blankedItems items)
  | mapping entries => mapping (blankedEntries entries)

def blankedItems : List Document → List Document
  | [] => []
  | item :: rest => blanked item :: blankedItems rest

def blankedEntries : List (Scalar × Document) → List (Scalar × Document)
  | [] => []
  | (key, value) :: rest => (key, blanked value) :: blankedEntries rest

end

/-! ## Documents are rendered by sweeps -/

mutual

theorem coupled_mapTexts (f : String → Pass Event σ String) :
    ∀ d : Document, Pass.Coupled (Filled leaves blanked d) (d.mapTexts f) (d.leaves.mapM (Leaf.render f))
  | scalar .null => Pass.coupled_pure ⟨rfl, rfl⟩
  | scalar (.bool _) => Pass.coupled_pure ⟨rfl, rfl⟩
  | scalar (.integer _) => Pass.coupled_pure ⟨rfl, rfl⟩
  | scalar (.decimal _) => Pass.coupled_pure ⟨rfl, rfl⟩
  | scalar (.text content) => by
    rw [leaves, List.mapM_cons]
    refine Pass.coupled_bind (Pass.coupled_refl (f content)) fun text other same => ?_
    subst same
    exact Pass.coupled_pure ⟨rfl, rfl⟩
  | scalar (.date _) => fun s => .error (.notRenderable .date) s []
  | scalar (.dateTime _ _) => fun s => .error (.notRenderable .dateTime) s []
  | list items => by
    rw [leaves, ← bind_pure (List.mapM _ _)]
    refine Pass.coupled_bind (coupled_mapTextsOfItems f items) fun filled texts fills => ?_
    exact Pass.coupled_pure ⟨fills.leaves, congrArg list fills.blanked⟩
  | mapping entries => by
    rw [leaves, ← bind_pure (List.mapM _ _)]
    refine Pass.coupled_bind (coupled_mapTextsOfEntries f entries) fun filled texts fills => ?_
    exact Pass.coupled_pure ⟨fills.leaves, congrArg mapping fills.blanked⟩

theorem coupled_mapTextsOfItems (f : String → Pass Event σ String) :
    ∀ items : List Document, Pass.Coupled (Filled leavesOfItems blankedItems items) (mapTextsOfItems f items)
      ((leavesOfItems items).mapM (Leaf.render f))
  | [] => Pass.coupled_pure ⟨rfl, rfl⟩
  | item :: rest => by
    rw [leavesOfItems, List.mapM_append]
    refine Pass.coupled_bind (coupled_mapTexts f item) fun first texts fills => ?_
    refine Pass.coupled_bind (coupled_mapTextsOfItems f rest) fun others more fillsMore => ?_
    refine Pass.coupled_pure ⟨?_, ?_⟩
    · simp [leavesOfItems, fills.leaves, fillsMore.leaves]
    · simp [blankedItems, fills.blanked, fillsMore.blanked]

theorem coupled_mapTextsOfEntries (f : String → Pass Event σ String) :
    ∀ entries : List (Scalar × Document),
      Pass.Coupled (Filled leavesOfEntries blankedEntries entries) (mapTextsOfEntries f entries)
        ((leavesOfEntries entries).mapM (Leaf.render f))
  | [] => Pass.coupled_pure ⟨rfl, rfl⟩
  | (key, value) :: rest => by
    rw [leavesOfEntries, List.mapM_append]
    refine Pass.coupled_bind (coupled_mapTexts f value) fun first texts fills => ?_
    refine Pass.coupled_bind (coupled_mapTextsOfEntries f rest) fun others more fillsMore => ?_
    refine Pass.coupled_pure ⟨?_, ?_⟩
    · simp [leavesOfEntries, fills.leaves, fillsMore.leaves]
    · simp [blankedEntries, fills.blanked, fillsMore.blanked]

end

end Document

end RequestTemplate
