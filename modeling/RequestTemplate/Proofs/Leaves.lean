import RequestTemplate.Proofs.Sweep

/-!
# A document is its shape and its leaves

Rendering a document renders its leaves one after the other, each as a template of its
own, and ends with the first that fails (`Document.renders_leaves`). What it makes of them is put
back in their places: the shape of a document, its keys and all other scalars are what
`blanked` keeps, and with it the texts make up one document
(`Document.eq_of_blanked`).
-/

namespace RequestTemplate

variable {σ : Type}

/-- How a leaf fails: with the failure of its template, or, under every policy, because of
    the type of its value. -/
inductive Leaf.Fails (r : Renderer σ) (s : σ) : Leaf → Failure → Prop
  | template {source : String} {failure : Failure} (failed : (r.renderSource source s).outcome = .error failure) :
    Fails r s (.template source) failure
  | foreign (value : DateKind) : Fails r s (.foreign value) (.notRenderable value)

theorem Leaf.fails_iff {r : Renderer σ} {s : σ} {leaf : Leaf} {failure : Failure} :
    leaf.Fails r s failure ↔ (leaf.render r.renderSource s).outcome = .error failure := by
  constructor
  · rintro (failed | value)
    · exact failed
    · rfl
  · intro failed
    cases leaf with
    | template source => exact .template failed
    | foreign value =>
      obtain rfl : Failure.notRenderable value = failure := Except.error.inj failed
      exact .foreign value

namespace Document

/-! ## Shape and leaves -/

mutual

theorem length_leaves_blanked : ∀ d : Document, (blanked d).leaves.length = d.leaves.length
  | scalar s => by cases s <;> rfl
  | list items => length_leavesOfItems_blanked items
  | mapping entries => length_leavesOfEntries_blanked entries

theorem length_leavesOfItems_blanked :
    ∀ items : List Document, (leavesOfItems (blankedItems items)).length = (leavesOfItems items).length
  | [] => rfl
  | item :: rest => by
    simp only [blankedItems, leavesOfItems, List.length_append, length_leaves_blanked item,
      length_leavesOfItems_blanked rest]

theorem length_leavesOfEntries_blanked :
    ∀ entries : List (Scalar × Document),
      (leavesOfEntries (blankedEntries entries)).length = (leavesOfEntries entries).length
  | [] => rfl
  | (_, value) :: rest => by
    simp only [blankedEntries, leavesOfEntries, List.length_append, length_leaves_blanked value,
      length_leavesOfEntries_blanked rest]

end

/-- Documents of one shape have as many leaves. -/
theorem length_leaves_of_blanked {d e : Document} (shape : d.blanked = e.blanked) :
    d.leaves.length = e.leaves.length := by
  rw [← length_leaves_blanked d, shape, length_leaves_blanked]

mutual

/-- A document is determined by its shape and its leaves. -/
theorem eq_of_blanked : ∀ {d e : Document}, d.blanked = e.blanked → d.leaves = e.leaves → d = e
  | scalar s, scalar t, shape, same => by
    cases s <;> cases t <;> simp_all [blanked, leaves]
  | list items, list others, shape, same =>
    congrArg list (eq_of_blankedItems (list.inj shape) same)
  | mapping entries, mapping others, shape, same =>
    congrArg mapping (eq_of_blankedEntries (mapping.inj shape) same)
  | scalar s, list _, shape, _ | scalar s, mapping _, shape, _ => by cases s <;> simp [blanked] at shape
  | list _, scalar t, shape, _ | mapping _, scalar t, shape, _ => by cases t <;> simp [blanked] at shape
  | list _, mapping _, shape, _ | mapping _, list _, shape, _ => by simp [blanked] at shape

theorem eq_of_blankedItems : ∀ {items others : List Document}, blankedItems items = blankedItems others →
    leavesOfItems items = leavesOfItems others → items = others
  | [], [], _, _ => rfl
  | item :: rest, other :: more, shape, same => by
    obtain ⟨first, later⟩ := List.cons.inj shape
    obtain ⟨here, behind⟩ := List.append_inj same (length_leaves_of_blanked first)
    rw [eq_of_blanked first here, eq_of_blankedItems later behind]
  | [], _ :: _, shape, _ | _ :: _, [], shape, _ => by simp [blankedItems] at shape

theorem eq_of_blankedEntries : ∀ {entries others : List (Scalar × Document)},
    blankedEntries entries = blankedEntries others →
      leavesOfEntries entries = leavesOfEntries others → entries = others
  | [], [], _, _ => rfl
  | (key, value) :: rest, (other, content) :: more, shape, same => by
    obtain ⟨entry, later⟩ := List.cons.inj shape
    obtain ⟨rfl, first⟩ := Prod.mk.inj entry
    obtain ⟨here, behind⟩ := List.append_inj same (length_leaves_of_blanked first)
    rw [eq_of_blanked first here, eq_of_blankedEntries later behind]
  | [], _ :: _, shape, _ | _ :: _, [], shape, _ => by simp [blankedEntries] at shape

end

/-! ## Whole documents -/

/-- Rendering the document from the state `s` does what one sweep over its leaves does. -/
structure Swept (r : Renderer σ) (d : Document) (s : σ) : Prop where
  alike : (r.renderDocument d s).Coupled (Filled leaves blanked d) (r.sweep d.leaves s)
  /-- The result is the one document that is `d` with the texts of the sweep for its leaves. -/
  success (filled : Document) (done : (r.renderDocument d s).outcome = .ok filled) :
    ∃ texts, (r.sweep d.leaves s).outcome = .ok texts ∧
      ∀ other, Filled leaves blanked d other texts ↔ other = filled
  /-- The first leaf that fails decides the outcome, and nothing is done behind it. -/
  stops {before after : List Leaf} {leaf : Leaf} {texts : List String} {failure : Failure}
      (split : d.leaves = before ++ leaf :: after) (done : (r.sweep before s).outcome = .ok texts)
      (fails : leaf.Fails r (r.sweep before s).state failure) :
    r.renderDocument d s =
      ⟨.error failure, (leaf.render r.renderSource (r.sweep before s).state).state,
        (r.sweep before s).record ++ (leaf.render r.renderSource (r.sweep before s).state).record⟩
  /-- There is no other failure. -/
  failed (failure : Failure) (failed : (r.renderDocument d s).outcome = .error failure) :
    ∃ before leaf after texts, d.leaves = before ++ leaf :: after ∧
      (r.sweep before s).outcome = .ok texts ∧ leaf.Fails r (r.sweep before s).state failure

/-- Whatever its functions do, and under either policy, a document is rendered by one sweep
    over its leaves. It fills in the leaves, touches nothing else, and ends with the first
    failure. -/
theorem renders_leaves (r : Renderer σ) (d : Document) (s : σ) : d.Swept r s := by
  have alike : (r.renderDocument d s).Coupled (Filled leaves blanked d) (r.sweep d.leaves s) :=
    coupled_mapTexts r.renderSource d s
  refine ⟨alike, ?success, ?stops, ?failed⟩
  case success =>
    intro filled done
    obtain ⟨texts, swept, fills⟩ := alike.exists_of_ok done
    refine ⟨texts, congrArg Report.outcome swept, fun other => ⟨fun more => ?_, fun same => same ▸ fills⟩⟩
    exact eq_of_blanked (more.blanked.trans fills.blanked.symm) (more.leaves.trans fills.leaves.symm)
  case stops =>
    intro before after leaf texts failure split done fails
    have stopped := Pass.mapM_append_cons_of_error done (Leaf.fails_iff.1 fails) after
    rw [← split] at stopped
    rw [alike.symm.eq_of_error (congrArg Report.outcome stopped), Renderer.sweep, stopped]
    rfl
  case failed =>
    intro failure failed
    have same := alike.eq_of_error failed
    obtain ⟨before, leaf, after, texts, split, done, stopped, -⟩ :=
      Pass.exists_of_mapM_error (congrArg Report.outcome same)
    exact ⟨before, leaf, after, texts, split, done, Leaf.fails_iff.2 stopped⟩

end Document

end RequestTemplate
