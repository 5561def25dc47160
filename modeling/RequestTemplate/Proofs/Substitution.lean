import RequestTemplate.Proofs.Placeholder

/-!
# Filling placeholders at once

Placeholders are filled one after the other, each in the URL that the one before it has
left. `Substituted` says what one substitution does that reads the URL once, fills the
segments of all names in it and never reads what it has written. Two substitutions one
after the other are one of both (`Substituted.trans`), so filling in turn is filling at
once.
-/

namespace RequestTemplate.Placeholder

/-- `result` is the URL in which every segment of a name gives way to the value of the
    name, and all else is copied. -/
inductive Substituted (values : List Char → Option (List Char)) : List Char → List Char → Prop
  | nil : Substituted values [] []
  | filled {name value rest result : List Char} (known : values name = some value)
      (ends : endsSegment rest = true) (later : Substituted values rest result) :
      Substituted values ('/' :: (name ++ rest)) ('/' :: (value ++ result))
  | copied {c : Char} {rest result : List Char}
      (apart : ∀ name value, values name = some value → ¬ Heads name (c :: rest))
      (later : Substituted values rest result) : Substituted values (c :: rest) (c :: result)

/-- Names of placeholders that are segments, with values in which no name can begin. -/
structure Fit (values : List Char → Option (List Char)) : Prop where
  undivided {name value : List Char} (known : values name = some value) : Undivided name
  colon {name value : List Char} (known : values name = some value) : name.head? = some ':'
  written {name value : List Char} (known : values name = some value) : ∀ c ∈ value, c ≠ '/' ∧ c ≠ ':'

namespace Substituted

variable {values first second : List Char → Option (List Char)} {s t url middle result name : List Char}

/-! ## One substitution -/

/-- Text before the next slash is copied. -/
theorem append (slashless : '/' ∉ name) (later : Substituted values s t) :
    Substituted values (name ++ s) (name ++ t) := by
  induction name with
  | nil => exact later
  | cons c name ih =>
    obtain ⟨here, behind⟩ := not_or.1 (mt List.mem_cons.2 slashless)
    exact .copied (fun other _ _ => not_heads_of_ne (Ne.symm here) other _) (ih behind)

/-- What is in the URL at its head is in the result, unless it is a slash. -/
theorem exists_of_cons_left {c : Char} (other : c ≠ '/') (substituted : Substituted values (c :: s) result) :
    ∃ t, result = c :: t ∧ Substituted values s t := by
  generalize eq : c :: s = whole at substituted
  cases substituted with
  | nil => cases eq
  | filled => exact absurd (List.cons.inj eq).1 other
  | copied apart later =>
    obtain ⟨rfl, rfl⟩ := List.cons.inj eq
    exact ⟨_, rfl, later⟩

theorem exists_of_cons_right {c : Char} (other : c ≠ '/') (substituted : Substituted values url (c :: t)) :
    ∃ s, url = c :: s ∧ Substituted values s t := by
  generalize eq : c :: t = whole at substituted
  cases substituted with
  | nil => cases eq
  | filled => exact absurd (List.cons.inj eq).1 other
  | copied apart later =>
    obtain ⟨rfl, rfl⟩ := List.cons.inj eq
    exact ⟨_, rfl, later⟩

theorem of_append_left (slashless : '/' ∉ name) (substituted : Substituted values (name ++ s) result) :
    ∃ t, result = name ++ t ∧ Substituted values s t := by
  induction name generalizing result with
  | nil => exact ⟨result, rfl, substituted⟩
  | cons c name ih =>
    obtain ⟨here, behind⟩ := not_or.1 (mt List.mem_cons.2 slashless)
    obtain ⟨rest, rfl, later⟩ := exists_of_cons_left (Ne.symm here) substituted
    obtain ⟨t, rfl, inner⟩ := ih behind later
    exact ⟨t, rfl, inner⟩

theorem of_append_right (slashless : '/' ∉ name) (substituted : Substituted values url (name ++ t)) :
    ∃ s, url = name ++ s ∧ Substituted values s t := by
  induction name generalizing url with
  | nil => exact ⟨url, rfl, substituted⟩
  | cons c name ih =>
    obtain ⟨here, behind⟩ := not_or.1 (mt List.mem_cons.2 slashless)
    obtain ⟨rest, rfl, later⟩ := exists_of_cons_right (Ne.symm here) substituted
    obtain ⟨s, rfl, inner⟩ := ih behind later
    exact ⟨s, rfl, inner⟩

theorem eq_nil_iff (substituted : Substituted values s t) : t = [] ↔ s = [] := by
  cases substituted <;> simp

/-- Segments end where they ended. -/
theorem endsSegment_eq (substituted : Substituted values s t) : endsSegment t = endsSegment s := by
  cases substituted with
  | nil => rfl
  | filled => rfl
  | copied apart later => rw [Bool.eq_iff_iff, endsSegment_cons_iff, endsSegment_cons_iff, later.eq_nil_iff]

/-- A name that heads what is copied heads the URL. -/
theorem heads_copied_iff (slashless : '/' ∉ name) {c : Char} (later : Substituted values s t) :
    Heads name (c :: t) ↔ Heads name (c :: s) := by
  constructor
  · rintro ⟨rest, eq, ends⟩
    obtain ⟨rfl, rfl⟩ := List.cons.inj eq
    obtain ⟨behind, rfl, inner⟩ := of_append_right slashless later
    exact ⟨behind, rfl, inner.endsSegment_eq.symm.trans ends⟩
  · rintro ⟨rest, eq, ends⟩
    obtain ⟨rfl, rfl⟩ := List.cons.inj eq
    obtain ⟨behind, rfl, inner⟩ := of_append_left slashless later
    exact ⟨behind, rfl, inner.endsSegment_eq.trans ends⟩

/-- No name of a placeholder heads what is written in the place of a segment. -/
theorem not_heads_filled {value rest : List Char} (written : ∀ c ∈ value, c ≠ '/' ∧ c ≠ ':')
    (ends : endsSegment rest = true) (later : Substituted values rest result) (colon : name.head? = some ':') :
    ¬ Heads name ('/' :: (value ++ result)) := by
  rintro ⟨behind, eq, -⟩
  have same : value ++ result = name ++ behind := (List.cons.inj eq).2
  have head : (value ++ result).head? = some ':' := by rw [same, List.head?_append, colon, Option.some_or]
  cases value with
  | nil => exact head?_ne_of_endsSegment (later.endsSegment_eq.trans ends) head
  | cons c value =>
    obtain rfl := Option.some.inj head
    exact (written _ List.mem_cons_self).2 rfl

theorem slashless_of_written {value : List Char} (written : ∀ c ∈ value, c ≠ '/' ∧ c ≠ ':') : '/' ∉ value :=
  fun member => (written '/' member).1 rfl

/-- A URL has one result. -/
theorem unique (fit : Fit values) (substituted : Substituted values url s) (again : Substituted values url t) :
    s = t := by
  induction substituted generalizing t with
  | nil =>
    cases again
    rfl
  | @filled name value rest result known ends later ih =>
    generalize eq : '/' :: (name ++ rest) = whole at again
    have heads : Heads name whole := ⟨rest, eq.symm, ends⟩
    cases again with
    | nil => cases eq
    | @filled other _ _ _ knownToo endsToo laterToo =>
      obtain rfl := heads.unique ⟨_, rfl, endsToo⟩ (fit.undivided known) (fit.undivided knownToo)
      obtain rfl := List.append_cancel_left (List.cons.inj eq).2
      obtain rfl := Option.some.inj (known.symm.trans knownToo)
      rw [ih laterToo]
    | copied apart => exact absurd heads (apart name value known)
  | @copied c rest result apart later ih =>
    generalize eq : c :: rest = whole at again
    cases again with
    | nil => cases eq
    | filled knownToo endsToo => exact absurd ⟨_, eq, endsToo⟩ (apart _ _ knownToo)
    | copied _ laterToo =>
      obtain ⟨rfl, rfl⟩ := List.cons.inj eq
      rw [ih laterToo]

/-- Without values nothing happens. -/
theorem of_none (s : List Char) : Substituted (fun _ => none) s s := by
  induction s with
  | nil => exact .nil
  | cons c s ih => exact .copied (fun _ _ known => absurd known (by simp)) ih

/-! ## What the result holds -/

/-- The names that have values are gone from the result, the others stand where they stood. -/
theorem occurs_iff (fit : Fit values) (undivided : Undivided name) (colon : name.head? = some ':')
    (substituted : Substituted values s t) : Occurs name t ↔ Occurs name s ∧ values name = none := by
  induction substituted with
  | nil => simp [occurs_nil]
  | @filled other value rest result known ends later ih =>
    have apart := not_heads_filled (fit.written known) ends later colon
    rw [occurs_cons_iff, or_iff_right apart, occurs_append_iff (slashless_of_written (fit.written known)), ih,
      occurs_cons_iff, occurs_append_iff (fit.undivided known).slashless]
    refine and_congr_left fun unknown => (or_iff_right fun heads => ?_).symm
    obtain rfl := heads.unique ⟨rest, rfl, ends⟩ undivided (fit.undivided known)
    simp [known] at unknown
  | @copied c rest result apart later ih =>
    rw [occurs_cons_iff, occurs_cons_iff, heads_copied_iff undivided.slashless later, ih, or_and_right]
    refine or_congr_left (iff_self_and.2 fun heads => ?_)
    exact Option.eq_none_iff_forall_ne_some.2 fun value known => apart name value known heads

/-- The URL changes exactly if a name in it has a value. -/
theorem eq_self_iff (fit : Fit values) (substituted : Substituted values s t) :
    t = s ↔ ∀ name value, values name = some value → ¬ Occurs name s := by
  induction substituted with
  | nil => simp [occurs_nil]
  | @filled name value rest result known ends later ih =>
    refine iff_of_false (fun same => ?_) fun none => none name value known (occurs_cons_iff.2 (.inl ⟨rest, rfl, ends⟩))
    -- the name would head what is written in its place
    exact not_heads_filled (fit.written known) ends later (fit.colon known) (same ▸ ⟨rest, rfl, ends⟩)
  | @copied c rest result apart later ih =>
    simp only [List.cons.injEq, true_and, ih, occurs_cons_iff, not_or]
    exact ⟨fun none name value known => ⟨apart name value known, none name value known⟩,
      fun none name value known => (none name value known).2⟩

/-! ## Two substitutions -/

/-- A substitution in the result of another one is one substitution in the URL, in which
    the first one has precedence. -/
theorem trans (fit : Fit first) (fitSecond : Fit second) (once : Substituted first url middle)
    (again : Substituted second middle result) :
    Substituted (fun name => (first name).or (second name)) url result := by
  induction once generalizing result with
  | nil =>
    cases again
    exact .nil
  | @filled name value rest between known ends later ih =>
    generalize eq : '/' :: (value ++ between) = whole at again
    cases again with
    | nil => cases eq
    | filled knownToo endsToo =>
      -- nothing that is written is read again
      exact absurd ⟨_, eq, endsToo⟩ (not_heads_filled (fit.written known) ends later (fitSecond.colon knownToo))
    | copied _ laterToo =>
      obtain ⟨rfl, rfl⟩ := List.cons.inj eq
      obtain ⟨behind, rfl, inner⟩ := of_append_left (slashless_of_written (fit.written known)) laterToo
      exact .filled (by rw [known, Option.some_or]) ends (ih inner)
  | @copied c rest between apart later ih =>
    generalize eq : c :: between = whole at again
    cases again with
    | nil => cases eq
    | @filled name value behind result known ends laterToo =>
      obtain ⟨rfl, rfl⟩ := List.cons.inj eq
      have slashless := (fitSecond.undivided known).slashless
      obtain ⟨s, rfl, inner⟩ := of_append_right slashless later
      have endsHere : endsSegment s = true := inner.endsSegment_eq.symm.trans ends
      have unknown : first name = none :=
        Option.eq_none_iff_forall_ne_some.2 fun other found => apart name other found ⟨s, rfl, endsHere⟩
      obtain ⟨t, same, onward⟩ := of_append_left slashless (ih (append slashless laterToo))
      obtain rfl := List.append_cancel_left same
      exact .filled (by rw [unknown, Option.none_or, known]) endsHere onward
    | copied apartToo laterToo =>
      obtain ⟨rfl, rfl⟩ := List.cons.inj eq
      refine .copied (fun name value known heads => ?_) (ih laterToo)
      rcases Option.or_eq_some_iff.1 known with found | ⟨-, found⟩
      · exact apart name value found heads
      · exact apartToo name value found ((heads_copied_iff (fitSecond.undivided found).slashless later).2 heads)

end Substituted

end RequestTemplate.Placeholder
