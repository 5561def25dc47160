import RequestTemplate.Proofs.Blank

/-!
# Changes of white space and tags

A seam is a piece of text with the blanks before it in two texts, which are the
same but for these. `trace_text_iff` says that both texts have the same tags if
and only if the blanks differ only outside tags, and `live_text` that the second
text has one live opener more for each opener that loses its backslash.
-/

namespace RequestTemplate.Markup
open Delimiter
open Text (isBlank)

/-- A token with the blanks that stand before it in a source and in its layout. -/
structure Seam where
  old : List Char
  new : List Char
  raw : List Char
  deriving DecidableEq

namespace Seam

/-- The tokens with the blanks of one side. -/
def text (blanks : Seam → List Char) (seams : List Seam) : List Char :=
  seams.flatMap fun seam => blanks seam ++ seam.raw

/-- A token that is told apart from what stands before it: it stands behind a
    sealed text, begins as markup does, or is a template on a line of its own. -/
structure Fits (behind : Bool) (seam : Seam) : Prop where
  old : Blank seam.old
  new : Blank seam.new
  visible : ∃ c rest, seam.raw = c :: rest ∧ isBlank c = false
  joins : behind = true ∨ seam.raw.head? = some '<' ∨ (opens seam.raw = true ∧ seam.new ≠ [])

def Chained (behind : Bool) : List Seam → Prop
  | [] => True
  | seam :: rest => seam.Fits behind ∧ Chained (sealed seam.raw) rest

/-- The blanks change, and with them whether the opener behind them is hidden. -/
def Bares (odd : Bool) (seam : Seam) : Prop :=
  seam.old ≠ seam.new ∧ oddBehind odd seam.old = true ∧ opens seam.raw = true

instance (odd : Bool) (seam : Seam) : Decidable (seam.Bares odd) := by
  unfold Bares
  infer_instance

/-- How many openers lose the backslash that hides them. -/
def bared (odd : Bool) : List Seam → Nat
  | [] => 0
  | seam :: rest =>
    (if seam.Bares odd then 1 else 0) + bared (oddBehind odd (seam.old ++ seam.raw)) rest

@[simp] theorem text_nil (blanks : Seam → List Char) : text blanks [] = [] := rfl

@[simp] theorem text_cons (blanks : Seam → List Char) (seam : Seam) (rest : List Seam) :
    text blanks (seam :: rest) = blanks seam ++ seam.raw ++ text blanks rest := rfl

theorem forall_split {p : List Seam → Seam → Prop} {seam : Seam} {seams : List Seam} :
    (∀ front next rest, seam :: seams = front ++ next :: rest → p front next) ↔
      p [] seam ∧ ∀ front next rest, seams = front ++ next :: rest → p (seam :: front) next := by
  constructor
  · intro all
    exact ⟨all [] seam seams rfl, fun front next rest split => all (seam :: front) next rest (by simp [split])⟩
  · rintro ⟨here, later⟩ front next rest split
    cases front with
    | nil =>
      obtain ⟨rfl, rfl⟩ := List.cons.inj split
      exact here
    | cons first front =>
      obtain ⟨rfl, tail⟩ := List.cons.inj split
      exact later front next rest tail

theorem bared_eq_zero_iff {odd : Bool} {seams : List Seam} :
    bared odd seams = 0 ↔ ∀ front seam rest, seams = front ++ seam :: rest →
      ¬seam.Bares (oddBehind odd (text old front)) := by
  induction seams generalizing odd with
  | nil => simp [bared]
  | cons seam rest ih =>
    rw [bared, Nat.add_eq_zero_iff, ih, forall_split]
    refine and_congr (by simp) ?_
    simp only [text_cons, oddBehind_append]

/-! ## Counting openers -/

theorem apart_text {blanks : Seam → List Char} {seams : List Seam}
    (blank : ∀ seam ∈ seams, Blank (blanks seam)) (chained : Chained false seams) :
    Apart (text blanks seams) := by
  cases seams with
  | nil => exact apart_nil
  | cons seam rest =>
    intro c first
    cases lead : blanks seam with
    | nil =>
      obtain ⟨d, raw, eq, -⟩ := chained.1.visible
      obtain rfl : d = c := by simpa [lead, eq] using first
      rcases chained.1.joins with sealed | head | ⟨opening, -⟩
      · exact absurd sealed (by decide)
      · obtain rfl : d = '<' := by simpa [eq] using head
        decide
      · exact apart_of_opens opening d (by simp [eq])
    | cons d lead' =>
      obtain rfl : d = c := by simpa [lead] using first
      have blank := blank seam (by simp) d (by simp [lead])
      exact ⟨ne_of_isBlank blank (by decide), ne_of_isBlank blank (by decide),
        ne_of_isBlank blank (by decide)⟩

theorem live_text_cons {blanks : Seam → List Char} {behind odd : Bool} {seam : Seam} {rest : List Seam}
    (blank : ∀ next ∈ seam :: rest, Blank (blanks next)) (chained : Chained behind (seam :: rest)) :
    live odd (text blanks (seam :: rest)) =
      live (oddBehind odd (blanks seam)) seam.raw +
        live (oddBehind odd (blanks seam ++ seam.raw)) (text blanks rest) := by
  rw [text_cons, List.append_assoc, live_blank_append (blank seam (by simp)), oddBehind_append]
  cases ends : sealed seam.raw with
  | true => exact openers_append_of_sealed ends false _ _
  | false =>
    have later : Chained false rest := by simpa only [ends] using chained.2
    exact openers_append (apart_text (fun next member => blank next (by simp [member])) later) false _ _

theorem blank_of_chained {behind : Bool} {seams : List Seam} (chained : Chained behind seams) :
    (∀ seam ∈ seams, Blank seam.old) ∧ ∀ seam ∈ seams, Blank seam.new := by
  induction seams generalizing behind with
  | nil => simp
  | cons seam rest ih =>
    obtain ⟨old, new⟩ := ih chained.2
    exact ⟨List.forall_mem_cons.2 ⟨chained.1.old, old⟩, List.forall_mem_cons.2 ⟨chained.1.new, new⟩⟩

theorem oddBehind_raw {behind odd : Bool} {seam : Seam} (fits : seam.Fits behind)
    (even : behind = true → odd = false) :
    oddBehind odd (seam.new ++ seam.raw) = oddBehind odd (seam.old ++ seam.raw) := by
  rw [oddBehind_append, oddBehind_append]
  obtain ⟨c, rest, raw, -⟩ := fits.visible
  rcases fits.joins with sealed | head | ⟨opening, -⟩
  · simp [even sealed, oddBehind_of_blank fits.old, oddBehind_of_blank fits.new]
  · obtain rfl : c = '<' := by simpa [raw] using head
    rw [raw, oddBehind_cons, oddBehind_cons, oddAfter_of_ne (by decide), oddAfter_of_ne (by decide)]
  · exact oddBehind_of_opens opening _ _

/-- A token holds one live opener more where its own opener loses the backslash. -/
theorem live_raw {behind odd : Bool} {seam : Seam} (fits : seam.Fits behind)
    (even : behind = true → odd = false) :
    live (oddBehind odd seam.new) seam.raw =
      live (oddBehind odd seam.old) seam.raw + if seam.Bares odd then 1 else 0 := by
  obtain ⟨c, rest, raw, -⟩ := fits.visible
  have hides : oddBehind odd seam.old = true → odd = true ∧ seam.old = [] := by
    simp [oddBehind_of_blank fits.old]
  rcases fits.joins with sealed | head | ⟨opening, moved⟩
  · have kept : ¬seam.Bares odd := fun bares =>
      absurd ((even sealed).symm.trans (hides bares.2.1).1) (by decide)
    rw [if_neg kept, even sealed, oddBehind_of_blank fits.old, oddBehind_of_blank fits.new]
    rfl
  · obtain rfl : c = '<' := by simpa [raw] using head
    have literal : opens seam.raw = false := by rw [raw]; exact opens_cons_of_ne (by decide) rest
    have kept : ¬seam.Bares odd := fun bares => absurd (literal.symm.trans bares.2.2) (by decide)
    rw [if_neg kept, raw] at *
    simp [live, openers, literal, oddAfter_of_ne]
  · have shown : oddBehind odd seam.new = false := by simp [oddBehind_of_blank fits.new, moved]
    rw [live, live, openers_of_opens opening, openers_of_opens opening, shown]
    by_cases hidden : oddBehind odd seam.old = true
    · have bares : seam.Bares odd :=
        ⟨by rw [(hides hidden).2]; exact moved.symm, hidden, opening⟩
      simp [hidden, bares]
      omega
    · have kept : ¬seam.Bares odd := fun bares => hidden bares.2.1
      simp [hidden, kept]

theorem live_text {behind odd : Bool} {seams : List Seam} (chained : Chained behind seams)
    (even : behind = true → odd = false) :
    live odd (text new seams) = live odd (text old seams) + bared odd seams := by
  induction seams generalizing behind odd with
  | nil => rfl
  | cons seam rest ih =>
    obtain ⟨olds, news⟩ := blank_of_chained chained
    have evenLater : sealed seam.raw = true → oddBehind odd (seam.old ++ seam.raw) = false := fun ends => by
      rw [oddBehind_append, oddBehind_of_sealed ends]
    have later := ih chained.2 evenLater
    rw [live_text_cons news chained, live_text_cons olds chained, live_raw chained.1 even,
      oddBehind_raw chained.1 even, later, bared]
    omega

/-! ## Reading both sides -/

/-- Whatever the blanks before a token, its first character leads to the same place. -/
theorem step_raw {place : Place} {behind odd : Bool} {seam : Seam} (fits : seam.Fits behind)
    (stands : place.Stands behind odd) (kept : ¬seam.Bares odd) {c : Char} {rest : List Char}
    (raw : seam.raw = c :: rest) :
    (place.after seam.new).step c = (place.after seam.old).step c ∧
      (place.after seam.new).mark c = (place.after seam.old).mark c := by
  rw [Place.after_of_blank stands.tracks fits.old, Place.after_of_blank stands.tracks fits.new]
  rcases fits.joins with sealed | head | ⟨opening, moved⟩
  · simp [stands.rests sealed]
  · obtain rfl : c = '<' := by simpa [raw] using head
    have same := Place.step_rested stands.tracks (.inl rfl)
    refine ⟨?_, by simp [Place.mark]⟩
    split <;> split <;> simp [same]
  · obtain rfl : c = '$' := by simpa [raw] using head_of_opens opening
    refine ⟨?_, by simp [Place.mark]⟩
    by_cases still : seam.old = []
    · have even : odd = false := by
        cases odd with
        | false => rfl
        | true => exact absurd ⟨by rw [still]; exact moved.symm, by rw [still]; rfl, opening⟩ kept
      rw [if_pos still, if_neg moved, Place.step_rested stands.tracks (.inr ⟨rfl, even⟩)]
    · rw [if_neg still, if_neg moved]

theorem after_text {place : Place} {behind odd : Bool} {seams : List Seam}
    (chained : Chained behind seams) (stands : place.Stands behind odd) (kept : bared odd seams = 0) :
    place.after (text new seams) = place.after (text old seams) := by
  induction seams generalizing place behind odd with
  | nil => rfl
  | cons seam rest ih =>
    obtain ⟨here, later⟩ := Nat.add_eq_zero_iff.1 kept
    have here : ¬seam.Bares odd := by simpa using here
    obtain ⟨c, raw, eq, -⟩ := chained.1.visible
    have same : place.after (seam.new ++ seam.raw) = place.after (seam.old ++ seam.raw) := by
      simp only [Place.after_append, eq, Place.after_cons, (step_raw chained.1 stands here eq).1]
    rw [text_cons, text_cons, Place.after_append _ (seam.new ++ _), Place.after_append _ (seam.old ++ _),
      same]
    exact ih chained.2 (stands.after seam.old seam.raw) later

/-- Both sides read the same inside tags if and only if no blanks change there. -/
theorem trace_text_iff {place : Place} {behind odd : Bool} {seams : List Seam}
    (chained : Chained behind seams) (stands : place.Stands behind odd) (kept : bared odd seams = 0) :
    place.trace (text new seams) = place.trace (text old seams) ↔
      ∀ front seam rest, seams = front ++ seam :: rest → seam.old ≠ seam.new →
        (place.after (text old front)).inside = false := by
  induction seams generalizing place behind odd with
  | nil => simp
  | cons seam rest ih =>
    obtain ⟨here, later⟩ := Nat.add_eq_zero_iff.1 kept
    have here : ¬seam.Bares odd := by simpa using here
    obtain ⟨c, raw, eq, visible⟩ := chained.1.visible
    obtain ⟨step, mark⟩ := step_raw chained.1 stands here eq
    have landed : ((place.after seam.old).step c).after raw = place.after (seam.old ++ seam.raw) := by
      rw [Place.after_append, eq, Place.after_cons]
    have onward := ih chained.2 (stands.after seam.old seam.raw) later
    have olds := Place.trace_blank_append stands.tracks chained.1.old c raw (text old rest)
    have news := Place.trace_blank_append stands.tracks chained.1.new c raw (text new rest)
    rw [text_cons, text_cons, forall_split, eq, olds, news, step, mark, landed]
    simp only [text_nil, Place.after_nil, text_cons, Place.after_append _ (seam.old ++ seam.raw)]
    rw [← onward]
    cases inside : place.inside with
    | false => simp
    | true =>
      -- The first character that is no blank stands at the same place on both sides.
      have newMark := (place.after seam.old).mark_notMem visible chained.1.new
      have oldMark := (place.after seam.old).mark_notMem visible chained.1.old
      simp only [if_true, List.append_assoc, List.cons_append, List.nil_append,
        Place.append_cons_inj newMark oldMark, List.append_cancel_left_eq, true_and]
      refine and_congr ⟨fun same moved => ?_, fun still => ?_⟩ Iff.rfl
      · exact absurd (List.map_injective_iff.2 (fun _ _ => Option.some.inj) same).symm moved
      · by_cases same : seam.old = seam.new
        · rw [same]
        · exact absurd (still same) (by simp)

end Seam

end RequestTemplate.Markup
