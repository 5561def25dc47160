import RequestTemplate.Proofs.Printed
import RequestTemplate.Text.Terminal

/-!
# Documents do not control a terminal

The only control character in the text of a document is the line feed
(`Document.calm_print`). So a terminal is shown what was printed
(`Terminal.plain_of_calm`).
-/

namespace RequestTemplate

/-- No character of the text is a control character in ASCII, but for line feeds. -/
def Calm (s : List Char) : Prop :=
  ∀ c ∈ s, c = '\n' ∨ 0x20 ≤ c.toNat

namespace Terminal

theorem withoutSequences_of_calm {s : List Char} (calm : Calm s) : withoutSequences s = s := by
  induction s with
  | nil => rw [withoutSequences]
  | cons c s ih =>
    obtain ⟨here, there⟩ := List.forall_mem_cons.1 calm
    rw [withoutSequences, ih there]
    rintro _ rfl
    exact absurd here (by decide)

theorem plain_of_calm {s : String} (calm : Calm s.toList) : plain s = s := by
  rw [plain, withoutSequences_of_calm calm, String.ofList_toList]

end Terminal

/-! ## Calm text -/

variable {s t : List Char}

theorem calm_nil : Calm [] :=
  nofun

theorem calm_append : Calm (s ++ t) ↔ Calm s ∧ Calm t :=
  List.forall_mem_append

theorem calm_cons {c : Char} : Calm (c :: s) ↔ (c = '\n' ∨ 0x20 ≤ c.toNat) ∧ Calm s :=
  List.forall_mem_cons

theorem calm_intercalate {texts : List (List Char)} (between : Calm s) (each : ∀ text ∈ texts, Calm text) :
    Calm (List.intercalate s texts) := by
  induction texts with
  | nil => exact nofun
  | cons text texts ih =>
    obtain ⟨first, later⟩ := List.forall_mem_cons.1 each
    cases texts with
    | nil => rwa [List.intercalate_singleton]
    | cons =>
      rw [List.intercalate_cons_cons]
      exact calm_append.2 ⟨calm_append.2 ⟨first, between⟩, ih later⟩

theorem calm_of_digits (digital : Document.Reader.Digits s) : Calm s := by
  intro c member
  have digit : (48 : UInt32) ≤ c.val ∧ c.val ≤ 57 := by simpa [Char.isDigit] using digital c member
  have least : 48 ≤ c.toNat := digit.1
  omega

theorem Decimal.calm_print (layout : Layout) (d : Decimal) : Calm (d.print layout).toList := by
  have digits := calm_of_digits (Document.Reader.digits_toString d.digits)
  have zeros (n : Nat) : Calm (zeros n).toList := by
    rw [toList_zeros]
    exact calm_of_digits (Document.Reader.digits_zeros n)
  have padded (n : Nat) := calm_of_digits (digits_padded layout.exponentWidth n)
  simp only [print]
  generalize (toString d.digits).toList = s at digits
  have before (k : Nat) : Calm (s.take k) := fun c member => digits c (List.mem_of_mem_take member)
  have behind (k : Nat) : Calm (s.drop k) := fun c member => digits c (List.mem_of_mem_drop member)
  have tail : Calm s.tail := by simpa using behind 1
  split_ifs <;> simp [calm_append, calm_cons, calm_nil, digits, zeros, padded, before, behind, tail]

namespace Document

theorem calm_quote (style : Style) (text : String) : Calm (style.quote text).toList := by
  have inside : Calm (text.toList.flatMap style.char) := by
    intro x member
    obtain ⟨c, -, here⟩ := List.mem_flatMap.1 member
    exact .inr (le_of_mem_char here)
  simp [Style.quote, calm_append, calm_cons, calm_nil, inside]

theorem calm_scalar (style : Style) (s : Scalar) : Calm (style.scalar s).toList := by
  cases s with
  | null => simp [Style.scalar, calm_cons, calm_nil]
  | bool value => cases value <;> simp [Style.scalar, calm_cons, calm_nil]
  | integer n =>
    cases n with
    | ofNat n => exact calm_of_digits (Reader.digits_toString n)
    | negSucc n =>
      have digits := calm_of_digits (Reader.digits_toString (n + 1))
      rw [Style.scalar, toList_negSucc]
      exact calm_cons.2 ⟨.inr (by decide), digits⟩
  | decimal d => exact Decimal.calm_print .value d
  | text | date | dateTime => exact calm_quote style _

theorem calm_newline (style : Style) (depth : Nat) : Calm (style.newline depth).toList := by
  obtain ⟨_ | width, ascii⟩ := style
  · exact calm_nil
  · rw [Style.newline, String.toList_ofList]
    refine calm_cons.2 ⟨.inl rfl, fun c member => ?_⟩
    rw [List.eq_of_mem_replicate member]
    decide

theorem calm_enclose (style : Style) (depth : Nat) {opening closing : String} {texts : List String}
    (before : Calm opening.toList) (behind : Calm closing.toList) (each : ∀ text ∈ texts, Calm text.toList) :
    Calm (style.enclose depth opening closing texts).toList := by
  by_cases given : texts = []
  · subst given
    simp [Style.enclose, calm_append, before, behind]
  · have between : Calm (',' :: (style.newline (depth + 1)).toList) :=
      calm_cons.2 ⟨.inr (by decide), calm_newline style (depth + 1)⟩
    have inner := calm_intercalate between (List.forall_mem_map.2 each)
    simp [toList_enclose given, calm_append, before, behind, calm_newline, inner]

/-- No document is printed with a control character other than a line feed. -/
theorem calm_printAt (style : Style) (d : Document) (depth : Nat) : Calm (printAt style depth d).toList := by
  induction d using induct generalizing depth with
  | scalar s => exact calm_scalar style s
  | list items ih =>
    rw [printAt, printItems_eq_map]
    refine calm_enclose style depth (by simp [calm_cons, calm_nil]) (by simp [calm_cons, calm_nil]) ?_
    exact List.forall_mem_map.2 fun d member => ih d member (depth + 1)
  | mapping entries ih =>
    rw [printAt, printEntries_eq_map]
    refine calm_enclose style depth (by simp [calm_cons, calm_nil]) (by simp [calm_cons, calm_nil]) ?_
    refine List.forall_mem_map.2 fun entry member => ?_
    have value := ih entry member (depth + 1)
    rw [printEntry, Style.member]
    split <;> simp [calm_append, calm_cons, calm_quote, value]

end Document

end RequestTemplate
