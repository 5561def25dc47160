import Mathlib.Data.List.DropRight
import Mathlib.Data.List.Forall2
import RequestTemplate.Proofs.Dictionary
import RequestTemplate.Proofs.Numeral
import RequestTemplate.Proofs.Quote

/-!
# Lists and mappings in JSON text

Between brackets stand the texts of the parts, with a comma and space between two of
them. If each is read as its part, wherever no number could go on behind it
(`Document.Reader.Reads`), then the whole is read as the list or the mapping of the parts
(`items?_intercalate`, `members?_intercalate`).
-/

namespace RequestTemplate.Document

open Reader

namespace Reader

/-! ## Space -/

/-- The text consists of space. -/
def Space (s : List Char) : Prop :=
  ∀ c ∈ s, isSpace c = true

variable {gap rest s : List Char} {c : Char}

theorem skip_append (space : Space gap) (s : List Char) : skip (gap ++ s) = skip s :=
  List.dropWhile_append_of_pos space

theorem skip_cons (visible : isSpace c = false) (s : List Char) : skip (c :: s) = c :: s := by
  rw [skip, List.dropWhile_cons_of_neg (by simp [visible])]

theorem ends_append (space : Space gap) (ends : Ends rest) : Ends (gap ++ rest) := by
  cases gap with
  | nil => exact ends
  | cons c gap =>
    intro d first
    obtain rfl := Option.some.inj first
    have blank : isSpace c = true := space c List.mem_cons_self
    simp only [isSpace, Bool.or_eq_true, beq_iff_eq] at blank
    obtain ((rfl | rfl) | rfl) | rfl := blank <;> decide

theorem ends_cons (other : c ∈ [',', ']', '}']) (rest : List Char) : Ends (c :: rest) := by
  intro d first
  obtain rfl := Option.some.inj first
  simp only [List.mem_cons, List.not_mem_nil, or_false] at other
  obtain rfl | rfl | rfl := other <;> decide

/-! ## Where a document begins -/

variable {numeral : Numeral} {room levels : Nat}

theorem Numeral.read?_nil {negative : Bool} : numeral.read? negative [] = none :=
  Option.eq_none_iff_forall_not_mem.2 fun _ read => nomatch numeral.digital read

theorem Numeral.read?_cons {negative : Bool} (other : c.isDigit = false) :
    numeral.read? negative (c :: rest) = none := by
  refine Option.eq_none_iff_forall_not_mem.2 fun r read => ?_
  obtain ⟨d, more, same, digit⟩ := numeral.digital read
  rw [← (List.cons.inj same).1, other] at digit
  cases digit

/-- A document begins with neither space nor an end. -/
theorem exists_of_document? {r : Document × List Char} (read : document? numeral room levels s = some r) :
    ∃ c rest, s = c :: rest ∧ isSpace c = false ∧ c ≠ ']' ∧ c ≠ '}' := by
  cases levels with
  | zero => simp [document?] at read
  | succ levels =>
  cases s with
  | nil => simp [document?, Numeral.read?_nil] at read
  | cons c rest =>
    refine ⟨c, rest, rfl, Bool.eq_false_iff.2 fun blank => ?_, ?_, ?_⟩
    · simp only [isSpace, Bool.or_eq_true, beq_iff_eq] at blank
      obtain ((rfl | rfl) | rfl) | rfl := blank <;> simp [document?, Numeral.read?_cons] at read
    · rintro rfl
      simp [document?, Numeral.read?_cons] at read
    · rintro rfl
      simp [document?, Numeral.read?_cons] at read

/-! ## Numbers -/

theorem document?_number {n : Scalar} (read : numeral.read? false s = some (n, rest)) :
    document? numeral room (levels + 1) s = some (scalar n, rest) := by
  obtain ⟨c, tail, rfl, digit⟩ := numeral.digital read
  have apart (d : Char) (other : d.isDigit = false) : c ≠ d := by
    rintro rfl
    exact absurd digit (by simp [other])
  rw [document?, read]
  · rfl
  all_goals
    intro _ same
    exact absurd (List.cons.inj same).1 (apart _ rfl)

theorem document?_minus {n : Scalar} (read : numeral.read? true s = some (n, rest)) :
    document? numeral room (levels + 1) ('-' :: s) = some (scalar n, rest) := by
  rw [document?, read]
  rfl

/-! ## Lists and mappings -/

/-- The text is read as the document wherever no number could go on behind it. -/
def Reads (numeral : Numeral) (room levels : Nat) (text : List Char) (d : Document) : Prop :=
  ∀ rest, Ends rest → document? numeral room levels (text ++ rest) = some (d, rest)

theorem Reads.exists_cons {text : List Char} {d : Document} (read : Reads numeral room levels text d) :
    ∃ c rest, text = c :: rest ∧ isSpace c = false ∧ c ≠ ']' ∧ c ≠ '}' :=
  exists_of_document? ((congrArg _ (List.append_nil text).symm).trans (read [] nofun))

theorem skip_skip (s : List Char) : skip (skip s) = skip s :=
  List.dropWhile_idempotent _ s

theorem items?_congr {count : Nat} {t : List Char} (same : skip s = skip t) :
    items? numeral room levels count s = items? numeral room levels count t := by
  cases count with
  | zero => rw [items?, items?]
  | succ count => rw [items?, items?, same]

theorem members?_congr {count : Nat} {t : List Char} (same : skip s = skip t) :
    members? numeral room levels count s = members? numeral room levels count t := by
  cases count with
  | zero => rw [members?, members?]
  | succ count => rw [members?, members?, same]

theorem document?_list {items : List Document} (read : items? numeral room levels room s = some (items, rest)) :
    document? numeral room (levels + 1) ('[' :: s) = some (list items, rest) := by
  obtain ⟨c, more, start, other⟩ : ∃ c more, skip s = c :: more ∧ c ≠ ']' := by
    cases room with
    | zero => simp [items?] at read
    | succ room =>
      rw [items?, Option.bind_eq_bind, Option.bind_eq_some_iff] at read
      obtain ⟨first, here, -⟩ := read
      obtain ⟨c, more, start, -, other, -⟩ := exists_of_document? here
      exact ⟨c, more, start, other⟩
  have again : items? numeral room levels room (c :: more) = some (items, rest) := by
    rw [← read]
    exact items?_congr (by rw [← start, skip_skip])
  rw [document?, start]
  split
  · rename_i same
    exact absurd (List.cons.inj same).1 other
  · rw [again]
    rfl

theorem document?_mapping {entries : List (Scalar × Document)}
    (read : members? numeral room levels room s = some (entries, rest)) :
    document? numeral room (levels + 1) ('{' :: s) = some (mapping (Dictionary.ofList entries), rest) := by
  obtain ⟨more, start⟩ : ∃ more, skip s = '"' :: more := by
    cases room with
    | zero => simp [members?] at read
    | succ room =>
      rw [members?] at read
      split at read
      · exact ⟨_, ‹_›⟩
      · cases read
  have again : members? numeral room levels room ('"' :: more) = some (entries, rest) := by
    rw [← read]
    exact members?_congr (by rw [← start, skip_skip])
  rw [document?, start]
  change (members? numeral room levels room ('"' :: more) >>= _) = _
  rw [again]
  rfl

/-- An item is read up to what stands behind it. -/
theorem Reads.items? {text : List Char} {item : Document} (read : Reads numeral room levels text item)
    (ends : Ends rest) (count : Nat) :
    items? numeral room levels (count + 1) (text ++ rest) =
      match skip rest with
      | ',' :: rest => do
        let (others, final) ← Reader.items? numeral room levels count rest
        some (item :: others, final)
      | ']' :: rest => some ([item], rest)
      | _ => none := by
  obtain ⟨c, more, rfl, visible, -⟩ := read.exists_cons
  rw [Reader.items?, List.cons_append, skip_cons visible, ← List.cons_append, read _ ends]
  rfl

theorem items?_intercalate {texts : List (List Char)} {items : List Document} (given : items ≠ [])
    (read : List.Forall₂ (Reads numeral room levels) texts items) {closing : List Char} (space : Space gap)
    (ending : Space closing) {count : Nat} (enough : items.length ≤ count) (rest : List Char) :
    items? numeral room levels count (List.intercalate (',' :: gap) texts ++ (closing ++ ']' :: rest)) =
      some (items, rest) := by
  induction read generalizing count with
  | nil => exact absurd rfl given
  | @cons text item texts items head tail ih =>
    cases count with
    | zero => cases enough
    | succ count =>
    cases tail with
    | nil =>
      have ends : Ends (closing ++ ']' :: rest) := ends_append ending (ends_cons (by decide) rest)
      rw [List.intercalate_singleton, head.items? ends, skip_append ending, skip_cons (by decide)]
      rfl
    | @cons next second others several here there =>
      have later := ih (by simp) (Nat.le_of_succ_le_succ enough)
      rw [List.intercalate_cons_cons, List.append_assoc, List.append_assoc, List.cons_append (a := ',')]
      generalize List.intercalate (',' :: gap) (next :: others) ++ (closing ++ ']' :: rest) = behind at later ⊢
      rw [head.items? (ends_cons (by decide) (gap ++ behind)), skip_cons (by decide)]
      simp only [items?_congr (skip_append space behind), later, Option.bind_eq_bind, Option.bind_some]

/-- The text is read as the member: its name between quotes, a colon and its value. -/
inductive ReadsMember (numeral : Numeral) (room levels : Nat) : List Char → Scalar × Document → Prop
  | member (style : Style) (name : String) {gap content : List Char} (space : Space gap) {value : Document}
    (read : Reads numeral room levels content value) :
    ReadsMember numeral room levels ((style.quote name).toList ++ ':' :: (gap ++ content)) (.text name, value)

theorem toList_quote_append (style : Style) (name : String) (rest : List Char) :
    (style.quote name).toList ++ rest = '"' :: (name.toList.flatMap style.char ++ '"' :: rest) := by
  simp [Style.quote]

/-- A member is read up to what stands behind its value. -/
theorem ReadsMember.members? {text : List Char} {entry : Scalar × Document}
    (read : ReadsMember numeral room levels text entry) (ends : Ends rest) (count : Nat) :
    members? numeral room levels (count + 1) (text ++ rest) =
      match skip rest with
      | ',' :: rest => do
        let (others, final) ← Reader.members? numeral room levels count rest
        some (entry :: others, final)
      | '}' :: rest => some ([entry], rest)
      | _ => none := by
  obtain ⟨style, name, space, value⟩ := read
  rename_i gap content value
  obtain ⟨c, more, rfl, visible, -⟩ := value.exists_cons
  rw [List.append_assoc, List.cons_append, List.append_assoc, toList_quote_append, Reader.members?, skip_cons (by decide)]
  simp only [textBody_quote, Option.bind_eq_bind, Option.bind_some, String.ofList_toList]
  rw [skip_cons (by decide)]
  simp only [skip_append space, List.cons_append, skip_cons visible]
  rw [← List.cons_append, value _ ends]
  rfl

theorem members?_intercalate {texts : List (List Char)} {entries : List (Scalar × Document)} (given : entries ≠ [])
    (read : List.Forall₂ (ReadsMember numeral room levels) texts entries) {closing : List Char} (space : Space gap)
    (ending : Space closing) {count : Nat} (enough : entries.length ≤ count) (rest : List Char) :
    members? numeral room levels count (List.intercalate (',' :: gap) texts ++ (closing ++ '}' :: rest)) =
      some (entries, rest) := by
  induction read generalizing count with
  | nil => exact absurd rfl given
  | @cons text entry texts entries head tail ih =>
    cases count with
    | zero => cases enough
    | succ count =>
    cases tail with
    | nil =>
      have ends : Ends (closing ++ '}' :: rest) := ends_append ending (ends_cons (by decide) rest)
      rw [List.intercalate_singleton, head.members? ends, skip_append ending, skip_cons (by decide)]
      rfl
    | @cons next second others several here there =>
      have later := ih (by simp) (Nat.le_of_succ_le_succ enough)
      rw [List.intercalate_cons_cons, List.append_assoc, List.append_assoc, List.cons_append (a := ',')]
      generalize List.intercalate (',' :: gap) (next :: others) ++ (closing ++ '}' :: rest) = behind at later ⊢
      rw [head.members? (ends_cons (by decide) (gap ++ behind)), skip_cons (by decide)]
      simp only [members?_congr (skip_append space behind), later, Option.bind_eq_bind, Option.bind_some]

end Reader

end RequestTemplate.Document
