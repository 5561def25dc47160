import RequestTemplate.Document.Printer
import RequestTemplate.Document.Reader

/-!
# Text between quotes

Every character of a text is written as itself or as an escape. Whatever the style, what
is written is read back as the character (`textBody_char`), and so is the whole text
(`textBody_quote`). No control character is written as itself (`le_of_mem_char`).
-/

namespace RequestTemplate.Document

open Reader

/-! ## Units of sixteen bits -/

theorem hexDigit?_hexDigit : ∀ n < 16, hexDigit? (Text.hexDigit n) = some n := by decide

theorem hex_four (n : Nat) :
    Text.hex 4 n = [Text.hexDigit (n / 16 / 16 / 16 % 16), Text.hexDigit (n / 16 / 16 % 16),
      Text.hexDigit (n / 16 % 16), Text.hexDigit (n % 16)] := rfl

theorem unit?_hex {n : Nat} (small : n < 0x10000) :
    unit? (Text.hexDigit (n / 16 / 16 / 16 % 16)) (Text.hexDigit (n / 16 / 16 % 16))
      (Text.hexDigit (n / 16 % 16)) (Text.hexDigit (n % 16)) = some n := by
  have digit (m : Nat) : hexDigit? (Text.hexDigit (m % 16)) = some (m % 16) :=
    hexDigit?_hexDigit (m % 16) (Nat.mod_lt m (by decide))
  simp only [unit?, digit, Option.bind_eq_bind, Option.bind_some, Option.some.injEq]
  omega

theorem lowSurrogate?_unitEscape {n : Nat} (bounds : 0xDC00 ≤ n ∧ n < 0xE000) (rest : List Char) :
    lowSurrogate? (unitEscape n ++ rest) = some (n - 0xDC00) := by
  simp only [unitEscape, hex_four, List.cons_append, List.nil_append, lowSurrogate?]
  rw [unit?_hex (by omega), Option.bind_eq_bind, Option.bind_some, if_pos bounds]

/-- An escape that is no half of a surrogate pair. -/
theorem textBody_unitEscape {c : Char} (small : c.toNat < 0x10000) (rest : List Char) :
    textBody (unitEscape c.toNat ++ rest) = (textBody rest).map fun read => (c :: read.1, read.2) := by
  have valid : c.toNat < 0xD800 ∨ 0xDFFF < c.toNat ∧ c.toNat < 0x110000 := c.valid
  have whole : ¬ (0xD800 ≤ c.toNat ∧ c.toNat < 0xDC00) := by omega
  simp only [unitEscape, hex_four, List.cons_append, List.nil_append]
  rw [textBody, unit?_hex small, Option.bind_eq_bind, Option.bind_some, if_neg whole]
  simp only [Char.ofNat_toNat]
  cases textBody rest <;> rfl

/-- Two escapes that are the halves of a surrogate pair. -/
theorem textBody_surrogates {c : Char} (large : 0x10000 ≤ c.toNat) (rest : List Char) :
    textBody (unitEscape (0xD800 + (c.toNat - 0x10000) / 0x400) ++
        (unitEscape (0xDC00 + (c.toNat - 0x10000) % 0x400) ++ rest)) =
      (textBody rest).map fun read => (c :: read.1, read.2) := by
  have valid : c.toNat < 0xD800 ∨ 0xDFFF < c.toNat ∧ c.toNat < 0x110000 := c.valid
  rw [unitEscape]
  simp only [hex_four, List.cons_append, List.nil_append]
  rw [textBody, unit?_hex (by omega), Option.bind_eq_bind, Option.bind_some, if_pos (by omega),
    lowSurrogate?_unitEscape (by omega)]
  have same : 0x10000 + (0xD800 + (c.toNat - 0x10000) / 0x400 - 0xD800) * 0x400 +
      (0xDC00 + (c.toNat - 0x10000) % 0x400 - 0xDC00) = c.toNat := by omega
  simp only [same, Char.ofNat_toNat]
  have behind : List.drop 6 (unitEscape (0xDC00 + (c.toNat - 0x10000) % 0x400) ++ rest) = rest := rfl
  rw [behind]
  cases textBody rest <;> rfl

theorem textBody_escape (letter : Char) {c : Char} (known : escaped? letter = some c) (rest : List Char) :
    textBody ('\\' :: letter :: rest) = (textBody rest).map fun read => (c :: read.1, read.2) := by
  have apart : letter ≠ 'u' := by
    rintro rfl
    exact absurd known nofun
  rw [textBody, known, Option.bind_eq_bind, Option.bind_some]
  · cases textBody rest <;> rfl
  · rintro _ _ _ _ _ rfl
    exact absurd rfl apart

theorem textBody_plain {c : Char} (quote : c ≠ '"') (backslash : c ≠ '\\') (rest : List Char) :
    textBody (c :: rest) = (textBody rest).map fun read => (c :: read.1, read.2) := by
  rw [textBody]
  · cases textBody rest <;> rfl
  all_goals simp_all

/-! ## Whole texts -/

/-- A character is read back from how it is written. -/
theorem textBody_char (style : Style) (c : Char) (rest : List Char) :
    textBody (style.char c ++ rest) = (textBody rest).map fun read => (c :: read.1, read.2) := by
  have named {n : Nat} (code : c.toNat = n) : Char.ofNat n = c := by rw [← code, Char.ofNat_toNat]
  simp only [Style.char]
  split
  · rename_i quoted
    obtain rfl | rfl := quoted
    · exact textBody_escape '"' rfl rest
    · exact textBody_escape '\\' rfl rest
  rename_i bare
  split
  · rename_i code
    exact textBody_escape 'b' (congrArg some (named code)) rest
  split
  · rename_i tab
    exact textBody_escape 't' (congrArg some tab.symm) rest
  split
  · rename_i line
    exact textBody_escape 'n' (congrArg some line.symm) rest
  split
  · rename_i code
    exact textBody_escape 'f' (congrArg some (named code)) rest
  split
  · rename_i line
    exact textBody_escape 'r' (congrArg some line.symm) rest
  split
  · exact textBody_unitEscape (by omega) rest
  split
  · exact textBody_plain (not_or.1 bare).1 (not_or.1 bare).2 rest
  split
  · rename_i small
    exact textBody_unitEscape small rest
  · rw [List.append_assoc]
    exact textBody_surrogates (by omega) rest

/-- A text is read back up to its closing quote. -/
theorem textBody_quote (style : Style) (s rest : List Char) :
    textBody (s.flatMap style.char ++ '"' :: rest) = some (s, rest) := by
  induction s with
  | nil => rw [List.flatMap_nil, List.nil_append, textBody]
  | cons c s ih => rw [List.flatMap_cons, List.append_assoc, textBody_char, ih, Option.map_some]

/-! ## Control characters -/

theorem le_hexDigit : ∀ n < 16, 0x20 ≤ (Text.hexDigit n).toNat := by decide

theorem le_of_mem_unitEscape {n : Nat} {x : Char} (member : x ∈ unitEscape n) : 0x20 ≤ x.toNat := by
  have digit (m : Nat) : 0x20 ≤ (Text.hexDigit (m % 16)).toNat := le_hexDigit (m % 16) (Nat.mod_lt m (by decide))
  simp only [unitEscape, hex_four, List.mem_cons, List.not_mem_nil, or_false] at member
  obtain rfl | rfl | rfl | rfl | rfl | rfl := member
  · decide
  · decide
  all_goals exact digit _

theorem le_of_mem_escape {letter x : Char} (visible : 0x20 ≤ letter.toNat) (member : x ∈ ['\\', letter]) :
    0x20 ≤ x.toNat := by
  obtain rfl | last := List.mem_cons.1 member
  · decide
  · rw [List.mem_singleton.1 last]
    exact visible

/-- No control character is left. -/
theorem le_of_mem_char {style : Style} {c x : Char} (member : x ∈ style.char c) : 0x20 ≤ x.toNat := by
  simp only [Style.char] at member
  split at member
  · rename_i quoted
    refine le_of_mem_escape ?_ member
    obtain rfl | rfl := quoted <;> decide
  iterate 5
    split at member
    · exact le_of_mem_escape (by decide) member
  split at member
  · exact le_of_mem_unitEscape member
  split at member
  · rw [List.mem_singleton.1 member]
    omega
  split at member
  · exact le_of_mem_unitEscape member
  · obtain first | second := List.mem_append.1 member
    · exact le_of_mem_unitEscape first
    · exact le_of_mem_unitEscape second

end RequestTemplate.Document
