import Mathlib
import RequestTemplate.Text.Utf8

/-!
# UTF-8 is read back

A character is written as one byte, or as a first byte that announces how many follow
and in which range the next one lies (`decodeFrom_encodeChar`). So text comes back from
its bytes (`decode_encode`).
-/

namespace RequestTemplate.Utf8

theorem toNat_ofNat {n : Nat} (small : n < 256) : (UInt8.ofNat n).toNat = n := by
  simpa using Nat.mod_eq_of_lt small

/-- A character is no surrogate and not beyond the last one. -/
theorem toNat_valid (c : Char) : c.toNat < 0xD800 ∨ (0xDFFF < c.toNat ∧ c.toNat < 0x110000) := c.valid

/-! ## One byte -/

theorem decodeFrom_single {n : Nat} (small : n < 0x80) (position : Nat) (rest : List UInt8) :
    decodeFrom none position (UInt8.ofNat n :: rest) =
      (decodeFrom none (position + 1) rest).map (Char.ofNat n :: ·) := by
  have byte := toNat_ofNat (show n < 256 by omega)
  rw [decodeFrom]
  simp only [byte, small, if_true]
  cases decodeFrom none (position + 1) rest <;> rfl

/-- The first byte of a longer character announces the others. -/
theorem decodeFrom_first {n position : Nat} {p : Pending} (bounds : 0x80 ≤ n ∧ n < 256)
    (announced : Pending.ofByte? position n = some p) (rest : List UInt8) :
    decodeFrom none position (UInt8.ofNat n :: rest) = decodeFrom (some p) (position + 1) rest := by
  have byte := toNat_ofNat bounds.2
  rw [decodeFrom]
  simp only [byte, show ¬n < 0x80 by omega, if_false, announced]

/-- A byte in the middle of a character adds six bits. -/
theorem decodeFrom_middle {p : Pending} {bits position : Nat} (bounds : bits < 64)
    (within : p.low ≤ 0x80 + bits ∧ 0x80 + bits ≤ p.high) (more : p.missing ≠ 1) (rest : List UInt8) :
    decodeFrom (some p) position (UInt8.ofNat (0x80 + bits) :: rest) =
      decodeFrom (some ⟨p.byte, p.start, p.value * 64 + bits, p.missing - 1, 0x80, 0xBF⟩) (position + 1) rest := by
  have byte := toNat_ofNat (show 0x80 + bits < 256 by omega)
  rw [decodeFrom]
  simp only [byte, within, and_self, if_true, more, if_false, Nat.add_sub_cancel_left]

/-- The last byte of a character completes it. -/
theorem decodeFrom_last {p : Pending} {bits position : Nat} (bounds : bits < 64)
    (within : p.low ≤ 0x80 + bits ∧ 0x80 + bits ≤ p.high) (last : p.missing = 1) (rest : List UInt8) :
    decodeFrom (some p) position (UInt8.ofNat (0x80 + bits) :: rest) =
      (decodeFrom none (position + 1) rest).map (Char.ofNat (p.value * 64 + bits) :: ·) := by
  have byte := toNat_ofNat (show 0x80 + bits < 256 by omega)
  rw [decodeFrom]
  simp only [byte, within, and_self, if_true, last, Nat.add_sub_cancel_left]
  cases decodeFrom none (position + 1) rest <;> rfl

/-! ## What a first byte announces -/

theorem ofByte?_two {n : Nat} (bounds : 0x80 ≤ n ∧ n < 0x800) (position : Nat) :
    Pending.ofByte? position (0xC0 + n / 64) = some ⟨0xC0 + n / 64, position, n / 64, 1, 0x80, 0xBF⟩ := by
  rw [Pending.ofByte?, if_pos (by omega), Nat.add_sub_cancel_left]

/-- The next byte of a character of three lies in the range that is announced: it is
    not overlong and no surrogate. -/
theorem ofByte?_three {n : Nat} (bounds : 0x800 ≤ n ∧ n < 0x10000) (valid : n < 0xD800 ∨ 0xDFFF < n)
    (position : Nat) :
    ∃ low high, Pending.ofByte? position (0xE0 + n / 4096) =
        some ⟨0xE0 + n / 4096, position, n / 4096, 2, low, high⟩ ∧
      low ≤ 0x80 + n / 64 % 64 ∧ 0x80 + n / 64 % 64 ≤ high := by
  rw [Pending.ofByte?, if_neg (by omega)]
  by_cases first : 0xE0 + n / 4096 = 0xE0
  · refine ⟨0xA0, 0xBF, ?_, by omega, by omega⟩
    have value : n / 4096 = 0 := by omega
    rw [if_pos first, first, value]
  · rw [if_neg first]
    by_cases surrogates : 0xE0 + n / 4096 = 0xED
    · refine ⟨0x80, 0x9F, ?_, by omega, by omega⟩
      have value : n / 4096 = 0xD := by omega
      rw [if_pos surrogates, surrogates, value]
    · refine ⟨0x80, 0xBF, ?_, by omega, by omega⟩
      rw [if_neg surrogates, if_pos (by omega), Nat.add_sub_cancel_left]

/-- The next byte of a character of four lies in the range that is announced: it is
    not overlong and not beyond the last character. -/
theorem ofByte?_four {n : Nat} (bounds : 0x10000 ≤ n ∧ n < 0x110000) (position : Nat) :
    ∃ low high, Pending.ofByte? position (0xF0 + n / 262144) =
        some ⟨0xF0 + n / 262144, position, n / 262144, 3, low, high⟩ ∧
      low ≤ 0x80 + n / 4096 % 64 ∧ 0x80 + n / 4096 % 64 ≤ high := by
  rw [Pending.ofByte?, if_neg (by omega), if_neg (by omega), if_neg (by omega), if_neg (by omega)]
  by_cases first : 0xF0 + n / 262144 = 0xF0
  · refine ⟨0x90, 0xBF, ?_, by omega, by omega⟩
    have value : n / 262144 = 0 := by omega
    rw [if_pos first, first, value]
  · rw [if_neg first]
    by_cases last : 0xF0 + n / 262144 = 0xF4
    · refine ⟨0x80, 0x8F, ?_, by omega, by omega⟩
      have value : n / 262144 = 4 := by omega
      rw [if_pos last, last, value]
    · refine ⟨0x80, 0xBF, ?_, by omega, by omega⟩
      rw [if_neg last, if_pos (by omega), Nat.add_sub_cancel_left]

/-! ## Whole characters and texts -/

theorem decodeFrom_encodeChar (c : Char) (position : Nat) (rest : List UInt8) :
    ∃ next, decodeFrom none position (encodeChar c ++ rest) =
      (decodeFrom none next rest).map (c :: ·) := by
  have valid := toNat_valid c
  have same := Char.ofNat_toNat c
  have bits (m : Nat) : m % 64 < 64 := Nat.mod_lt m (by decide)
  simp only [encodeChar]
  split_ifs with one two three
  · refine ⟨position + 1, ?_⟩
    rw [List.singleton_append, decodeFrom_single one, same]
  · refine ⟨position + 1 + 1, ?_⟩
    have whole : c.toNat / 64 * 64 + c.toNat % 64 = c.toNat := by omega
    simp only [List.cons_append, List.nil_append]
    rw [decodeFrom_first (by omega) (ofByte?_two (by omega) position),
      decodeFrom_last (bits _) (by simp only; omega) rfl, whole, same]
  · refine ⟨position + 1 + 1 + 1, ?_⟩
    have bounds : 0x800 ≤ c.toNat ∧ c.toNat < 0x10000 := by omega
    obtain ⟨low, high, announced, within⟩ := ofByte?_three bounds (by omega) position
    have whole : (c.toNat / 4096 * 64 + c.toNat / 64 % 64) * 64 + c.toNat % 64 = c.toNat := by omega
    simp only [List.cons_append, List.nil_append]
    rw [decodeFrom_first (by omega) announced, decodeFrom_middle (bits _) within (by simp),
      decodeFrom_last (bits _) (by simp only; omega) rfl, whole, same]
  · refine ⟨position + 1 + 1 + 1 + 1, ?_⟩
    have bounds : 0x10000 ≤ c.toNat ∧ c.toNat < 0x110000 := by omega
    obtain ⟨low, high, announced, within⟩ := ofByte?_four bounds position
    have whole : ((c.toNat / 262144 * 64 + c.toNat / 4096 % 64) * 64 + c.toNat / 64 % 64) * 64 +
        c.toNat % 64 = c.toNat := by omega
    simp only [List.cons_append, List.nil_append]
    rw [decodeFrom_first (by omega) announced, decodeFrom_middle (bits _) within (by simp),
      decodeFrom_middle (bits _) (by simp only; omega) (by simp),
      decodeFrom_last (bits _) (by simp only; omega) rfl, whole, same]

theorem decodeFrom_encode (s : List Char) (position : Nat) :
    decodeFrom none position (s.flatMap encodeChar) = .ok s := by
  induction s generalizing position with
  | nil => rfl
  | cons c s ih =>
    obtain ⟨next, step⟩ := decodeFrom_encodeChar c position (s.flatMap encodeChar)
    rw [List.flatMap_cons, step, ih]
    rfl

/-- Text is read back from its bytes. -/
theorem decode_encode (text : String) : decode (encode text) = .ok text := by
  rw [decode, encode, decodeFrom_encode]
  simp [Except.map]

end RequestTemplate.Utf8
