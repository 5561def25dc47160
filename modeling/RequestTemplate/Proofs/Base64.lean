import Mathlib
import RequestTemplate.Text.Base64

/-!
# Base64 is read back

Reading takes the text of three bytes at a time, and of one or two bytes at the end
(`decodeFrom_encodeBytes`). So bytes come back from their text (`decode_encode`). Text
outside ASCII is refused as such, before anything else (`decode_eq_notAscii_iff`).
-/

namespace RequestTemplate.Base64

/-! ## Digits -/

theorem digit?_digit {n : Nat} (small : n < 64) : digit? (digit n) = some n := by
  revert n
  decide

theorem digit_ne_pad {n : Nat} (small : n < 64) : digit n ≠ '=' := by
  revert n
  decide

theorem toNat_digit_lt {n : Nat} (small : n < 64) : (digit n).toNat < 128 := by
  revert n
  decide

/-- A digit is held until there are four. -/
theorem decodeFrom_digit {held : List Nat} {d : Nat} (small : d < 64) (few : held.length < 3) (read : Nat)
    (rest : List Char) :
    decodeFrom held read 0 (digit d :: rest) = decodeFrom (held ++ [d]) (read + 1) 0 rest := by
  rw [decodeFrom, if_neg (digit_ne_pad small), digit?_digit small]
  simp [show held.length ≠ 3 by omega]

/-- The fourth digit gives the bytes of a quad. -/
theorem decodeFrom_fourth {held : List Nat} {d : Nat} (small : d < 64) (full : held.length = 3) (read : Nat)
    (rest : List Char) :
    decodeFrom held read 0 (digit d :: rest) =
      (decodeFrom [] (read + 1) 0 rest).map (bytesOf (held ++ [d]) ++ ·) := by
  rw [decodeFrom, if_neg (digit_ne_pad small), digit?_digit small]
  simp only [ne_eq, not_true_eq_false, if_false, full, if_true]
  cases decodeFrom [] (read + 1) 0 rest <;> rfl

/-! ## Quads -/

theorem mod_sixtyFour_lt (n : Nat) : n % 64 < 64 := Nat.mod_lt n (by decide)

theorem decodeFrom_quad (n read : Nat) (rest : List Char) :
    decodeFrom [] read 0 (quad n ++ rest) =
      (decodeFrom [] (read + 4) 0 rest).map
        (bytesOf [n / 262144 % 64, n / 4096 % 64, n / 64 % 64, n % 64] ++ ·) := by
  simp only [quad, List.cons_append, List.nil_append]
  rw [decodeFrom_digit (mod_sixtyFour_lt _) (by simp), decodeFrom_digit (mod_sixtyFour_lt _) (by simp),
    decodeFrom_digit (mod_sixtyFour_lt _) (by simp), decodeFrom_fourth (mod_sixtyFour_lt _) (by simp)]
  simp

theorem bytesOf_quad (a b c : UInt8) :
    let n := a.toNat * 65536 + b.toNat * 256 + c.toNat
    bytesOf [n / 262144 % 64, n / 4096 % 64, n / 64 % 64, n % 64] = [a, b, c] := by
  intro n
  have first := a.toNat_lt
  have second := b.toNat_lt
  have third := c.toNat_lt
  have whole : ((n / 262144 % 64 * 64 + n / 4096 % 64) * 64 + n / 64 % 64) * 64 + n % 64 = n := by
    omega
  have high : n / 65536 = a.toNat := by omega
  have middle : n / 256 % 256 = b.toNat := by omega
  have low : n % 256 = c.toNat := by omega
  simp only [bytesOf, whole, high, middle, low, UInt8.ofNat_toNat]

/-- Two bytes fill three digits; the last two bits of the third are nothing. -/
theorem bytesOf_three (a b : UInt8) :
    let n := a.toNat * 65536 + b.toNat * 256
    bytesOf [n / 262144 % 64, n / 4096 % 64, n / 64 % 64] = [a, b] := by
  intro n
  have first := a.toNat_lt
  have second := b.toNat_lt
  have high : ((n / 262144 % 64 * 64 + n / 4096 % 64) * 64 + n / 64 % 64) / 1024 = a.toNat := by omega
  have low : ((n / 262144 % 64 * 64 + n / 4096 % 64) * 64 + n / 64 % 64) / 4 % 256 = b.toNat := by omega
  simp only [bytesOf, high, low, UInt8.ofNat_toNat]

/-- One byte fills two digits; the last four bits of the second are nothing. -/
theorem bytesOf_two (a : UInt8) :
    bytesOf [a.toNat * 65536 / 262144 % 64, a.toNat * 65536 / 4096 % 64] = [a] := by
  have first := a.toNat_lt
  have whole : (a.toNat * 65536 / 262144 % 64 * 64 + a.toNat * 65536 / 4096 % 64) / 16 = a.toNat := by omega
  simp only [bytesOf, whole, UInt8.ofNat_toNat]

/-! ## Whole texts -/

theorem decodeFrom_encodeBytes (bytes : List UInt8) (read : Nat) :
    decodeFrom [] read 0 (encodeBytes bytes) = .ok bytes := by
  fun_induction encodeBytes bytes generalizing read with
  | case1 => rfl
  | case2 a =>
    have padded := bytesOf_two a
    simp only [quad, List.take_succ_cons, List.take_zero, List.cons_append, List.nil_append]
    rw [decodeFrom_digit (mod_sixtyFour_lt _) (by simp), decodeFrom_digit (mod_sixtyFour_lt _) (by simp)]
    simp [decodeFrom, padded]
  | case3 a b =>
    have padded := bytesOf_three a b
    simp only [quad, List.take_succ_cons, List.take_zero, List.cons_append, List.nil_append]
    rw [decodeFrom_digit (mod_sixtyFour_lt _) (by simp), decodeFrom_digit (mod_sixtyFour_lt _) (by simp),
      decodeFrom_digit (mod_sixtyFour_lt _) (by simp)]
    simp [decodeFrom, padded]
  | case4 a b c rest ih =>
    rw [decodeFrom_quad, ih, bytesOf_quad]
    rfl

theorem ascii_quad (n : Nat) : ∀ c ∈ quad n, c.toNat < 128 := by
  simp only [quad, List.forall_mem_cons]
  exact ⟨toNat_digit_lt (mod_sixtyFour_lt _), toNat_digit_lt (mod_sixtyFour_lt _),
    toNat_digit_lt (mod_sixtyFour_lt _), toNat_digit_lt (mod_sixtyFour_lt _), by simp⟩

theorem ascii_encodeBytes (bytes : List UInt8) : ∀ c ∈ encodeBytes bytes, c.toNat < 128 := by
  have taken {n k : Nat} {pads : List Char} (padded : ∀ c ∈ pads, c.toNat < 128) :
      ∀ c ∈ (quad n).take k ++ pads, c.toNat < 128 := by
    intro c member
    rcases List.mem_append.1 member with digits | pads
    · exact ascii_quad n c (List.mem_of_mem_take digits)
    · exact padded c pads
  fun_induction encodeBytes bytes with
  | case1 => simp
  | case2 a => exact taken (by simp)
  | case3 a b => exact taken (by simp)
  | case4 a b c rest ih => exact List.forall_mem_append.2 ⟨ascii_quad _, ih⟩

theorem head?_encodeBytes (bytes : List UInt8) : (encodeBytes bytes).head? ≠ some '=' := by
  fun_cases encodeBytes bytes with
  | case1 => simp
  | case2 a => simpa [quad] using digit_ne_pad (mod_sixtyFour_lt _)
  | case3 a b => simpa [quad] using digit_ne_pad (mod_sixtyFour_lt _)
  | case4 a b c rest => simpa [quad] using digit_ne_pad (mod_sixtyFour_lt _)

/-- Bytes are read back from their text. -/
theorem decode_encode (bytes : List UInt8) : decode (encode bytes) = .ok bytes := by
  have ascii : ((encodeBytes bytes).any fun c => decide (128 ≤ c.toNat)) = false := by
    rw [List.any_eq_false]
    intro c member
    have small := ascii_encodeBytes bytes c member
    simpa using small
  simp only [decode, encode, String.toList_ofList, ascii, Bool.false_eq_true, if_false,
    if_neg (head?_encodeBytes bytes), decodeFrom_encodeBytes]

/-! ## Text outside ASCII -/

theorem decodeFrom_ne_notAscii (held : List Nat) (read pads : Nat) (s : List Char) :
    decodeFrom held read pads s ≠ .error .notAscii := by
  fun_induction decodeFrom held read pads s with
  | case9 held read _ _ rest _ _ _ _ _ ih =>
    -- the bytes of a full quad are put before what is read of the rest
    cases later : decodeFrom [] (read + 1) 0 rest with
    | ok bytes => simp [bind, Except.bind]
    | error fault => simpa [later, bind, Except.bind] using ih
  | _ => simp_all

theorem decode_eq_notAscii_iff (text : String) :
    decode text = .error .notAscii ↔ ∃ c ∈ text.toList, 128 ≤ c.toNat := by
  rw [decode]
  split
  · rename_i outside
    simpa using outside
  · rename_i ascii
    have inside : ¬ ∃ c ∈ text.toList, 128 ≤ c.toNat := by simpa using ascii
    refine iff_of_false ?_ inside
    split
    · simp
    · exact decodeFrom_ne_notAscii [] 0 0 _

end RequestTemplate.Base64
