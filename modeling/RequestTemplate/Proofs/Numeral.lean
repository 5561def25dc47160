import Mathlib.Algebra.Group.Nat.Defs
import RequestTemplate.Document.Decimal
import RequestTemplate.Document.Reader

/-!
# Numbers in text

An integer is written as its digits, and a decimal with its point in place or with an
exponent, as the layout has it. Both are read back as what they were
(`number?_toString`, `number?_print`), however the decimal is laid out. For this the
digits of a decimal must not end in zero (`Decimal.Stripped`), and those that are read
never do (`Decimal.stripped_of`).
-/

namespace RequestTemplate

/-! ## Decimals without trailing zeros -/

namespace Decimal

/-- The digits do not end in zero, and zero has no exponent. -/
def Stripped (d : Decimal) : Prop :=
  d.digits % 10 ≠ 0 ∨ d.digits = 0 ∧ d.exponent = 0

theorem strip_of_ne {n : Nat} (stripped : n % 10 ≠ 0) (exponent : Int) : strip n exponent = (n, exponent) := by
  rw [strip, dif_neg fun both => stripped both.2]

theorem strip_mul_pow {n : Nat} (stripped : n % 10 ≠ 0) (k : Nat) (exponent : Int) :
    strip (n * 10 ^ k) exponent = (n, exponent + k) := by
  induction k generalizing exponent with
  | zero => simpa using strip_of_ne stripped exponent
  | succ k ih =>
    have shifted : n * 10 ^ (k + 1) = n * 10 ^ k * 10 := by rw [Nat.pow_succ, Nat.mul_assoc]
    have visible : n * 10 ^ k ≠ 0 := Nat.mul_ne_zero (by omega) (Nat.ne_of_gt (Nat.pow_pos (by decide)))
    rw [strip, dif_pos (by omega), shifted, Nat.mul_div_cancel _ (by decide), ih]
    congr 1
    omega

theorem of_mul_pow {n : Nat} (stripped : n % 10 ≠ 0) (negative : Bool) (k : Nat) {exponent shifted : Int}
    (shift : shifted + k = exponent) : of negative (n * 10 ^ k) shifted = ⟨negative, n, exponent⟩ := by
  have visible : n * 10 ^ k ≠ 0 := Nat.mul_ne_zero (by omega) (Nat.ne_of_gt (Nat.pow_pos (by decide)))
  rw [of, if_neg visible, strip_mul_pow stripped, shift]

theorem strip_fst_mod {n : Nat} {exponent : Int} (visible : n ≠ 0) : (strip n exponent).1 % 10 ≠ 0 := by
  induction n, exponent using strip.induct with
  | case1 n exponent zero ih =>
    rw [strip, dif_pos zero]
    exact ih (by omega)
  | case2 n exponent other =>
    rw [strip, dif_neg other]
    exact fun zero => other ⟨visible, zero⟩

theorem stripped_of (negative : Bool) (n : Nat) (exponent : Int) : (of negative n exponent).Stripped := by
  rw [of]
  split
  · exact .inr ⟨rfl, rfl⟩
  · rename_i visible
    exact .inl (strip_fst_mod visible)

end Decimal

namespace Document.Reader

open Text (digitsValue)

/-! ## Digits -/

/-- The text consists of digits. -/
def Digits (s : List Char) : Prop :=
  ∀ c ∈ s, c.isDigit = true

/-- No number goes on here. -/
def Ends (rest : List Char) : Prop :=
  ∀ c ∈ rest.head?, c.isDigit = false ∧ c ≠ '.' ∧ c ≠ 'e' ∧ c ≠ 'E'

theorem Digits.append {s t : List Char} (first : Digits s) (second : Digits t) : Digits (s ++ t) :=
  List.forall_mem_append.2 ⟨first, second⟩

theorem digits_zeros (n : Nat) : Digits (List.replicate n '0') := by
  intro c member
  rw [List.eq_of_mem_replicate member]
  rfl

theorem toList_toString (n : Nat) : (toString n).toList = Nat.toDigits 10 n := by
  rw [Nat.toString_eq_ofList_toDigits, String.toList_ofList]

theorem digits_toString (n : Nat) : Digits (toString n).toList := by
  rw [toList_toString]
  exact fun c => Nat.isDigit_of_mem_toDigits (by decide) (by decide)

theorem toString_ne_nil (n : Nat) : (toString n).toList ≠ [] := by
  rw [toList_toString]
  exact Nat.toDigits_ne_nil

/-- The digits at the head of a text, where something else follows them. -/
theorem digits_append {s : List Char} (numeral : Digits s) {rest : List Char}
    (ends : ∀ c ∈ rest.head?, c.isDigit = false) : digits (s ++ rest) = (s, rest) := by
  have stop : rest.takeWhile Char.isDigit = [] ∧ rest.dropWhile Char.isDigit = rest := by
    cases rest with
    | nil => exact ⟨rfl, rfl⟩
    | cons c rest => simp [ends c rfl]
  rw [digits, List.takeWhile_append_of_pos numeral, List.dropWhile_append_of_pos numeral, stop.1, stop.2,
    List.append_nil]

theorem digitsValue_eq (s : List Char) : digitsValue s = Nat.ofDigitChars 10 s 0 := by
  simp only [digitsValue, Nat.ofDigitChars, Nat.mul_comm]
  rfl

theorem digitsValue_toString (n : Nat) : digitsValue (toString n).toList = n := by
  rw [digitsValue_eq, toList_toString, Nat.ofDigitChars_ten_toDigits]

theorem digitsValue_append (s t : List Char) :
    digitsValue (s ++ t) = digitsValue s * 10 ^ t.length + digitsValue t := by
  rw [digitsValue_eq, Nat.ofDigitChars_append, Nat.ofDigitChars_eq_ofDigitChars_zero, ← digitsValue_eq,
    ← digitsValue_eq, Nat.mul_comm]

theorem digitsValue_zeros (n : Nat) : digitsValue (List.replicate n '0') = 0 := by
  rw [digitsValue_eq, Nat.ofDigitChars_replicate_zero, Nat.mul_zero]

theorem digitsValue_zeros_append (n : Nat) (s : List Char) :
    digitsValue (List.replicate n '0' ++ s) = digitsValue s := by
  rw [digitsValue_append, digitsValue_zeros, Nat.zero_mul, Nat.zero_add]

theorem digitsValue_append_zeros (s : List Char) (n : Nat) :
    digitsValue (s ++ List.replicate n '0') = digitsValue s * 10 ^ n := by
  rw [digitsValue_append, digitsValue_zeros, List.length_replicate, Nat.add_zero]

/-! ## Integers and fractions -/

section

variable {whole places rest : List Char} (negative : Bool)

theorem exponent?_of_ends (ends : Ends rest) : exponent? rest = none := by
  cases rest with
  | nil => rfl
  | cons c rest => simp [exponent?, (ends c rfl).2.2]

theorem fraction?_of_ends (ends : Ends rest) : fraction? rest = none := by
  rw [fraction?]
  rintro tail rfl
  exact (ends '.' rfl).2.1 rfl

theorem number?_integer (numeral : Digits whole) (given : whole ≠ []) (ends : Ends rest) :
    number? negative (whole ++ rest) =
      some (.integer (if negative then -(digitsValue whole : Int) else digitsValue whole), rest) := by
  have split : digits (whole ++ rest) = (whole, rest) := digits_append numeral fun c first => (ends c first).1
  simp only [number?, split, given, fraction?_of_ends ends, exponent?_of_ends ends, if_false, Option.getD_none]

theorem number?_fraction (numeral : Digits whole) (given : whole ≠ []) (more : Digits places) (ends : Ends rest) :
    number? negative (whole ++ '.' :: (places ++ rest)) =
      some (.decimal (Decimal.of negative (digitsValue (whole ++ places)) (-places.length)), rest) := by
  have split : digits (whole ++ '.' :: (places ++ rest)) = (whole, '.' :: (places ++ rest)) :=
    digits_append numeral fun c first => Option.some.inj first ▸ rfl
  have behind : fraction? ('.' :: (places ++ rest)) = some (places, rest) := by
    rw [fraction?, digits_append more fun c first => (ends c first).1]
  simp only [number?, split, given, behind, exponent?_of_ends ends, if_false, Option.getD_some, Option.getD_none,
    Int.zero_sub]

end

/-! ## Exponents -/

/-- How the sign of a power is written. The sign of one that is not below zero may be left out. -/
inductive Sign : (below : Bool) → List Char → Prop
  | minus : Sign true ['-']
  | plus : Sign false ['+']
  | bare : Sign false []

section

variable {whole places numeral sign rest : List Char} {below : Bool}

theorem signed_append (signs : Sign below sign) (digital : Digits numeral) (given : numeral ≠ []) (ends : Ends rest) :
    signed (sign ++ (numeral ++ rest)) = (if below then -(digitsValue numeral : Int) else digitsValue numeral, rest) := by
  have split : digits (numeral ++ rest) = (numeral, rest) := digits_append digital fun c first => (ends c first).1
  cases signs with
  | minus => simp [signed, split]
  | plus => simp [signed, split]
  | bare =>
    obtain ⟨c, more, rfl⟩ := List.exists_cons_of_ne_nil given
    have digit : c.isDigit = true := digital c List.mem_cons_self
    rw [List.nil_append, signed, split]
    · rfl
    · rintro tail same
      obtain ⟨rfl, -⟩ := List.cons.inj same
      exact absurd digit (by decide)
    · rintro tail same
      obtain ⟨rfl, -⟩ := List.cons.inj same
      exact absurd digit (by decide)

theorem exponent?_append (signs : Sign below sign) (digital : Digits numeral) (given : numeral ≠ []) (ends : Ends rest) :
    exponent? ('e' :: (sign ++ (numeral ++ rest))) =
      some (if below then -(digitsValue numeral : Int) else digitsValue numeral, rest) := by
  simp only [exponent?, true_or, if_true, signed_append signs digital given ends]

theorem number?_of_exponent {s tail : List Char} {power : Int} (negative : Bool) (given : whole ≠ [])
    (first : digits s = (whole, rest)) (second : (fraction? rest).getD ([], rest) = (places, tail))
    {after : List Char} (last : exponent? tail = some (power, after)) :
    number? negative s =
      some (.decimal (Decimal.of negative (digitsValue (whole ++ places)) (power - places.length)), after) := by
  simp only [number?, first, given, second, last, if_false]
  cases fraction? rest <;> rfl

end

end Document.Reader

namespace Decimal

open Document.Reader
open Text (digitsValue)

/-! ## The ways to write a decimal -/

section

variable {digits rest : List Char} {n : Nat} (numeral : Digits digits) (given : digits ≠ [])
  (value : digitsValue digits = n) (stripped : n % 10 ≠ 0) (ends : Ends rest) (negative : Bool)
include numeral value stripped ends

/-- Zeros between the point and the digits. -/
theorem number?_behindZeros (k : Nat) :
    number? negative ('0' :: '.' :: (List.replicate k '0' ++ (digits ++ rest))) =
      some (.decimal ⟨negative, n, -(k + digits.length : Nat)⟩, rest) := by
  have whole : digitsValue (List.replicate 1 '0' ++ (List.replicate k '0' ++ digits)) = n * 10 ^ 0 := by
    rw [digitsValue_zeros_append, digitsValue_zeros_append, value, Nat.pow_zero, Nat.mul_one]
  have read := number?_fraction negative (digits_zeros 1) (by decide) ((digits_zeros k).append numeral) ends
  rw [whole, of_mul_pow stripped negative 0 (Int.add_zero _)] at read
  simpa using read

include given

/-- Zeros between the digits and the point. -/
theorem number?_beforeZeros (k : Nat) :
    number? negative (digits ++ (List.replicate k '0' ++ '.' :: '0' :: rest)) =
      some (.decimal ⟨negative, n, k⟩, rest) := by
  have whole : digitsValue (digits ++ List.replicate k '0' ++ List.replicate 1 '0') = n * 10 ^ (k + 1) := by
    rw [digitsValue_append_zeros, digitsValue_append_zeros, value, Nat.mul_assoc, ← Nat.pow_add]
  have shift : -((List.replicate 1 '0').length : Int) + (k + 1 : Nat) = k := by
    rw [List.length_replicate]
    omega
  have read := number?_fraction negative (numeral.append (digits_zeros k)) (by simp [given]) (digits_zeros 1) ends
  rw [whole, of_mul_pow stripped negative (k + 1) shift] at read
  simpa using read

/-- The point between the digits. -/
theorem number?_between {k : Nat} (inside : 0 < k) :
    number? negative (digits.take k ++ '.' :: (digits.drop k ++ rest)) =
      some (.decimal ⟨negative, n, -(digits.length - k : Nat)⟩, rest) := by
  have whole : digitsValue (digits.take k ++ digits.drop k) = n * 10 ^ 0 := by
    rw [List.take_append_drop, value, Nat.pow_zero, Nat.mul_one]
  have nonempty : digits.take k ≠ [] := by
    rw [ne_eq, List.take_eq_nil_iff]
    exact not_or.2 ⟨Nat.ne_of_gt inside, given⟩
  have before : Digits (digits.take k) := fun c member => numeral c (List.mem_of_mem_take member)
  have behind : Digits (digits.drop k) := fun c member => numeral c (List.mem_of_mem_drop member)
  have read := number?_fraction negative before nonempty behind ends
  rwa [whole, of_mul_pow stripped negative 0 (Int.add_zero _), List.length_drop] at read

/-- A power of ten behind the digits, with the point behind the first of several. -/
theorem number?_power {sign power : List Char} {below : Bool} (signs : Sign below sign) (digital : Digits power)
    (raised : power ≠ []) :
    number? negative ((if digits.length = 1 then digits else digits.take 1 ++ '.' :: digits.drop 1) ++
        'e' :: (sign ++ (power ++ rest))) =
      some (.decimal ⟨negative, n,
        (if below then -(digitsValue power : Int) else digitsValue power) - (digits.length - 1 : Nat)⟩, rest) := by
  have last := exponent?_append signs digital raised ends
  generalize (if below then -(digitsValue power : Int) else digitsValue power) = exponent at last ⊢
  have letter : ∀ c ∈ ('e' :: (sign ++ (power ++ rest))).head?, c.isDigit = false := fun c first =>
    Option.some.inj first ▸ rfl
  split
  · rename_i single
    have whole : digitsValue (digits ++ []) = n * 10 ^ 0 := by
      rw [List.append_nil, value, Nat.pow_zero, Nat.mul_one]
    have second : (fraction? ('e' :: (sign ++ (power ++ rest)))).getD ([], 'e' :: (sign ++ (power ++ rest))) =
        ([], 'e' :: (sign ++ (power ++ rest))) := rfl
    have read := number?_of_exponent negative given (digits_append numeral letter) second last
    rw [whole, of_mul_pow stripped negative 0 (Int.add_zero _)] at read
    simpa [single] using read
  · have whole : digitsValue (digits.take 1 ++ digits.drop 1) = n * 10 ^ 0 := by
      rw [List.take_append_drop, value, Nat.pow_zero, Nat.mul_one]
    have nonempty : digits.take 1 ≠ [] := by
      rw [ne_eq, List.take_eq_nil_iff]
      exact not_or.2 ⟨Nat.one_ne_zero, given⟩
    have before : Digits (digits.take 1) := fun c member => numeral c (List.mem_of_mem_take member)
    have behind : Digits (digits.drop 1) := fun c member => numeral c (List.mem_of_mem_drop member)
    have point : ∀ c ∈ ('.' :: (digits.drop 1 ++ 'e' :: (sign ++ (power ++ rest)))).head?, c.isDigit = false := fun c first =>
      Option.some.inj first ▸ rfl
    have second : (fraction? ('.' :: (digits.drop 1 ++ 'e' :: (sign ++ (power ++ rest))))).getD ([], []) =
        (digits.drop 1, 'e' :: (sign ++ (power ++ rest))) := by
      rw [fraction?, digits_append behind letter, Option.getD_some]
    have read := number?_of_exponent negative nonempty (digits_append before point) second last
    rw [whole, of_mul_pow stripped negative 0 (Int.add_zero _), List.length_drop] at read
    rwa [List.append_assoc, List.cons_append]

end

variable {d : Decimal}

/-- The decimal without its sign. -/
def size (layout : Layout) (d : Decimal) : List Char :=
  (print layout { d with negative := false }).toList

theorem toList_print (layout : Layout) (d : Decimal) :
    (d.print layout).toList = if d.negative then '-' :: d.size layout else d.size layout := by
  obtain ⟨_ | _, digits, exponent⟩ := d
  · rfl
  · rw [size, print, print, if_pos rfl, if_neg Bool.false_ne_true, String.toList_append]
    rfl

theorem toList_zeros (n : Nat) : (zeros n).toList = List.replicate n '0' :=
  String.toList_ofList

theorem digits_padded (width n : Nat) : Digits (padded width n).toList := by
  rw [padded, String.toList_append, toList_zeros]
  exact (digits_zeros _).append (digits_toString n)

theorem padded_ne_nil (width n : Nat) : (padded width n).toList ≠ [] := by
  rw [padded, String.toList_append]
  exact List.append_ne_nil_of_right_ne_nil _ (toString_ne_nil n)

theorem digitsValue_padded (width n : Nat) : digitsValue (padded width n).toList = n := by
  rw [padded, String.toList_append, toList_zeros, digitsValue_zeros_append, digitsValue_toString]

theorem sign_exponentSign (written below : Bool) :
    Sign below (if below then "-" else if written then "+" else "").toList := by
  cases below <;> cases written <;> constructor

/-- A decimal is read back as it was, in every layout. -/
theorem number?_size (layout : Layout) (stripped : d.Stripped) (negative : Bool) {rest : List Char} (ends : Ends rest) :
    number? negative (d.size layout ++ rest) = some (.decimal { d with negative }, rest) := by
  obtain ⟨sign, n, exponent⟩ := d
  have numeral := digits_toString n
  have given := toString_ne_nil n
  have value := digitsValue_toString n
  rw [size, print]
  simp only [Bool.false_eq_true, if_false]
  generalize (toString n).toList = digits at numeral given value ⊢
  obtain stripped | ⟨rfl, rfl⟩ : n % 10 ≠ 0 ∨ n = 0 ∧ exponent = 0 := stripped
  · have visible : n ≠ 0 := by omega
    have counted : 0 < digits.length := List.length_pos_iff.2 given
    simp only [visible, if_false]
    split
    · split
      · have read := number?_behindZeros numeral value stripped ends negative (digits.length + exponent).natAbs
        have same : -(((digits.length + exponent).natAbs + digits.length : Nat) : Int) = exponent := by omega
        rw [same] at read
        simpa [toList_zeros] using read
      · split
        · have read := number?_beforeZeros numeral given value stripped ends negative
            ((digits.length + exponent).toNat - digits.length)
          have same : (((digits.length + exponent).toNat - digits.length : Nat) : Int) = exponent := by omega
          rw [same] at read
          simpa [toList_zeros] using read
        · have read := number?_between numeral given value stripped ends negative
            (k := (digits.length + exponent).toNat) (by omega)
          have same : -((digits.length - (digits.length + exponent).toNat : Nat) : Int) = exponent := by omega
          rw [same] at read
          simpa using read
    · have read := number?_power numeral given value stripped ends negative
        (sign_exponentSign layout.exponentSign (decide (digits.length + exponent ≤ 0)))
        (digits_padded layout.exponentWidth (digits.length + exponent - 1).natAbs) (padded_ne_nil _ _)
      have same : (if digits.length + exponent ≤ 0 then -((digits.length + exponent - 1).natAbs : Int)
          else (digits.length + exponent - 1).natAbs) - (digits.length - 1 : Nat) = exponent := by
        split <;> omega
      simp only [digitsValue_padded, decide_eq_true_eq, same] at read
      rw [← read]
      split <;> simp
  · rw [if_pos rfl]
    have zero : of negative (digitsValue ['0', '0']) (-1) = ⟨negative, 0, 0⟩ := rfl
    have read := number?_fraction negative (digits_zeros 1) (by decide) (digits_zeros 1) ends
    simpa [zero] using read

end Decimal

/-- How a number is written without its sign. -/
def Scalar.numeral? : Scalar → Option (List Char)
  | integer n => some (toString n.natAbs).toList
  | decimal d => some (d.size .value)
  | _ => none

end RequestTemplate
