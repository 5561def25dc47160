/-!
# Decimal numbers

Numbers with a fraction or an exponent: a sign, the digits as one number without
trailing zeros, and the power of ten of the last digit. A decimal stands for the
nearest number with 53 binary digits, whose shortest writing it is; there is none for
what is infinite or no number. `Layout` says when a decimal is written with its point
in place and how an exponent looks.
-/

namespace RequestTemplate

structure Decimal where
  negative : Bool
  digits : Nat
  exponent : Int
  deriving DecidableEq, Inhabited

namespace Decimal

/-- Moves trailing zeros of the digits into the exponent. -/
def strip (digits : Nat) (exponent : Int) : Nat × Int :=
  if h : digits ≠ 0 ∧ digits % 10 = 0 then strip (digits / 10) (exponent + 1)
  else (digits, exponent)
termination_by digits
decreasing_by omega

/-- The decimal with these digits before the power of ten. -/
def of (negative : Bool) (digits : Nat) (exponent : Int) : Decimal :=
  if digits = 0 then ⟨negative, 0, 0⟩
  else
    let (digits, exponent) := strip digits exponent
    ⟨negative, digits, exponent⟩

/-- The number with at most `digits` binary digits before its zeros that is nearest
    to `n`; the even one of two that are as near. -/
def nearest (digits n : Nat) : Nat :=
  let unit := Nat.pow 2 (n.log2 + 1 - digits)
  let below := n / unit
  let rest := n % unit
  if 2 * rest < unit ∨ (2 * rest = unit ∧ below % 2 = 0) then below * unit
  else (below + 1) * unit

/-- The whole number that the decimal stands for, if there is one. -/
def toInt? (d : Decimal) : Option Int :=
  if d.exponent < 0 then none
  else
    let size := nearest 53 (d.digits * Nat.pow 10 d.exponent.toNat)
    some (if d.negative then -(size : Int) else size)

/-- How decimals are written. `before` counts the digits before the point, and
    is negative or zero where zeros follow the point. -/
structure Layout where
  /-- The point is written in place if more digits than this stand before it, -/
  above : Int
  /-- and at most this many. -/
  upTo : Int
  exponentSign : Bool
  exponentWidth : Nat
  deriving DecidableEq, Inhabited

/-- Decimals as the names of members: point in place up to sixteen digits and
    down to four zeros after it. -/
def Layout.name : Layout := ⟨-4, 16, true, 2⟩

/-- Decimals as values: one zero more after the point, and bare exponents. -/
def Layout.value : Layout := ⟨-5, 16, false, 1⟩

def zeros (n : Nat) : String := String.ofList (List.replicate n '0')

def padded (width n : Nat) : String :=
  let s := toString n
  zeros (width - s.length) ++ s

/-- The text of a decimal, with a point in it unless it has an exponent. -/
def print (layout : Layout) (d : Decimal) : String :=
  let digits := (toString d.digits).toList
  let count := digits.length
  let before : Int := count + d.exponent
  let size :=
    if d.digits = 0 then "0.0"
    else if layout.above < before ∧ before ≤ layout.upTo then
      if before ≤ 0 then "0." ++ zeros before.natAbs ++ String.ofList digits
      else if count ≤ before.toNat then
        String.ofList digits ++ zeros (before.toNat - count) ++ ".0"
      else
        String.ofList (digits.take before.toNat) ++ "." ++ String.ofList (digits.drop before.toNat)
    else
      let mantissa :=
        if count = 1 then String.ofList digits
        else String.ofList (digits.take 1) ++ "." ++ String.ofList (digits.drop 1)
      let sign := if before ≤ 0 then "-" else if layout.exponentSign then "+" else ""
      mantissa ++ "e" ++ sign ++ padded layout.exponentWidth (before - 1).natAbs
  if d.negative then "-" ++ size else size

end Decimal

end RequestTemplate
