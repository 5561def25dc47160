import RequestTemplate.Text.Utf8

/-!
# Percent encoding

Text as one segment of a URL: letters, digits and four marks stand for
themselves, every other byte is written as a percent sign and two digits.
-/

namespace RequestTemplate.Percent

def isUnreserved (n : Nat) : Bool :=
  (65 ≤ n && n ≤ 90) || (97 ≤ n && n ≤ 122) || (48 ≤ n && n ≤ 57) ||
    n == 45 || n == 46 || n == 95 || n == 126

def digit (n : Nat) : Char :=
  if n < 10 then Char.ofNat (48 + n) else Char.ofNat (55 + n)

def encodeByte (b : UInt8) : List Char :=
  let n := b.toNat
  if isUnreserved n then [Char.ofNat n] else ['%', digit (n / 16), digit (n % 16)]

def encode (text : String) : String :=
  String.ofList ((Utf8.encode text).flatMap encodeByte)

end RequestTemplate.Percent
