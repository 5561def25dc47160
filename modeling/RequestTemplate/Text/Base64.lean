/-!
# Base64

Bytes as text in an alphabet of 64 characters, four characters for three bytes.
Reading is strict: no character outside the alphabet, padding only at the end and
nothing after it. What is left over of the last character is ignored.
-/

namespace RequestTemplate.Base64

inductive Fault where
  | notAscii
  | leadingPadding
  | notInAlphabet
  | discontinuousPadding
  | dataAfterPadding
  /-- A single character is left over of this many. -/
  | leftOver (characters : Nat)
  | incorrectPadding
  deriving DecidableEq, Inhabited

def Fault.message : Fault → String
  | notAscii => "string argument should contain only ASCII characters"
  | leadingPadding => "Leading padding not allowed"
  | notInAlphabet => "Only base64 data is allowed"
  | discontinuousPadding => "Discontinuous padding not allowed"
  | dataAfterPadding => "Excess data after padding"
  | leftOver characters =>
    "Invalid base64-encoded string: number of data characters (" ++ toString characters ++
      ") cannot be 1 more than a multiple of 4"
  | incorrectPadding => "Incorrect padding"

/-! ## Writing -/

/-- The character of a number below 64. -/
def digit (n : Nat) : Char :=
  if n < 26 then Char.ofNat (65 + n)
  else if n < 52 then Char.ofNat (71 + n)
  else if n < 62 then Char.ofNat (n - 4)
  else if n = 62 then '+'
  else '/'

/-- Three bytes as one number, as four characters. -/
def quad (n : Nat) : List Char :=
  [digit (n / 262144 % 64), digit (n / 4096 % 64), digit (n / 64 % 64), digit (n % 64)]

def encodeBytes : List UInt8 → List Char
  | [] => []
  | [a] => (quad (a.toNat * 65536)).take 2 ++ ['=', '=']
  | [a, b] => (quad (a.toNat * 65536 + b.toNat * 256)).take 3 ++ ['=']
  | a :: b :: c :: rest => quad (a.toNat * 65536 + b.toNat * 256 + c.toNat) ++ encodeBytes rest

def encode (bytes : List UInt8) : String :=
  String.ofList (encodeBytes bytes)

/-! ## Reading -/

/-- The number of a character of the alphabet. -/
def digit? (c : Char) : Option Nat :=
  if 'A' ≤ c ∧ c ≤ 'Z' then some (c.toNat - 65)
  else if 'a' ≤ c ∧ c ≤ 'z' then some (c.toNat - 71)
  else if '0' ≤ c ∧ c ≤ '9' then some (c.toNat + 4)
  else if c = '+' then some 62
  else if c = '/' then some 63
  else none

/-- The whole bytes that up to four digits hold. -/
def bytesOf : List Nat → List UInt8
  | [x, y] => [UInt8.ofNat ((x * 64 + y) / 16)]
  | [x, y, z] =>
    let n := (x * 64 + y) * 64 + z
    [UInt8.ofNat (n / 1024), UInt8.ofNat (n / 4 % 256)]
  | [x, y, z, w] =>
    let n := ((x * 64 + y) * 64 + z) * 64 + w
    [UInt8.ofNat (n / 65536), UInt8.ofNat (n / 256 % 256), UInt8.ofNat (n % 256)]
  | _ => []

/-- Reads on with the digits of the last, unfinished quad in hand, after `read`
    digits and `pads` signs of padding. -/
def decodeFrom (held : List Nat) (read pads : Nat) : List Char → Except Fault (List UInt8)
  | [] =>
    match held with
    | [] => .ok []
    | [_] => .error (.leftOver read)
    | _ => .error .incorrectPadding
  | c :: rest =>
    if c = '=' then
      if 2 ≤ held.length ∧ 4 ≤ held.length + pads + 1 then
        if rest = [] then .ok (bytesOf held) else .error .dataAfterPadding
      else decodeFrom held read (pads + 1) rest
    else
      match digit? c with
      | none => .error .notInAlphabet
      | some d =>
        if pads ≠ 0 then .error .discontinuousPadding
        else if held.length = 3 then do
          let others ← decodeFrom [] (read + 1) 0 rest
          .ok (bytesOf (held ++ [d]) ++ others)
        else decodeFrom (held ++ [d]) (read + 1) 0 rest

def decode (text : String) : Except Fault (List UInt8) :=
  let s := text.toList
  if s.any (fun c => 128 ≤ c.toNat) then .error .notAscii
  else if s.head? = some '=' then .error .leadingPadding
  else decodeFrom [] 0 0 s

end RequestTemplate.Base64
