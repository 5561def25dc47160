import RequestTemplate.Text.Quoted

/-!
# UTF-8

Text as bytes. Reading takes one byte at a time and refuses overlong forms,
surrogates and code points beyond the last; a fault names the bytes from the
first byte of the character up to the last one that could belong to it.
-/

namespace RequestTemplate.Utf8

/-! ## Writing -/

def encodeChar (c : Char) : List UInt8 :=
  let n := c.toNat
  if n < 0x80 then [UInt8.ofNat n]
  else if n < 0x800 then [UInt8.ofNat (0xC0 + n / 64), UInt8.ofNat (0x80 + n % 64)]
  else if n < 0x10000 then
    [UInt8.ofNat (0xE0 + n / 4096), UInt8.ofNat (0x80 + n / 64 % 64), UInt8.ofNat (0x80 + n % 64)]
  else
    [UInt8.ofNat (0xF0 + n / 262144), UInt8.ofNat (0x80 + n / 4096 % 64),
      UInt8.ofNat (0x80 + n / 64 % 64), UInt8.ofNat (0x80 + n % 64)]

def encode (text : String) : List UInt8 :=
  text.toList.flatMap encodeChar

/-! ## Reading -/

inductive Reason where
  | invalidStart
  | invalidContinuation
  | unexpectedEnd
  deriving DecidableEq, Inhabited

structure Fault where
  reason : Reason
  /-- The first byte of the character. -/
  byte : Nat
  /-- Where that byte stands. -/
  start : Nat
  /-- How many bytes are at fault. -/
  length : Nat
  deriving DecidableEq, Inhabited

def Reason.message : Reason → String
  | invalidStart => "invalid start byte"
  | invalidContinuation => "invalid continuation byte"
  | unexpectedEnd => "unexpected end of data"

def Fault.message (f : Fault) : String :=
  let place :=
    if f.length = 1 then
      "byte 0x" ++ String.ofList (Text.hex 2 f.byte) ++ " in position " ++ toString f.start
    else
      "bytes in position " ++ toString f.start ++ "-" ++ toString (f.start + f.length - 1)
  "'utf-8' codec can't decode " ++ place ++ ": " ++ f.reason.message

/-- A character some bytes of which have been read. -/
structure Pending where
  byte : Nat
  start : Nat
  /-- The bits read so far. -/
  value : Nat
  /-- How many bytes are still to come, and the range of the next one. -/
  missing : Nat
  low : Nat
  high : Nat
  deriving DecidableEq, Inhabited

/-- What the first byte of a longer character announces. -/
def Pending.ofByte? (position byte : Nat) : Option Pending :=
  if 0xC2 ≤ byte ∧ byte < 0xE0 then some ⟨byte, position, byte - 0xC0, 1, 0x80, 0xBF⟩
  else if byte = 0xE0 then some ⟨byte, position, 0, 2, 0xA0, 0xBF⟩
  else if byte = 0xED then some ⟨byte, position, 0xD, 2, 0x80, 0x9F⟩
  else if 0xE0 ≤ byte ∧ byte < 0xF0 then some ⟨byte, position, byte - 0xE0, 2, 0x80, 0xBF⟩
  else if byte = 0xF0 then some ⟨byte, position, 0, 3, 0x90, 0xBF⟩
  else if byte = 0xF4 then some ⟨byte, position, 4, 3, 0x80, 0x8F⟩
  else if 0xF0 ≤ byte ∧ byte < 0xF4 then some ⟨byte, position, byte - 0xF0, 3, 0x80, 0xBF⟩
  else none

/-- Reads the bytes from `position` on, with a character pending or none. -/
def decodeFrom (pending : Option Pending) (position : Nat) :
    List UInt8 → Except Fault (List Char)
  | [] =>
    match pending with
    | none => .ok []
    | some p => .error ⟨.unexpectedEnd, p.byte, p.start, position - p.start⟩
  | b :: rest =>
    match pending with
    | none =>
      if b.toNat < 0x80 then do
        let others ← decodeFrom none (position + 1) rest
        .ok (Char.ofNat b.toNat :: others)
      else
        match Pending.ofByte? position b.toNat with
        | some p => decodeFrom (some p) (position + 1) rest
        | none => .error ⟨.invalidStart, b.toNat, position, 1⟩
    | some p =>
      if p.low ≤ b.toNat ∧ b.toNat ≤ p.high then
        let value := p.value * 64 + (b.toNat - 0x80)
        if p.missing = 1 then do
          let others ← decodeFrom none (position + 1) rest
          .ok (Char.ofNat value :: others)
        else
          decodeFrom (some ⟨p.byte, p.start, value, p.missing - 1, 0x80, 0xBF⟩) (position + 1) rest
      else .error ⟨.invalidContinuation, p.byte, p.start, position - p.start⟩

def decode (bytes : List UInt8) : Except Fault String :=
  (decodeFrom none 0 bytes).map String.ofList

end RequestTemplate.Utf8
