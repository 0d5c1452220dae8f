/-!
Decoding UTF-8. A byte sequence that is no text is refused at its first fault, with the bytes
that take part in it.
-/

set_option autoImplicit false

namespace Conform.Text

inductive Utf8Reason where
  | startByte
  | continuation
  | endOfData
  deriving DecidableEq

/-- Where decoding stopped: the first and the last byte of the fault, and the first one's value. -/
structure Utf8Fault where
  reason : Utf8Reason
  first : Nat
  last : Nat
  byte : UInt8
  deriving DecidableEq

def Utf8Reason.message : Utf8Reason → String
  | .startByte => "invalid start byte"
  | .continuation => "invalid continuation byte"
  | .endOfData => "unexpected end of data"

private def byteText (b : UInt8) : String :=
  let digits := Nat.toDigits 16 b.toNat
  String.ofList (if digits.length < 2 then '0' :: digits else digits)

def Utf8Fault.message (f : Utf8Fault) : String :=
  if f.first = f.last then
    s!"'utf-8' codec can't decode byte 0x{byteText f.byte} in position {f.first}: " ++
      f.reason.message
  else
    s!"'utf-8' codec can't decode bytes in position {f.first}-{f.last}: {f.reason.message}"

/-- How many bytes follow a first byte, and the range of the second one, which excludes long
forms, surrogates and code points beyond the last. -/
def sequenceOf (b : Nat) : Option (Nat × Nat × Nat) :=
  if b < 0x80 then some (0, 0x80, 0xbf)
  else if b < 0xc2 then none
  else if b < 0xe0 then some (1, 0x80, 0xbf)
  else if b = 0xe0 then some (2, 0xa0, 0xbf)
  else if b = 0xed then some (2, 0x80, 0x9f)
  else if b < 0xf0 then some (2, 0x80, 0xbf)
  else if b = 0xf0 then some (3, 0x90, 0xbf)
  else if b < 0xf4 then some (3, 0x80, 0xbf)
  else if b = 0xf4 then some (3, 0x80, 0x8f)
  else none

/-- Reads `owed` further bytes, the next one between `low` and `high`. Gives the code point, or
how many bytes were fine and whether the data ended. -/
def readTail : Nat → Nat → Nat → Nat → Nat → List UInt8 →
    Except (Nat × Utf8Reason) (Nat × List UInt8)
  | 0, _, _, code, _, rest => .ok (code, rest)
  | _ + 1, _, _, _, seen, [] => .error (seen, .endOfData)
  | owed + 1, low, high, code, seen, b :: rest =>
    if low ≤ b.toNat ∧ b.toNat ≤ high then
      readTail owed 0x80 0xbf (code * 64 + (b.toNat - 0x80)) (seen + 1) rest
    else .error (seen, .continuation)

def leadBits (owed b : Nat) : Nat :=
  match owed with
  | 0 => b
  | 1 => b - 0xc0
  | 2 => b - 0xe0
  | _ => b - 0xf0

/-- Decodes from byte `position` on, putting characters before `done`; every character takes at
least one of the `fuel` steps. -/
def decodeFrom : Nat → Nat → List Char → List UInt8 → Except Utf8Fault (List Char)
  | _, _, done, [] => .ok done.reverse
  | 0, _, done, _ :: _ => .ok done.reverse
  | fuel + 1, position, done, b :: rest =>
    match sequenceOf b.toNat with
    | none => .error ⟨.startByte, position, position, b⟩
    | some (owed, low, high) =>
      match readTail owed low high (leadBits owed b.toNat) 1 rest with
      | .ok (code, rest) => decodeFrom fuel (position + owed + 1) (Char.ofNat code :: done) rest
      | .error (seen, reason) => .error ⟨reason, position, position + seen - 1, b⟩

def decodeUtf8 (bytes : List UInt8) : Except Utf8Fault String :=
  (decodeFrom bytes.length 0 [] bytes).map String.ofList

end Conform.Text
