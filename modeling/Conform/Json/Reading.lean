import Conform.Failure
import Conform.Json
import Conform.Number.Reading
/-!
Reading JSON. A text that is no JSON is refused at its first fault, which is named by what was
expected there and by its position.
-/

set_option autoImplicit false

namespace Conform.Json

abbrev Refusal := JsonComplaint × List Char

def isBlank (c : Char) : Bool := c == ' ' || c == '\t' || c == '\n' || c == '\r'

def skipBlanks (cs : List Char) : List Char := cs.dropWhile isBlank

/-! ## Numbers -/

/-- The whole part of a number: a zero, or digits that do not start with one. -/
def readWhole? : List Char → Option (List Char × List Char)
  | '0' :: rest => some (['0'], rest)
  | c :: rest =>
    if isDigit c then some (c :: rest.takeWhile isDigit, rest.dropWhile isDigit) else none
  | [] => none

def readFraction : List Char → List Char × List Char
  | '.' :: c :: rest =>
    if isDigit c then (c :: rest.takeWhile isDigit, rest.dropWhile isDigit)
    else ([], '.' :: c :: rest)
  | cs => ([], cs)

def readPower (cs : List Char) : Option (Int × List Char) :=
  match cs with
  | c :: rest =>
    if c = 'e' || c = 'E' then
      let (below, digits) := splitSign rest
      let power := digits.takeWhile isDigit
      if power.isEmpty then none
      else
        let size : Int := digitsValue power
        some (if below then -size else size, digits.dropWhile isDigit)
    else none
  | [] => none

/-- A number; a whole one may have only so many digits. -/
def readUnsigned? (negative : Bool) (cs : List Char) :
    Option (Except Refusal (Json × List Char)) :=
  (readWhole? cs).map fun (whole, afterWhole) =>
    let (fraction, afterFraction) := readFraction afterWhole
    let power := readPower afterFraction
    if fraction.isEmpty && power.isNone then
      if digitLimit < whole.length then .error (.overlong whole.length, cs)
      else
        let size : Int := digitsValue whole
        .ok (.int (if negative then -size else size), afterWhole)
    else
      let (shift, rest) := power.getD (0, afterFraction)
      .ok (.float (Double.ofDecimal .wide negative (digitsValue (whole ++ fraction))
        (shift - fraction.length)), rest)

def readNumber? : List Char → Option (Except Refusal (Json × List Char))
  | '-' :: rest => readUnsigned? true rest
  | cs => readUnsigned? false cs

/-! ## Strings -/

def hexValue? (c : Char) : Option Nat :=
  if isDigit c then some (digitValue c)
  else if 'a' ≤ c && c ≤ 'f' then some (c.toNat - 'a'.toNat + 10)
  else if 'A' ≤ c && c ≤ 'F' then some (c.toNat - 'A'.toNat + 10)
  else none

/-- Four hexadecimal digits that something follows. -/
def readHex? : List Char → Option (Nat × List Char)
  | a :: b :: c :: d :: next :: rest => do
    let a ← hexValue? a
    let b ← hexValue? b
    let c ← hexValue? c
    let d ← hexValue? d
    pure (((a * 16 + b) * 16 + c) * 16 + d, next :: rest)
  | _ => none

/-- The character of a code unit; the half of a pair that stands alone is replaced. -/
def unitChar (n : Nat) : Char := if 0xd800 ≤ n && n < 0xe000 then '\ufffd' else Char.ofNat n

/-- The character that the digits after the letter `u` stand for: two escapes in a row may make
one character. -/
def readUnicode (start : List Char) (cs : List Char) : Except Refusal (Char × List Char) :=
  match readHex? cs with
  | none => .error (.unicodeEscape, start)
  | some (high, rest) =>
    if 0xd800 ≤ high && high < 0xdc00 then
      match rest with
      | '\\' :: 'u' :: more =>
        if more.length < 5 then .ok (unitChar high, rest)
        else
          match readHex? more with
          | none => .error (.unicodeEscape, 'u' :: more)
          | some (low, after) =>
            if 0xdc00 ≤ low && low < 0xe000 then
              .ok (Char.ofNat (0x10000 + (high - 0xd800) * 0x400 + (low - 0xdc00)), after)
            else .ok (unitChar high, rest)
      | _ => .ok (unitChar high, rest)
    else .ok (unitChar high, rest)

def escapedChar? : Char → Option Char
  | '"' => some '"'
  | '\\' => some '\\'
  | '/' => some '/'
  | 'b' => some '\x08'
  | 'f' => some '\x0c'
  | 'n' => some '\n'
  | 'r' => some '\r'
  | 't' => some '\t'
  | _ => none

/-- The rest of a string whose opening quote starts `whole`; `fuel` bounds its length. -/
def readChars (whole : List Char) : Nat → List Char → Except Refusal (List Char × List Char)
  | 0, _ => .error (.unterminatedString, whole)
  | _ + 1, [] => .error (.unterminatedString, whole)
  | _ + 1, '"' :: rest => .ok ([], rest)
  | _ + 1, ['\\'] => .error (.unterminatedString, whole)
  | fuel + 1, '\\' :: 'u' :: rest => do
    let (c, after) ← readUnicode ('u' :: rest) rest
    let (more, tail) ← readChars whole fuel after
    pure (c :: more, tail)
  | fuel + 1, '\\' :: c :: rest =>
    match escapedChar? c with
    | none => .error (.escape, '\\' :: c :: rest)
    | some meant => do
      let (more, tail) ← readChars whole fuel rest
      pure (meant :: more, tail)
  | fuel + 1, c :: rest =>
    if c.toNat < 0x20 then .error (.controlCharacter, c :: rest)
    else do
      let (more, tail) ← readChars whole fuel rest
      pure (c :: more, tail)

def readString (cs : List Char) : Except Refusal (String × List Char) :=
  (readChars ('"' :: cs) (cs.length + 1) cs).map fun (read, rest) => (String.ofList read, rest)

/-! ## Values -/

def afterWord? : List Char → List Char → Option (List Char)
  | [], cs => some cs
  | _ :: _, [] => none
  | w :: word, c :: cs => if w = c then afterWord? word cs else none

def words : List (List Char × Json) :=
  [("null".toList, .null), ("true".toList, .bool true), ("false".toList, .bool false),
    ("NaN".toList, .float .nan), ("Infinity".toList, .float (.infinite false)),
    ("-Infinity".toList, .float (.infinite true))]

def readAtom (cs : List Char) : Except Refusal (Json × List Char) :=
  match words.findSome? fun (word, meant) => (afterWord? word cs).map fun rest => (meant, rest) with
  | some read => .ok read
  | none =>
    match readNumber? cs with
    | some read => read
    | none => .error (.value, cs)

mutual

/-- A value at the start of `cs`; `fuel` bounds how deep values nest and how many follow one
another. -/
def readValue : Nat → List Char → Except Refusal (Json × List Char)
  | 0, cs => .error (.value, cs)
  | fuel + 1, cs =>
    match cs with
    | '"' :: rest => (readString rest).map fun (s, after) => (.str s, after)
    | '[' :: rest =>
      match skipBlanks rest with
      | ']' :: after => .ok (.array [], after)
      | start => (readItems fuel start).map fun (items, after) => (.array items, after)
    | '\x7b' :: rest =>
      match skipBlanks rest with
      | '\x7d' :: after => .ok (.object [], after)
      | start => (readMembers fuel start).map fun (members, after) => (ofMembers members, after)
    | _ => readAtom cs

def readItems : Nat → List Char → Except Refusal (List Json × List Char)
  | 0, cs => .error (.value, cs)
  | fuel + 1, cs => do
    let (item, rest) ← readValue fuel cs
    match skipBlanks rest with
    | ']' :: after => pure ([item], after)
    | ',' :: more =>
      let (items, after) ← readItems fuel (skipBlanks more)
      pure (item :: items, after)
    | other => .error (.comma, other)

def readMembers : Nat → List Char → Except Refusal (List (String × Json) × List Char)
  | 0, cs => .error (.propertyName, cs)
  | fuel + 1, cs =>
    match cs with
    | '"' :: quoted => do
      let (key, rest) ← readString quoted
      match skipBlanks rest with
      | ':' :: valued =>
        let (value, afterValue) ← readValue fuel (skipBlanks valued)
        match skipBlanks afterValue with
        | '\x7d' :: after => pure ([(key, value)], after)
        | ',' :: more =>
          let (members, after) ← readMembers fuel (skipBlanks more)
          pure ((key, value) :: members, after)
        | other => .error (.comma, other)
      | other => .error (.colon, other)
    | other => .error (.propertyName, other)

end

def readWholeText (cs : List Char) : Except Refusal Json :=
  match cs with
  | '\ufeff' :: _ => .error (.byteOrderMark, cs)
  | _ => do
    let (value, rest) ← readValue (2 * cs.length + 2) (skipBlanks cs)
    match skipBlanks rest with
    | [] => pure value
    | extra => .error (.extraData, extra)

def read (text : String) : Except JsonFault Json :=
  match readWholeText text.toList with
  | .ok value => .ok value
  | .error (complaint, rest) => .error ⟨complaint, text, text.toList.length - rest.length⟩

end Conform.Json
