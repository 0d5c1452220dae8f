import Conform.Json
import Conform.Number.Shortest
import Conform.Text.Quoted
/-!
JSON as text: on one line or indented, with everything outside ASCII escaped.
-/

set_option autoImplicit false

namespace Conform

namespace Text

def unicodeEscape (n : Nat) : List Char := '\\' :: 'u' :: hex 4 n

/-- A character of a JSON string: controls have a letter or four digits, and characters outside
ASCII four digits, or twice four beyond the first plane. -/
def jsonChar (c : Char) : List Char :=
  if c = '"' then ['\\', '"']
  else if c = '\\' then ['\\', '\\']
  else if c = '\n' then ['\\', 'n']
  else if c = '\r' then ['\\', 'r']
  else if c = '\t' then ['\\', 't']
  else if c = '\x0c' then ['\\', 'f']
  else if c = '\x08' then ['\\', 'b']
  else
    let n := c.toNat
    if n < 0x20 then unicodeEscape n
    else if n < 0x7f then [c]
    else if n < 0x10000 then unicodeEscape n
    else
      let offset := n - 0x10000
      unicodeEscape (0xd800 + offset / 0x400) ++ unicodeEscape (0xdc00 + offset % 0x400)

def jsonString (s : String) : List Char := '"' :: s.toList.flatMap jsonChar ++ ['"']

end Text

/-- How JSON is laid out: what stands between items and after keys, and what each level adds to
the start of a line, if items have lines of their own. -/
structure JsonLayout where
  itemGap : List Char
  keyGap : List Char
  indent : Option (List Char)

namespace JsonLayout

def dense : JsonLayout := ⟨[','], [':'], none⟩

def spaced : JsonLayout := ⟨[',', ' '], [':', ' '], none⟩

def indented (step : String) : JsonLayout := ⟨[','], [':', ' '], some step.toList⟩

def line (l : JsonLayout) (level : Nat) : List Char :=
  match l.indent with
  | none => []
  | some step => '\n' :: (List.replicate level step).flatten

end JsonLayout

def jsonFloat (x : Double) : String :=
  match x with
  | .nan => "NaN"
  | .infinite negative => if negative then "-Infinity" else "Infinity"
  | _ => x.text

namespace Json

mutual

def chars (l : JsonLayout) (level : Nat) : Json → List Char
  | .null => "null".toList
  | .bool b => (if b then "true" else "false").toList
  | .int n => (toString n).toList
  | .float x => (jsonFloat x).toList
  | .str s => Text.jsonString s
  | .array [] => ['[', ']']
  | .array (item :: rest) =>
    '[' :: l.line (level + 1) ++ chars l (level + 1) item ++ itemChars l (level + 1) rest
      ++ l.line level ++ [']']
  | .object [] => ['\x7b', '\x7d']
  | .object ((key, value) :: rest) =>
    '\x7b' :: l.line (level + 1) ++ Text.jsonString key ++ l.keyGap
      ++ chars l (level + 1) value ++ memberChars l (level + 1) rest ++ l.line level ++ ['\x7d']

def itemChars (l : JsonLayout) (level : Nat) : List Json → List Char
  | [] => []
  | item :: rest => l.itemGap ++ l.line level ++ chars l level item ++ itemChars l level rest

def memberChars (l : JsonLayout) (level : Nat) : List (String × Json) → List Char
  | [] => []
  | (key, value) :: rest =>
    l.itemGap ++ l.line level ++ Text.jsonString key ++ l.keyGap ++ chars l level value
      ++ memberChars l level rest

end

def text (l : JsonLayout) (j : Json) : String := String.ofList (j.chars l 0)

end Json

end Conform
