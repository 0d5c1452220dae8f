import Conform.Value.Json
import Conform.Value.Property
import Conform.Value.Truth
/-!
Schemas, paths and mismatches as people read them: an object schema has a line for each of its
properties, a path is written as property accesses, and a mismatch is a sentence.
-/

set_option autoImplicit false

namespace Conform

/-! ## Names of predicates -/

def Value.predicateName? (v : Value) : Option Value :=
  match v.attribute? "__name__" with
  | .ok name => name
  | .error _ => none

/-- A predicate by its name in angle brackets, which some names have already. -/
def predicateText (h : Heap) (v : Value) : String :=
  match v.predicateName? with
  | none => "<anonymous>"
  | some name =>
    match name.text? with
    | some "" => "<anonymous>"
    | some text => if text.startsWith "<" then text else "<" ++ h.plain name ++ ">"
    | none =>
      match h.truth name with
      | .ok false => "<anonymous>"
      | _ => "<" ++ h.plain name ++ ">"

/-! ## Steps of a path -/

/-- Names that follow a point: ASCII letters, digits, underscores and dollar signs, with no digit
in front. -/
def isIdentifier (s : String) : Bool :=
  match s.toList with
  | [] => false
  | c :: rest => startsName c && rest.all fun d => startsName d || isDigit d
where
  startsName (c : Char) : Bool :=
    ('A' ≤ c && c ≤ 'Z') || ('a' ≤ c && c ≤ 'z') || c == '_' || c == '$'

def Double.stepText (x : Double) : String :=
  match x with
  | .nan => "NaN"
  | .infinite negative => if negative then "-Infinity" else "Infinity"
  | _ =>
    match x.toInt? with
    | some n => toString n
    | none => x.text

def nameStep (name shown : String) : String :=
  if isIdentifier name then "." ++ shown else "['" ++ shown ++ "']"

def mismatchSentence (json : Option String) (path schema : String) : String :=
  let subject := match json with
    | some text => "value (" ++ text ++ ")"
    | none => "value"
  subject ++ " at '" ++ path ++ "' failed to match to the given schema (" ++ schema ++ ")"

/-! ## Schemas -/

def margin (depth : Nat) : String := "".pushn ' ' (4 * depth)

/-- A schema inside a longer text, where a member is shown by its name. -/
def embedded (schema : Value) (rendered : String) : String :=
  match schema with
  | .object _ (.strMember member _) => member.text
  | _ => rendered

def linesText (depth : Nat) : List String → String
  | [] => "\x7b\x7d"
  | entries =>
    "\x7b\n" ++ String.intercalate ",\n" (entries.map (margin (depth + 1) ++ ·)) ++ "\n"
      ++ margin depth ++ "\x7d"

def entryText (key rendered : String) : String :=
  String.ofList (Text.jsonString key) ++ ": " ++ rendered

mutual

/-- A schema at a depth, with links shown by `onLink`. -/
def renderWith (h : Heap) (onLink : Nat → Nat → String) (depth : Nat) : Value → String
  | .str atom => atom
  | .check c => predicateText h (.check c)
  | .list items => "[" ++ commaList (renderAll h onLink depth items) ++ "]"
  | .tuple items => "[" ++ commaList (renderAll h onLink depth items) ++ "]"
  | .union members => String.intercalate " | " (renderAll h onLink depth members)
  | .mapping entries => linesText depth (renderEntries h onLink (depth + 1) entries)
  | .link address => onLink depth address
  | .object handle content => renderObject h onLink depth handle content
  | v => h.written v

def renderAll (h : Heap) (onLink : Nat → Nat → String) (depth : Nat) : List Value → List String
  | [] => []
  | v :: rest => renderWith h onLink depth v :: renderAll h onLink depth rest

def renderEntries (h : Heap) (onLink : Nat → Nat → String) (depth : Nat) :
    List (Value × Value) → List String
  | [] => []
  | (k, v) :: rest =>
    entryText (textWith h onLink k) (embedded v (renderWith h onLink depth v))
      :: renderEntries h onLink depth rest

def renderObject (h : Heap) (onLink : Nat → Nat → String) (depth : Nat)
    (handle : Option Nat) : Object → String
  | .strMember _ s => s
  | .pattern p => "/" ++ p.source ++ "/"
  | .bytePattern p => "/" ++ Text.quotedBytes p.source ++ "/"
  | .set items => String.intercalate " | " (renderAll h onLink depth items)
  | .frozenSet items => String.intercalate " | " (renderAll h onLink depth items)
  | .proxy entries => linesText depth (renderEntries h onLink (depth + 1) entries)
  | content =>
    let v := Value.object handle content
    if v.isCallable then predicateText h v else h.written v

/-- The plain text of a value; that of a mismatch is its sentence. -/
def textWith (h : Heap) (onLink : Nat → Nat → String) : Value → String
  | .object _ (.mismatch path actual expected) =>
    mismatchSentence (h.jsonText? actual) ("root" ++ stepsWith h onLink path)
      (embedded expected (renderWith h onLink 0 expected))
  | v => h.plain v

/-- The steps of a path: names after points or in quotes, everything else in square brackets. -/
def stepsWith (h : Heap) (onLink : Nat → Nat → String) : List Value → String
  | [] => ""
  | .str name :: rest => nameStep name name ++ stepsWith h onLink rest
  | .object _ (.strMember member name) :: rest =>
    nameStep name member.text ++ stepsWith h onLink rest
  | .float x :: rest => "[" ++ x.stepText ++ "]" ++ stepsWith h onLink rest
  | .object _ (.machine (.float64 x)) :: rest =>
    "[" ++ x.stepText ++ "]" ++ stepsWith h onLink rest
  | step :: rest => "[" ++ textWith h onLink step ++ "]" ++ stepsWith h onLink rest

end

/-! ## Values without a text -/

mutual

/-- Whether showing a value comes to an integer of too many digits. -/
def Value.isOverlong : Value → Bool
  | .int n => Conform.isOverlong n
  | .list items => anyOverlong items
  | .tuple items => anyOverlong items
  | .mapping entries => anyEntryOverlong entries
  | .union members => anyOverlong members
  | .object _ content => content.isOverlong
  | _ => false

def anyOverlong : List Value → Bool
  | [] => false
  | v :: rest => v.isOverlong || anyOverlong rest

def anyEntryOverlong : List (Value × Value) → Bool
  | [] => false
  | (k, v) :: rest => k.isOverlong || v.isOverlong || anyEntryOverlong rest

def Object.isOverlong : Object → Bool
  | .fraction num den => Conform.isOverlong num || Conform.isOverlong den
  | .symbol _ value => value.isOverlong
  | .intMember _ n => Conform.isOverlong n
  | .set items => anyOverlong items
  | .frozenSet items => anyOverlong items
  | .proxy entries => anyEntryOverlong entries
  | .options flag => flag.isOverlong
  | .mismatch path actual expected =>
    anyOverlong path || actual.isOverlong || expected.isOverlong
  | _ => false

end

mutual

/-- Whether the plain text of a value comes to an integer of too many digits. A member stands there
by its name, and a mismatch does without a value that is too long. -/
def Value.isOverlongText : Value → Bool
  | .object _ (.symbol _ _) => false
  | .object _ (.mismatch path _ expected) => anyOverlongText path || expected.isOverlong
  | v => v.isOverlong

def anyOverlongText : List Value → Bool
  | [] => false
  | v :: rest => v.isOverlongText || anyOverlongText rest

end

namespace Heap

/-- A schema through at most `links` links in a row. -/
def renderAt (h : Heap) : Nat → Nat → Value → String
  | 0 => renderWith h fun _ _ => "..."
  | links + 1 => renderWith h fun depth address => h.renderAt links depth (h.cell address)

def render (h : Heap) (schema : Value) : String := h.renderAt (h.size + 1) 0 schema

/-- What a link inside a path or a key shows. -/
def renderLink (h : Heap) (depth address : Nat) : String :=
  h.renderAt h.size depth (h.cell address)

def text (h : Heap) (v : Value) : String := textWith h h.renderLink v

/-- The text of a value as a key of a document; keys have no links in them. -/
def keyText (h : Heap) (k : Value) : Except Failure String :=
  if k.isOverlongText then .error (.overlong none) else .ok (h.text k)

def pathText (h : Heap) (path : List Value) : String := "root" ++ stepsWith h h.renderLink path

end Heap

end Conform
