import Conform.Mismatch
import Conform.Text.Line
/-!
The words for what went wrong.
-/

set_option autoImplicit false

namespace Conform

def counted (n : Nat) (thing : String) : String :=
  toString n ++ " " ++ thing ++ (if n = 1 then "" else "s")

def nameList (names : List String) : String :=
  match names.map Text.quoted with
  | [] => ""
  | [a] => a
  | [a, b] => a ++ " and " ++ b
  | quoted => String.intercalate ", " quoted.dropLast ++ ", and " ++ quoted.getLastD ""

def Misfit.message (callee : String) : Misfit → String
  | .tooMany accepted given =>
    callee ++ "() takes " ++ counted accepted "positional argument" ++ " but " ++ toString given
      ++ (if given = 1 then " was given" else " were given")
  | .missing names =>
    callee ++ "() missing " ++ toString names.length ++ " required positional "
      ++ (if names.length = 1 then "argument: " else "arguments: ") ++ nameList names
  | .missingKeywords names =>
    callee ++ "() missing " ++ toString names.length ++ " required keyword-only "
      ++ (if names.length = 1 then "argument: " else "arguments: ") ++ nameList names

/-! ## Documents -/

def locationText (location : List DocumentStep) : String :=
  "root" ++ String.join (location.map fun
    | .index i => "[" ++ toString i ++ "]"
    | .key name => "." ++ name)

def DocumentFault.message (h : Heap) : DocumentFault → String
  | .notTagged node => "expected a type name, list or tagged node, got " ++ h.written node
  | .unknownTag tag => "unknown schema tag " ++ h.written tag
  | .unknownPredicate name => "unknown predicate " ++ h.written name
  | .sourceNotText => "regexp source must be a string"
  | .badPattern source fault =>
    "invalid regexp " ++ Text.quoted source ++ ": " ++ fault.message source
  | .notMapping => "obj payload must be a mapping"
  | .notList tag => h.text tag ++ " payload must be a list"

/-! ## Files and texts -/

def PathRefusal.message (refusal : PathRefusal) (path : String) : String :=
  let reason := match refusal with
    | .missing => "[Errno 2] No such file or directory"
    | .exists => "[Errno 17] File exists"
    | .notDirectory => "[Errno 20] Not a directory"
    | .isDirectory => "[Errno 21] Is a directory"
    | .nameTooLong => "[Errno 36] File name too long"
  reason ++ ": " ++ Text.quoted path

/-- More digits than an integer may have in a text, and how many if they were counted. -/
def overlongMessage (digits : Option Nat) : String :=
  "Exceeds the limit (" ++ toString digitLimit ++ " digits) for integer string conversion"
    ++ (match digits with
      | some count => ": value has " ++ toString count ++ " digits"
      | none => "")
    ++ "; use sys.set_int_max_str_digits() to increase the limit"

def JsonComplaint.message : JsonComplaint → String
  | .byteOrderMark => "Unexpected UTF-8 BOM (decode using utf-8-sig)"
  | .value => "Expecting value"
  | .extraData => "Extra data"
  | .comma => "Expecting ',' delimiter"
  | .colon => "Expecting ':' delimiter"
  | .propertyName => "Expecting property name enclosed in double quotes"
  | .unterminatedString => "Unterminated string starting at"
  | .controlCharacter => "Invalid control character at"
  | .escape => "Invalid \\escape"
  | .unicodeEscape => "Invalid \\uXXXX escape"
  | .overlong digits => overlongMessage (some digits)

def JsonFault.message (f : JsonFault) : String :=
  let before := f.text.toList.take f.position
  f.complaint.message ++ ": line " ++ toString (Text.lineAfter before) ++ " column "
    ++ toString (Text.columnAfter before) ++ " (char " ++ toString f.position ++ ")"

/-! ## Failures -/

def valueList (h : Heap) (values : List Value) : String :=
  "[" ++ commaList (values.map h.written) ++ "]"

def Failure.message (h : Heap) : Failure → String
  | .raised kind message => if kind == "KeyError" then Text.quoted message else message
  | .mismatch path actual expected => Mismatch.sentence h ⟨path, actual, expected⟩
  | .unsupportedNode node =>
    "Unsupported schema node of type " ++ h.typeName node ++ ": " ++ h.written node
  | .unserialisableNode node => "Cannot serialise schema node of type " ++ h.typeName node
  | .malformed location fault => locationText location ++ ": " ++ fault.message h
  | .unusablePattern fault => fault.message ""
  | .misfit callee cause => cause.message callee
  | .patternOfBytes => "cannot use a bytes pattern on a string-like object"
  | .noLength v => "object of type '" ++ h.fullTypeName v ++ "' has no len()"
  | .noItem array => h.typeName array ++ " index out of range"
  | .ambiguousTruth v =>
    "The truth value of a " ++ h.typeName v ++ " is ambiguous. Use a.empty, a.bool(), a.item(), "
      ++ "a.any() or a.all()."
  | .beyondFloat => "integer division result too large for a float"
  | .unhashable v => "unhashable type: '" ++ h.typeName v ++ "'"
  | .unordered left right =>
    "'<' not supported between instances of '" ++ h.fullTypeName left ++ "' and '"
      ++ h.fullTypeName right ++ "'"
  | .unsupportedOptions v => "Unsupported options type: " ++ h.typeName v
  | .unknownOptions names => "Unknown validation option(s): " ++ valueList h names
  | .nonBooleanOptions names =>
    "Validation option(s) must be true or false: " ++ valueList h names
  | .frozenField field => "cannot assign to field " ++ Text.quoted field
  | .readOnlyProperty owner field =>
    "property " ++ Text.quoted field ++ " of " ++ Text.quoted owner ++ " object has no setter"
  | .noAttribute owner field =>
    Text.quoted owner ++ " object has no attribute " ++ Text.quoted field
  | .notJson v => "Object of type " ++ h.typeName v ++ " is not JSON serializable"
  | .notJsonKey v => "keys must be str, int, float, bool or None, not " ++ h.typeName v
  | .overlong digits => overlongMessage digits
  | .refusedPath refusal path => refusal.message path
  | .nullInPath => "embedded null byte"
  | .notFound what path => what ++ " not found: " ++ path
  | .undecodable fault => fault.message
  | .badJson fault => fault.message
  | .badJsonIn path fault => "Invalid JSON in " ++ path ++ ": " ++ fault.message
  | .optionsNotObject path => "Options file " ++ path ++ " must contain a JSON object"
  | .endless => "maximum recursion depth exceeded"

end Conform
