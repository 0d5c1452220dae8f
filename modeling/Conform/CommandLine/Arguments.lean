import Conform.CommandLine.Usage
import Conform.Text.Letter
/-!
Reading arguments: options by any unambiguous beginning, values attached or following, and
everything else left over.
-/

set_option autoImplicit false

namespace Conform.CommandLine

/-! ## Pieces -/

inductive Piece where
  /-- No option; it may be the value of one. -/
  | plain (text : String)
  /-- Two dashes, after which nothing is an option. -/
  | separator
  | option (s : Switch) (attached : Option String)
  | shortHelp (bySign : Bool) (attached : List Char)
  | stranger (text : String)

def isNegativeNumber (text : String) : Bool :=
  let isDecimal := fun c => Text.decimalDigit.contains c
  let body := match text.toList.getLast? with
    | some '\n' => text.toList.dropLast
    | _ => text.toList
  match body with
  | '-' :: digits =>
    let whole := digits.takeWhile isDecimal
    match digits.dropWhile isDecimal with
    | [] => !whole.isEmpty
    | '.' :: fraction => !fraction.isEmpty && fraction.all isDecimal
    | _ => false
  | _ => false

def splitSign? (text : String) : Option (String × String) :=
  let cs := text.toList
  if cs.contains '=' then
    some (String.ofList (cs.takeWhile (· ≠ '=')), String.ofList ((cs.dropWhile (· ≠ '=')).drop 1))
  else none

def strangerOrPlain (text : String) : Piece :=
  if isNegativeNumber text || text.toList.contains ' ' then .plain text else .stranger text

/-- An argument that starts with two dashes but is no spelling: the beginning of some. -/
def abbreviated (text : String) : Except UsageFault Piece :=
  let (start, attached) := match splitSign? text with
    | some (start, attached) => (start, some attached)
    | none => (text, none)
  match Switch.startingWith start with
  | [] => .ok (strangerOrPlain text)
  | [(_, s)] => .ok (.option s attached)
  | several => .error (.ambiguous text (several.map Prod.fst))

def signed? (text : String) : Option Piece := do
  let (spelling, attached) ← splitSign? text
  let s ← Switch.ofText? spelling
  pure (if spelling.startsWith "--" then .option s (some attached)
    else .shortHelp true attached.toList)

def classify (text : String) : Except UsageFault Piece :=
  match text.toList with
  | '-' :: next :: rest =>
    match Switch.ofText? text, signed? text with
    | some s, _ => .ok (.option s none)
    | none, some piece => .ok piece
    | none, none =>
      if next = '-' then abbreviated text
      else if next = 'h' then .ok (.shortHelp false rest)
      else .ok (strangerOrPlain text)
  | _ => .ok (.plain text)

def pieces : List String → Except UsageFault (List Piece)
  | [] => .ok []
  | text :: rest =>
    if text = "--" then .ok (.separator :: rest.map .plain)
    else do
      let piece ← classify text
      let others ← pieces rest
      pure (piece :: others)

/-! ## Requests -/

structure CheckRequest where
  schema : String
  value : String
  config : Option String
  noExcessProps : Bool
  verbosity : Level

inductive Request where
  | help
  | version
  | check (c : CheckRequest)

structure Gathered where
  schema : Option String
  value : Option String
  config : Option String
  noExcessProps : Bool
  verbosity : Level
  extras : List String

namespace Gathered

def start : Gathered := ⟨none, none, none, false, .warning, []⟩

def extra (g : Gathered) (text : String) : Gathered := { g with extras := g.extras ++ [text] }

def put (g : Gathered) (s : Switch) (text : String) : Except UsageFault Gathered :=
  match s with
  | .schema => .ok { g with schema := some text }
  | .value => .ok { g with value := some text }
  | .config => .ok { g with config := some text }
  | .verbosity =>
    match Level.ofName? text with
    | some level => .ok { g with verbosity := level }
    | none => .error (.unknownLevel text)
  | _ => .ok g

/-- The check that the options ask for: nothing required is missing and nothing is left over. -/
def finish (g : Gathered) : Except UsageFault Request :=
  match g.schema, g.value with
  | some schema, some value =>
    if g.extras.isEmpty then
      .ok (.check ⟨schema, value, g.config, g.noExcessProps, g.verbosity⟩)
    else .error (.unrecognized g.extras)
  | schema, value =>
    .error (.missing ((if schema.isNone then [.schema] else [])
      ++ (if value.isNone then [.value] else [])))

end Gathered

/-- What is attached to the short option: more of the same, or characters that count for nothing;
a sign or a dash is a complaint. -/
def readShortHelp : Bool → List Char → Except UsageFault Request
  | true, text => .error (.valueIgnored .help (String.ofList text))
  | false, '-' :: rest => .error (.valueIgnored .help (String.ofList ('-' :: rest)))
  | false, 'h' :: '=' :: rest => .error (.valueIgnored .help (String.ofList rest))
  | false, 'h' :: rest => readShortHelp false rest
  | false, _ => .ok .help

/-- Takes the pieces one after the other; help and version end the reading. -/
def gather (g : Gathered) : List Piece → Except UsageFault Request
  | [] => g.finish
  | .plain text :: rest => gather (g.extra text) rest
  | .separator :: rest => gather (g.extra "--") rest
  | .stranger text :: rest => gather (g.extra text) rest
  | .shortHelp bySign attached :: _ => readShortHelp bySign attached
  | .option s (some attached) :: rest =>
    if s.takesValue then do gather (← g.put s attached) rest
    else .error (.valueIgnored s attached)
  | .option .help none :: _ => .ok .help
  | .option .version none :: _ => .ok .version
  | .option .noExcessProps none :: rest => gather { g with noExcessProps := true } rest
  | .option s none :: .plain text :: rest => do gather (← g.put s text) rest
  | .option s none :: _ => .error (.valueExpected s)

def readArguments (arguments : List String) : Except UsageFault Request := do
  gather .start (← pieces arguments)

end Conform.CommandLine
