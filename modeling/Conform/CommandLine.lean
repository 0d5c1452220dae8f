import Conform.CommandLine.Arguments
import Conform.Document.Storage
import Conform.Failure.Message
import Conform.Validation
/-!
The command: it reads a schema and a value, checks one against the other, and says so.
-/

set_option autoImplicit false

namespace Conform.CommandLine

/-- What the command leaves: its exit code and what it wrote. -/
structure Outcome where
  code : Nat
  out : String
  err : String

/-! ## Files of arguments -/

inductive Refusal where
  | usage (fault : UsageFault)
  | failure (failure : Failure)

def endsLine (c : Char) : Bool :=
  c == '\n' || c == '\r' || c == '\x0b' || c == '\x0c' || c == '\x1c' || c == '\x1d' || c == '\x1e'
    || c == '\u0085' || c == '\u2028' || c == '\u2029'

/-- The lines of a text; an end of line at the very end starts no line. -/
def linesOf (text : String) : List String :=
  let (first, others) := text.toList.foldr
    (fun c (line, lines) => if endsLine c then ([], line :: lines) else (c :: line, lines))
    ([], [])
  let lines := first :: others
  let counted := if lines.getLast? = some [] then lines.dropLast else lines
  counted.map String.ofList

def argumentsIn (h : Heap) (files : Files) (path : String) : Except Refusal (List String) :=
  let p := PathName.exactly path
  let refused := fun (refusal : PathRefusal) =>
    Except.error (.usage (.unreadable (Failure.message h (.refusedPath refusal path))))
  if path.isEmpty then refused .missing
  else
    match readText files p with
    | .ok text => .ok (linesOf text)
    | .error (.refusedPath refusal _) => refused refusal
    | .error failure => .error (.failure failure)

/-- Arguments with those that name files replaced by what is in the files, at most `depth` deep. -/
def expandArguments (h : Heap) (files : Files) : Nat → List String → Except Refusal (List String)
  | 0, arguments =>
    if arguments.any fun a => a.startsWith "@" then .error (.failure .endless) else .ok arguments
  | depth + 1, arguments => do
    let parts ← arguments.mapM fun a =>
      if a.startsWith "@" then do
        expandArguments h files depth (← argumentsIn h files (a.drop 1).toString)
      else pure [a]
    pure parts.flatten

/-! ## Checks -/

def logLine (least : Level) (stamp : String) (level : Level) (source text : String) : String :=
  if least.rank ≤ level.rank then
    stamp ++ " " ++ level.name ++ " shape_schema." ++ source ++ ": " ++ text ++ "\n"
  else ""

/-- Failures of loading that the command reports; others end it. -/
def isReported : Failure → Bool
  | .refusedPath _ _ => true
  | .nullInPath => true
  | .notFound _ _ => true
  | .undecodable _ => true
  | .badJson _ => true
  | .badJsonIn _ _ => true
  | .optionsNotObject _ => true
  | .unknownOptions _ => true
  | .nonBooleanOptions _ => true
  | .malformed _ _ => true
  | .overlong _ => true
  | .unusablePattern .incompatibleAlphabets => true
  | _ => false

/-- The options of a check: those of its file, unless the flag forbids undeclared properties. -/
def optionsOf (h : Heap) (files : Files) (c : CheckRequest) : Except Failure Options := do
  let options ← match c.config with
    | some path => if path.isEmpty then pure Options.default else loadOptions h files path
    | none => pure Options.default
  pure (if c.noExcessProps then ⟨.bool true⟩ else options)

structure Material where
  schema : Value
  value : Value
  options : Options

/-- A world without shared containers and without functions, in which all documents live. -/
def documentWorld : World := ⟨Heap.empty, fun _ _ => .answer .null, 0⟩

def verdict (c : CheckRequest) (stamp loaded : String) (m : Material) : Except Failure Outcome := do
  let world := documentWorld
  let log := logLine c.verbosity stamp
  let setting ← world.setting m.options.toValue
  let policy := if setting.owner.closed then "NoExcessProps" else "ExcessPropsAllowed"
  let started := loaded
    ++ log .info "parser" ("validating " ++ c.value ++ " against " ++ c.schema)
    ++ log .debug "validator" ("validator created with " ++ policy)
  match ← (setting.validate m.schema m.value Trace.start).1 with
  | none => pure ⟨0, "OK\n", started⟩
  | some mismatch =>
    pure ⟨1, "", started
      ++ log .debug "validator" ("mismatch at " ++ mismatch.pathText world.heap)
      ++ mismatch.sentence world.heap ++ "\n"⟩

def report (c : CheckRequest) (stamp loaded : String) (failure : Failure) :
    Except Failure Outcome :=
  if isReported failure then
    let text := failure.message Heap.empty
    .ok ⟨2, "", loaded ++ logLine c.verbosity stamp .error "parser" text
      ++ "error: " ++ text ++ "\n"⟩
  else .error failure

/-- Loads the schema, the value and the options, in this order, and checks them. -/
def check (c : CheckRequest) (stamp : String) (files : Files) : Except Failure Outcome :=
  let h := Heap.empty
  match loadSchema h files (Document.Registry.extended h []) c.schema with
  | .error failure => report c stamp "" failure
  | .ok schema =>
    let loaded := logLine c.verbosity stamp .debug "loader"
      ("loaded schema from " ++ (PathName.ofText c.schema).text)
    let material := do
      let value ← parseValue files c.value
      let options ← optionsOf h files c
      pure (⟨schema, value, options⟩ : Material)
    match material with
    | .error failure => report c stamp loaded failure
    | .ok m => verdict c stamp loaded m

/-- Runs the command on arguments; log lines start with `stamp`. -/
def run (stamp : String) (files : Files) (arguments : List String) : Except Failure Outcome :=
  let complain := fun (fault : UsageFault) => Except.ok (⟨2, "", fault.text⟩ : Outcome)
  match expandArguments Heap.empty files (files.entries.length + 1) arguments with
  | .error (.usage fault) => complain fault
  | .error (.failure failure) => .error failure
  | .ok expanded =>
    match readArguments expanded with
    | .error fault => complain fault
    | .ok .help => .ok ⟨0, helpText, ""⟩
    | .ok .version => .ok ⟨0, versionText, ""⟩
    | .ok (.check c) => check c stamp files

end Conform.CommandLine
