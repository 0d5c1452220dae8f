import Conform.Document.Decoding
import Conform.Document.Encoding
import Conform.Files
import Conform.Json.Reading
import Conform.Options
import Conform.Text.Utf8
/-!
Schemas, options and values in files of JSON.
-/

set_option autoImplicit false

namespace Conform

/-! ## Reading -/

def readText (files : Files) (p : PathName) : Except Failure String := do
  let bytes ← files.read p
  match Text.decodeUtf8 bytes with
  | .ok text => pure (String.ofList (Text.unifyLineEnds text.toList))
  | .error fault => .error (.undecodable fault)

/-- The JSON in a file; `what` says in a complaint what is missing. -/
def readDocument (files : Files) (what : String) (p : PathName) : Except Failure Value := do
  let text ← match readText files p with
    | .error (.refusedPath .missing path) => .error (.notFound what path)
    | result => result
  match Json.read text with
  | .ok json => pure json.toValue
  | .error fault => .error (fault.failure (.badJsonIn p.text))

def loadSchema (h : Heap) (files : Files) (r : Document.Registry) (path : String) :
    Except Failure Value := do
  Document.decode h r (← readDocument files "Schema" (.ofText path))

/-- The options in a file, which have to be a mapping. -/
def loadOptions (h : Heap) (files : Files) (path : String) : Except Failure Options := do
  let p := PathName.ofText path
  match ← readDocument files "Options file" p with
  | .mapping entries => Options.ofEntries h entries
  | _ => .error (.optionsNotObject p.text)

def readValue (text : String) : Except Failure Value :=
  match Json.read text with
  | .ok json => .ok json.toValue
  | .error fault => .error (fault.failure .badJson)

/-- The value in the file of that name if there is one, else the value that the text itself is. -/
def parseValue (files : Files) (source : String) : Except Failure Value := do
  if files.isFile (.exactly source) then
    readValue (← readText files (.ofText source))
  else readValue source

/-! ## Writing -/

def Document.integer (n : Int) : Except Failure Json :=
  if isOverlong n then .error (.overlong none) else .ok (.int n)

/-- What is wrong with a key that has no text in JSON: an integer can only be too long. -/
def Document.keyFailure : Value → Failure
  | .int _ => .overlong none
  | .object _ (.intMember _ _) => .overlong none
  | k => .notJsonKey k

mutual

def Document.json : Value → Except Failure Json
  | .null => .ok .null
  | .bool b => .ok (.bool b)
  | .int n => Document.integer n
  | .float x => .ok (.float x)
  | .str s => .ok (.str s)
  | .object _ (.strMember _ s) => .ok (.str s)
  | .object _ (.intMember _ n) => Document.integer n
  | .object _ (.machine (.float64 x)) => .ok (.float x)
  | .list items => do pure (.array (← Document.jsonItems items))
  | .tuple items => do pure (.array (← Document.jsonItems items))
  | .mapping entries => do pure (.object (← Document.jsonMembers entries))
  | v => .error (.notJson v)

def Document.jsonItems : List Value → Except Failure (List Json)
  | [] => .ok []
  | v :: rest => do
    let first ← Document.json v
    let others ← Document.jsonItems rest
    pure (first :: others)

def Document.jsonMembers : List (Value × Value) → Except Failure (List (String × Json))
  | [] => .ok []
  | (k, v) :: rest => do
    let key ← match k.jsonKey? with
      | some key => pure key
      | none => throw (Document.keyFailure k)
    let value ← Document.json v
    let others ← Document.jsonMembers rest
    pure ((key, value) :: others)

end

/-- The layout that an indentation calls for: one line without any, else so many spaces, or a
text, on each level. -/
def layoutOf (indent : Value) : JsonLayout :=
  match indent with
  | .int n => .indented ("".pushn ' ' n.toNat)
  | .bool b => .indented (if b then " " else "")
  | .str s => .indented s
  | _ => .spaced

/-- The text that a schema has in a file, after the directories of the file have been made. -/
def dumpSchema (h : Heap) (files : Files) (path : String) (layout : JsonLayout)
    (schema : Value) : Except Failure String := do
  let p := PathName.ofText path
  let files ← files.makeDirectories p.names.length p.parent
  let document ← Document.encode h schema
  let json ← Document.json document
  files.acceptsFile p
  pure (json.text layout)

end Conform
