import Conform.Failure
/-!
A tree of files below a working directory, and the paths that lead to them.
-/

set_option autoImplicit false

namespace Conform

/-! ## Paths -/

/-- A path: its names from the working directory on, or from the root of everything. -/
structure PathName where
  absolute : Bool
  names : List String
  deriving DecidableEq

namespace PathName

/-- Reads a path; empty names and single points lead nowhere. -/
def ofText (text : String) : PathName :=
  ⟨text.startsWith "/", (text.splitOn "/").filter fun name => name != "" && name != "."⟩

/-- Reads a path of which every name counts: after a final slash, the path leads to a directory. -/
def exactly (text : String) : PathName :=
  let names := text.splitOn "/"
  let leading := names.dropLast.filter (· != "")
  let last := names.getLastD ""
  ⟨text.startsWith "/", leading ++ [if last == "" then "." else last]⟩

def text (p : PathName) : String :=
  let joined := String.intercalate "/" p.names
  if p.absolute then "/" ++ joined else if joined.isEmpty then "." else joined

def parent (p : PathName) : PathName := { p with names := p.names.dropLast }

/-- The place that a name leads to from another: two points lead to the place above, which is
written out above the working directory and is the root itself above the root. -/
def enter (place : List String) (name : String) : List String :=
  if name = "." then place
  else if name = ".." then
    match place.getLast? with
    | some ".." => place ++ [".."]
    | some "/" => place
    | some _ => place.dropLast
    | none => [".."]
  else place ++ [name]

def origin (p : PathName) : List String := if p.absolute then ["/"] else []

def place (p : PathName) : List String := p.names.foldl enter p.origin

def isImpossible (p : PathName) : Bool := p.names.any fun name => name.toList.contains '\x00'

end PathName

/-! ## Trees -/

inductive FileEntry where
  | file (bytes : List UInt8)
  | directory
  deriving DecidableEq

/-- The entries of a tree by their places; the directories above an entry exist with it. -/
structure Files where
  entries : List (List String × FileEntry)

namespace Files

def longestName : Nat := 255

def entry? (f : Files) (place : List String) : Option FileEntry :=
  match f.entries.find? fun e => e.1 == place with
  | some (_, entry) => some entry
  | none =>
    if f.entries.any fun e => place.isPrefixOf e.1 then some .directory else none

/-- Goes on from a directory; every name but the last has to lead to another one. -/
def walk (f : Files) : List String → List String → Except PathRefusal FileEntry
  | _, [] => .ok .directory
  | place, name :: rest =>
    if name = "." ∨ name = ".." then walk f (PathName.enter place name) rest
    else if longestName < name.utf8ByteSize then .error .nameTooLong
    else
      match f.entry? (place ++ [name]) with
      | none => .error .missing
      | some .directory => walk f (place ++ [name]) rest
      | some (.file bytes) => if rest.isEmpty then .ok (.file bytes) else .error .notDirectory

def locate (f : Files) (p : PathName) : Except PathRefusal FileEntry := f.walk p.origin p.names

def isFile (f : Files) (p : PathName) : Bool :=
  match f.locate p with
  | .ok (.file _) => !p.isImpossible
  | _ => false

def isDirectory (f : Files) (p : PathName) : Bool :=
  match f.locate p with
  | .ok .directory => true
  | _ => false

def read (f : Files) (p : PathName) : Except Failure (List UInt8) :=
  if p.isImpossible then .error .nullInPath
  else
    match f.locate p with
    | .ok (.file bytes) => .ok bytes
    | .ok .directory => .error (.refusedPath .isDirectory p.text)
    | .error refusal => .error (.refusedPath refusal p.text)

def makeDirectory (f : Files) (p : PathName) : Except PathRefusal Files :=
  match f.locate p with
  | .ok _ => .error .exists
  | .error .missing =>
    match f.locate p.parent with
    | .ok .directory => .ok ⟨f.entries ++ [(p.place, .directory)]⟩
    | .ok (.file _) => .error .notDirectory
    | .error refusal => .error refusal
  | .error refusal => .error refusal

/-- Makes a directory and those above it, as far as they are missing; `levels` bounds how many
there are. -/
def makeDirectories (f : Files) : Nat → PathName → Except Failure Files
  | levels, p =>
    if p.isImpossible then .error .nullInPath
    else
      match f.makeDirectory p, levels with
      | .ok made, _ => .ok made
      | .error .missing, levels + 1 => do
        let above ← f.makeDirectories levels p.parent
        match above.makeDirectory p with
        | .ok made => pure made
        | .error refusal =>
          if above.isDirectory p then pure above else .error (.refusedPath refusal p.text)
      | .error refusal, _ =>
        if f.isDirectory p then .ok f else .error (.refusedPath refusal p.text)

def acceptsFile (f : Files) (p : PathName) : Except Failure Unit :=
  if p.isImpossible then .error .nullInPath
  else
    match f.locate p with
    | .ok (.file _) => .ok ()
    | .ok .directory => .error (.refusedPath .isDirectory p.text)
    | .error .missing =>
      if f.isDirectory p.parent then .ok () else .error (.refusedPath .missing p.text)
    | .error refusal => .error (.refusedPath refusal p.text)

end Files

end Conform
