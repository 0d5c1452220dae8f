import Conform.CommandLine
import Std.Time
/-!
The program: it puts the files that its arguments name into a tree, runs the command on it, and
prints what the command wrote.
-/

set_option autoImplicit false

namespace Conform.Main

def candidates (argument : String) : List String :=
  let attached := match CommandLine.splitSign? argument with
    | some (_, text) => [text]
    | none => []
  argument :: (argument.drop 1).toString :: attached

def above (p : PathName) : List PathName :=
  (List.range (p.names.length + 1)).map fun n => { p with names := p.names.take n }

def entryAt (p : PathName) : IO (Option FileEntry) := do
  try
    let bytes ← IO.FS.readBinFile p.text
    pure (some (.file bytes.toList))
  catch
    | .noFileOrDirectory .. => pure none
    | _ => pure (some .directory)

def addPath (files : Files) (text : String) : IO Files := do
  let mut files := files
  for p in above (.ofText text) do
    if !files.entries.any fun e => e.1.isPrefixOf p.place && e.2 != .directory then
      if let some entry ← entryAt p then
        files := ⟨files.entries ++ [(p.place, entry)]⟩
  pure files

/-- Adds the files that arguments name, and those that are named in files of arguments, at most
`depth` deep. -/
def addFiles : Nat → Files → List String → IO Files
  | 0, files, _ => pure files
  | depth + 1, files, arguments => do
    let mut files := files
    for argument in arguments do
      for text in candidates argument do
        files ← addPath files text
      if argument.startsWith "@" then
        match CommandLine.argumentsIn Heap.empty files (argument.drop 1).toString with
        | .ok more => files ← addFiles depth files more
        | .error _ => pure ()
    pure files

def stamp : IO String := do
  let now ← Std.Time.PlainDateTime.now
  pure (now.format "uuuu-MM-dd HH:mm:ss,SSS")

end Conform.Main

def main (arguments : List String) : IO UInt32 := do
  let files ← Conform.Main.addFiles 16 ⟨[]⟩ arguments
  match Conform.CommandLine.run (← Conform.Main.stamp) files arguments with
  | .ok outcome =>
    IO.print outcome.out
    IO.eprint outcome.err
    pure outcome.code.toUInt32
  | .error failure =>
    IO.eprintln (failure.message Conform.Heap.empty)
    pure 1
