import Conform.Pattern.Matching
import Conform.Pattern.Reader
/-!
Compiled patterns. A pattern is known by its source and its flags, and is found in a text when it
matches somewhere.
-/

set_option autoImplicit false

namespace Conform

/-- A pattern that has been compiled: its source with all flags that are in force. -/
structure Pattern where
  source : String
  flags : Pattern.Flags
  deriving DecidableEq

namespace Pattern

def ofSource (source : String) (flags : Flags) : Except Fault Pattern :=
  (compile source flags).map fun program => ⟨source, program.flags⟩

def Program.findsIn (program : Program) (text : Array Char) : Bool :=
  let matcher := sequenceMatcher text program.flags program.items
  (List.range (text.size + 1)).any fun place =>
    (matcher place (Array.replicate (2 * program.groups) none) fun p m => some (p, m)).isSome

def search (p : Pattern) (text : String) : Bool :=
  match compile p.source { p.flags with unicode := false } with
  | .ok program => program.findsIn text.toList.toArray
  | .error _ => false

/-- The names of the flags in force; patterns over bytes may also go by the locale. -/
def Flags.names (flags : Flags) (byLocale : Bool) : List String :=
  [(flags.template, "TEMPLATE"), (flags.ignoreCase, "IGNORECASE"), (byLocale, "LOCALE"),
    (flags.multiLine, "MULTILINE"), (flags.dotAll, "DOTALL"), (flags.verbose, "VERBOSE"),
    (flags.ascii, "ASCII")].filterMap
    fun (on, name) => if on then some ("re." ++ name) else none

/-- A source in quotes, cut after two hundred characters, and names of flags. -/
def shown (quoted : String) (names : List String) : String :=
  let source := (quoted.take 200).toString
  match names with
  | [] => "re.compile(" ++ source ++ ")"
  | names => "re.compile(" ++ source ++ ", " ++ String.intercalate "|" names ++ ")"

/-- A pattern as it is shown: with its flags other than the usual alphabet. -/
def text (p : Pattern) : String := shown (Text.quoted p.source) (p.flags.names false)

end Pattern

/-- A pattern over bytes, which is found in bytes alone. -/
structure BytePattern where
  source : List UInt8
  flags : Pattern.Flags
  byLocale : Bool
  deriving DecidableEq

def BytePattern.text (p : BytePattern) : String :=
  Pattern.shown (Text.quotedBytes p.source) (p.flags.names p.byLocale)

end Conform
