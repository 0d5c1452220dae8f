import Conform.Text.Quoted
/-!
The options of the command, its help, and how it complains about arguments.
-/

set_option autoImplicit false

namespace Conform.CommandLine

/-! ## Options -/

inductive Switch where
  | help
  | version
  | schema
  | value
  | config
  | noExcessProps
  | verbosity
  deriving DecidableEq

namespace Switch

def all : List Switch :=
  [.help, .version, .schema, .value, .config, .noExcessProps, .verbosity]

def spellings : Switch → List String
  | .help => ["-h", "--help"]
  | .version => ["--version"]
  | .schema => ["--schema"]
  | .value => ["--value"]
  | .config => ["--config"]
  | .noExcessProps => ["--no-excess-props"]
  | .verbosity => ["--verbosity"]

def shown (s : Switch) : String := String.intercalate "/" s.spellings

def takesValue : Switch → Bool
  | .schema => true
  | .value => true
  | .config => true
  | .verbosity => true
  | _ => false

def table : List (String × Switch) := all.flatMap fun s => s.spellings.map fun text => (text, s)

def ofText? (text : String) : Option Switch := table.lookup text

def startingWith (start : String) : List (String × Switch) :=
  table.filter fun e => e.1.startsWith start

end Switch

/-! ## Levels of the log -/

inductive Level where
  | debug
  | info
  | warning
  | error
  | critical
  deriving DecidableEq

namespace Level

def all : List Level := [.debug, .info, .warning, .error, .critical]

def name : Level → String
  | .debug => "DEBUG"
  | .info => "INFO"
  | .warning => "WARNING"
  | .error => "ERROR"
  | .critical => "CRITICAL"

def ofName? (text : String) : Option Level := all.find? fun level => level.name == text

def rank : Level → Nat
  | .debug => 10
  | .info => 20
  | .warning => 30
  | .error => 40
  | .critical => 50

end Level

/-! ## Texts -/

def program : String := "shape-schema"

def versionText : String := program ++ " : 1.0.0\n"

def levelChoice : String :=
  "\x7b" ++ String.intercalate "," (Level.all.map Level.name) ++ "\x7d"

def usageText : String :=
  "usage: shape-schema [-h] [--version] --schema FILE --value VALUE\n"
    ++ "                    [--config FILE] [--no-excess-props]\n"
    ++ "                    [--verbosity " ++ levelChoice ++ "]\n"

def helpText : String :=
  usageText ++ "\n"
    ++ "Check a JSON value against a shape schema.\n"
    ++ "\n"
    ++ "options:\n"
    ++ "  -h, --help            show this help message and exit\n"
    ++ "  --version             show program's version number and exit\n"
    ++ "  --schema FILE         JSON schema document (tagged form).\n"
    ++ "  --value VALUE         JSON file or JSON literal to check.\n"
    ++ "  --config FILE         JSON file with validation options; explicit flags\n"
    ++ "                        override it.\n"
    ++ "  --no-excess-props     Reject objects owning properties their schema does not\n"
    ++ "                        declare.\n"
    ++ "  --verbosity " ++ levelChoice ++ "\n"
    ++ "                        Logging level.\n"

/-! ## Complaints -/

inductive UsageFault where
  | ambiguous (argument : String) (candidates : List String)
  | valueExpected (s : Switch)
  | valueIgnored (s : Switch) (text : String)
  | unknownLevel (text : String)
  | missing (switches : List Switch)
  | unrecognized (arguments : List String)
  | unreadable (reason : String)

def UsageFault.message : UsageFault → String
  | .ambiguous argument candidates =>
    "ambiguous option: " ++ argument ++ " could match " ++ String.intercalate ", " candidates
  | .valueExpected s => "argument " ++ s.shown ++ ": expected one argument"
  | .valueIgnored s text =>
    "argument " ++ s.shown ++ ": ignored explicit argument " ++ Text.quoted text
  | .unknownLevel text =>
    "argument " ++ Switch.shown .verbosity ++ ": invalid choice: " ++ Text.quoted text
      ++ " (choose from "
      ++ String.intercalate ", " (Level.all.map fun level => Text.quoted level.name) ++ ")"
  | .missing switches =>
    "the following arguments are required: "
      ++ String.intercalate ", " (switches.map Switch.shown)
  | .unrecognized arguments =>
    "unrecognized arguments: " ++ String.intercalate " " arguments
  | .unreadable reason => reason

def UsageFault.text (f : UsageFault) : String :=
  usageText ++ program ++ ": error: " ++ f.message ++ "\n"

end Conform.CommandLine
