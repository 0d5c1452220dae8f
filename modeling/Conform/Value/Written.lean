import Conform.Number.Shortest
import Conform.Text.Quoted
import Conform.Value.Kind
/-!
Values as they are shown in messages: texts in quotes, containers with their members, and three
dots for a container inside itself. Integers are shown in full, with no limit to their digits.
-/

set_option autoImplicit false

namespace Conform

/-- A decimal number with all its digits: positional unless it is very small or its last digits
are not known. -/
def Decimal.text (d : Decimal) : String :=
  let digits := toString d.digits
  let count : Int := digits.length
  let left := d.exponent + count
  let point := if d.exponent ≤ 0 ∧ -6 < left then left else 1
  let body :=
    if point ≤ 0 then "0." ++ "".pushn '0' (-point).toNat ++ digits
    else if count ≤ point then digits ++ "".pushn '0' (point - count).toNat
    else (digits.take point.toNat).toString ++ "." ++ (digits.drop point.toNat).toString
  let power := left - point
  (if d.negative then "-" else "") ++ body ++
    (if power = 0 then "" else (if 0 < power then "E+" else "E") ++ toString power)

/-- A double as a part of a complex number: without a fraction of zero. -/
def Double.partText (x : Double) : String :=
  let text := x.text
  if text.endsWith ".0" then (text.dropEnd 2).toString else text

/-- Both parts in round brackets, or the imaginary one alone if the other is positive zero. -/
def complexText (re im : Double) : String :=
  let isZero := re.exact.isZero && !re.isNegative
  if isZero then im.partText ++ "j"
  else "(" ++ re.partText ++ (if im.isNegative then "" else "+") ++ im.partText ++ "j)"

def truthName (b : Bool) : String := if b then "True" else "False"

def Machine.text : Machine → String
  | .int64 n => toString n
  | .uint64 n => toString n
  | .float32 x => x.textIn .narrow
  | .float64 x => x.text
  | .bool b => truthName b

def Machine.written : Machine → String
  | .int64 n => s!"np.int64({n})"
  | .uint64 n => s!"np.uint64({n})"
  | .float32 x => "np.float32(" ++ x.textIn .narrow ++ ")"
  | .float64 x => "np.float64(" ++ x.text ++ ")"
  | .bool b => "np." ++ truthName b ++ "_"

def HostFunction.written : HostFunction → String
  | .length => "<built-in function len>"
  | .truth => "<class 'bool'>"
  | .callable => "<built-in function callable>"
  | .text => "<class 'str'>"

def Member.text (m : Member) : String := m.className ++ "." ++ m.name

def commaList (parts : List String) : String := String.intercalate ", " parts

/-- Round brackets, with a comma after a single member. -/
def bracketed : List String → String
  | [part] => "(" ++ part ++ ",)"
  | parts => "(" ++ commaList parts ++ ")"

def braced (parts : List String) : String := "\x7b" ++ commaList parts ++ "\x7d"

mutual

/-- A value as shown, with links shown by `onLink`. -/
def writtenWith (onLink : Nat → String) : Value → String
  | .undefined => "UNDEFINED"
  | .null => "None"
  | .bool b => truthName b
  | .int n => toString n
  | .float x => x.text
  | .str s => Text.quoted s
  | .check c => "<function " ++ c.name ++ ">"
  | .list items => "[" ++ commaList (writtenAll onLink items) ++ "]"
  | .tuple items => bracketed (writtenAll onLink items)
  | .mapping entries => braced (writtenEntries onLink entries)
  | .union members => "SchemaSet([" ++ commaList (writtenAll onLink members) ++ "])"
  | .link address => onLink address
  | .object _ content => writtenObject onLink content

def writtenAll (onLink : Nat → String) : List Value → List String
  | [] => []
  | v :: rest => writtenWith onLink v :: writtenAll onLink rest

def writtenEntries (onLink : Nat → String) : List (Value × Value) → List String
  | [] => []
  | (k, v) :: rest =>
    (writtenWith onLink k ++ ": " ++ writtenWith onLink v) :: writtenEntries onLink rest

def writtenObject (onLink : Nat → String) : Object → String
  | .machine x => x.written
  | .fraction num den => s!"Fraction({num}, {den})"
  | .decimal d => "Decimal('" ++ d.text ++ "')"
  | .complex re im => complexText re im
  | .bytes data => Text.quotedBytes data
  | .symbol member value => "<" ++ member.text ++ ": " ++ writtenWith onLink value ++ ">"
  | .intMember member n => "<" ++ member.text ++ ": " ++ toString n ++ ">"
  | .strMember member s => "<" ++ member.text ++ ": " ++ Text.quoted s ++ ">"
  | .pattern p => p.text
  | .bytePattern p => p.text
  | .host f => f.written
  | .function (some name) _ _ _ _ => "<function " ++ name ++ ">"
  | .function none className _ _ _ => "<" ++ className ++ " object>"
  | .set [] => "set()"
  | .set items => braced (writtenAll onLink items)
  | .frozenSet [] => "frozenset()"
  | .frozenSet items => "frozenset(" ++ braced (writtenAll onLink items) ++ ")"
  | .proxy entries => "mappingproxy(" ++ braced (writtenEntries onLink entries) ++ ")"
  | .options flag => "ValidationOptions(no_excess_props=" ++ writtenWith onLink flag ++ ")"
  | .mismatch path actual expected =>
    "TypeMismatch(path=" ++ bracketed (writtenAll onLink path) ++ ", actual_value="
      ++ writtenWith onLink actual ++ ", expected_schema=" ++ writtenWith onLink expected ++ ")"
  | .record className _ _ _ => "<" ++ className ++ " object>"
  | .slotted chain _ => "<" ++ (chain.getLast?.map fun c => c.1.name).getD "object" ++ " object>"
  | .series _ _ _ _ => "<Series>"
  | .frame _ _ => "<DataFrame>"

end

namespace Heap

def dots (h : Heap) (address : Nat) : String :=
  match h.cell address with
  | .mapping _ => "\x7b...\x7d"
  | _ => "[...]"

/-- A value as shown while the containers `opened` are being shown. -/
def writtenInside (h : Heap) : Nat → List Nat → Value → String
  | 0, _ => writtenWith h.dots
  | depth + 1, opened => writtenWith fun address =>
    if opened.contains address then h.dots address
    else writtenInside h depth (address :: opened) (h.cell address)

def written (h : Heap) (v : Value) : String := h.writtenInside (h.size + 1) [] v

/-- The plain text of a value that is not a mismatch: as shown, but texts without quotes, members
by name, and numbers without their kind. -/
def plain (h : Heap) (v : Value) : String :=
  match v with
  | .str s => s
  | .object _ (.machine x) => x.text
  | .object _ (.fraction num den) =>
    if den = 1 then toString num else s!"{num}/{den}"
  | .object _ (.decimal d) => d.text
  | .object _ (.symbol member _) => member.text
  | .object _ (.intMember _ n) => toString n
  | .object _ (.strMember member _) => member.text
  | _ => h.written v

end Heap

end Conform
