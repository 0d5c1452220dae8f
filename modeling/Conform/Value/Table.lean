import Conform.Json
import Conform.Value.Instant
import Conform.Value.Written
/-!
Tables as JSON: the names, the labels of the rows and the cells, apart from one another. Numbers
keep ten places.
-/

set_option autoImplicit false

namespace Conform

/-! ## Numbers in tables -/

namespace Double

/-- The nearest number to `± num / den` that has ten significant digits. -/
def tenDigits (negative : Bool) (num den : Nat) : Double :=
  let unit := leadingExponent num den - 9
  let (up, down) := powerOfTen unit
  ofDecimal .wide negative (roundHalfEven (num * down) (den * up)) unit

/-- The nearest number to `± num / den` that has ten places. The places are counted on the
product of the fraction and `10 ^ 10`, which is itself rounded to a double; a half of the last
place goes up to an odd last digit and to a last digit of zero alone. -/
def tenPlaces (negative : Bool) (num den : Nat) : Double :=
  let whole := num / den
  match nearest .wide false ((num % den) * tenTo 10) den with
  | .finite _ mantissa exponent =>
    let (up, down) := powerOfTwo exponent
    let size := mantissa * up
    let floor := size / down
    let twice := 2 * (size % down)
    let places :=
      if down < twice ∨ (twice = down ∧ (floor = 0 ∨ floor % 2 = 1)) then floor + 1 else floor
    ofDecimal .wide negative (whole * tenTo 10 + places) (-10)
  | _ => .nan

/-- A number as a table keeps it; infinities and what is no number are left out. -/
def inTable (x : Double) : Json :=
  match x with
  | .finite negative mantissa exponent =>
    let (up, down) := powerOfTwo exponent
    let size := mantissa * up
    if size = 0 then .float (.zero false)
    else if tenTo 16 * down < size ∨ size * tenTo 15 < down then
      .float (tenDigits negative size down)
    else .float (tenPlaces negative size down)
  | _ => .null

end Double

/-! ## Cells -/

mutual

def cellJson (h : Heap) : Value → Option Json
  | .null => some .null
  | .bool b => some (.bool b)
  | .int n => some (.int n)
  | .float x => some x.inTable
  | .str s => some (.str s)
  | .list items => (cellsJson h items).map .array
  | .tuple items => (cellsJson h items).map .array
  | .mapping entries => (cellMembers h entries).map .ofMembers
  | .object _ content => objectCell content
  | _ => none

def objectCell : Object → Option Json
  | .machine (.int64 n) => some (.int n)
  | .machine (.uint64 n) => some (.int n)
  | .machine (.float32 x) => some x.inTable
  | .machine (.float64 x) => some x.inTable
  | .machine (.bool b) => some (.bool b)
  | .intMember _ n => some (.int n)
  | .strMember _ s => some (.str s)
  | _ => none

def cellsJson (h : Heap) : List Value → Option (List Json)
  | [] => some []
  | v :: rest => do
    let cell ← cellJson h v
    let cells ← cellsJson h rest
    pure (cell :: cells)

def cellMembers (h : Heap) : List (Value × Value) → Option (List (String × Json))
  | [] => some []
  | (k, v) :: rest => do
    let cell ← cellJson h v
    let members ← cellMembers h rest
    pure ((h.plain k, cell) :: members)

end

def columnCell (h : Heap) (kind : ColumnKind) (cell : Value) : Option Json :=
  match kind, cell with
  | .time, .str s => some (.int (Instant.nanoseconds s))
  | .float64, .int n => some (Double.nearest .wide (n < 0) n.natAbs 1).inTable
  | _, _ => cellJson h cell

def indexJson (h : Heap) (index : Option (List Value)) (rows : Nat) : Option Json :=
  match index with
  | some labels => (cellsJson h labels).map .array
  | none => some (.array ((List.range rows).map fun (i : Nat) => .int i))

def rowsOf : Nat → List (List Json) → List Json
  | 0, _ => []
  | rows + 1, columns =>
    .array (columns.filterMap List.head?) :: rowsOf rows (columns.map List.tail)

def seriesJson (h : Heap) (name : Value) (kind : ColumnKind) (cells : List Value)
    (index : Option (List Value)) : Option Json := do
  let name ← cellJson h name
  let labels ← indexJson h index cells.length
  let data ← cells.mapM (columnCell h kind)
  pure (.object [("name", name), ("index", labels), ("data", .array data)])

def frameJson (h : Heap) (columns : List (Value × ColumnKind × List Value))
    (index : Option (List Value)) : Option Json := do
  let rows := match index, columns with
    | some labels, _ => labels.length
    | none, (_, _, cells) :: _ => cells.length
    | none, [] => 0
  let names ← cellsJson h (columns.map Prod.fst)
  let labels ← indexJson h index rows
  let data ← columns.mapM fun (_, kind, cells) => cells.mapM (columnCell h kind)
  pure (.object [("columns", .array names), ("index", labels), ("data", .array (rowsOf rows data))])

end Conform
