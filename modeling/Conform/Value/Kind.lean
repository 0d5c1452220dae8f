import Conform.Value.Basic
/-!
Kinds of values: the tags that type-name schemas compare with, the names of value types, and the
exact value of numbers.
-/

set_option autoImplicit false

namespace Conform

inductive Tag where
  | number
  | string
  | boolean
  | bigint
  | undefined
  | object
  | function
  | symbol
  deriving DecidableEq

def Tag.name : Tag → String
  | .number => "number"
  | .string => "string"
  | .boolean => "boolean"
  | .bigint => "bigint"
  | .undefined => "undefined"
  | .object => "object"
  | .function => "function"
  | .symbol => "symbol"

/-- The largest integer below which doubles have no gaps. -/
def maxSafeInteger : Int := twoTo 53 - 1

def integerTag (n : Int) : Tag :=
  if -maxSafeInteger ≤ n ∧ n ≤ maxSafeInteger then .number else .bigint

def Object.tag : Object → Tag
  | .machine (.int64 n) => integerTag n
  | .machine (.uint64 n) => integerTag n
  | .machine (.float32 _) => .number
  | .machine (.float64 _) => .number
  | .fraction _ _ => .number
  | .intMember _ n => integerTag n
  | .strMember _ _ => .string
  | .symbol _ _ => .symbol
  | .host _ => .function
  | .function .. => .function
  | _ => .object

def Check.name : Check → String
  | .null => "is_null"
  | .integer => "is_int"
  | .positiveInteger => "is_positive_int"
  | .plainObject => "is_plain_object"
  | .table => "is_dataframe"

def HostFunction.name : HostFunction → String
  | .length => "len"
  | .truth => "bool"
  | .callable => "callable"
  | .text => "str"

def ColumnKind.name : ColumnKind → String
  | .int64 => "int64"
  | .float64 => "float64"
  | .bool => "bool"
  | .object => "object"
  | .time => "datetime64[ns]"

def Object.typeName : Object → String
  | .machine (.int64 _) => "int64"
  | .machine (.uint64 _) => "uint64"
  | .machine (.float32 _) => "float32"
  | .machine (.float64 _) => "float64"
  | .machine (.bool _) => "bool"
  | .fraction _ _ => "Fraction"
  | .decimal _ => "Decimal"
  | .complex _ _ => "complex"
  | .bytes _ => "bytes"
  | .symbol member _ => member.className
  | .intMember member _ => member.className
  | .strMember member _ => member.className
  | .pattern _ => "Pattern"
  | .bytePattern _ => "Pattern"
  | .host .truth => "type"
  | .host .text => "type"
  | .host _ => "builtin_function_or_method"
  | .function _ className _ _ _ => className
  | .set _ => "set"
  | .frozenSet _ => "frozenset"
  | .proxy _ => "mappingproxy"
  | .options _ => "ValidationOptions"
  | .mismatch _ _ _ => "TypeMismatch"
  | .record className _ _ _ => className
  | .slotted chain _ => (chain.getLast?.map fun c => c.1.name).getD "object"
  | .series _ _ _ _ => "Series"
  | .frame _ _ => "DataFrame"

/-- The full name of the type of an object, which some families of types put their own name in
front of. -/
def Object.fullTypeName (content : Object) : String :=
  match content with
  | .machine _ => "numpy." ++ content.typeName
  | .decimal _ => "decimal." ++ content.typeName
  | .pattern _ => "re." ++ content.typeName
  | .bytePattern _ => "re." ++ content.typeName
  | _ => content.typeName

namespace Value

/-- The tag of a value; a link points to a container, which is an object. -/
def tag : Value → Tag
  | .undefined => .undefined
  | .null => .object
  | .bool _ => .boolean
  | .int n => integerTag n
  | .float _ => .number
  | .str _ => .string
  | .check _ => .function
  | .object _ content => content.tag
  | _ => .object

def typeof (v : Value) : String := v.tag.name

/-- Values that may have properties: neither null nor undefined, and an object or a function. -/
def isPlainObject (v : Value) : Bool :=
  match v with
  | .null => false
  | _ => v.tag == .object || v.tag == .function

def isCallable (v : Value) : Bool := v.tag == .function

def isTable : Value → Bool
  | .object _ (.series _ _ _ _) => true
  | .object _ (.frame _ _) => true
  | _ => false

def number? : Value → Option Exact
  | .bool b => some (.ofInt (if b then 1 else 0))
  | .int n => some (.ofInt n)
  | .float x => some x.exact
  | .object _ (.machine (.int64 n)) => some (.ofInt n)
  | .object _ (.machine (.uint64 n)) => some (.ofInt n)
  | .object _ (.machine (.float32 x)) => some x.exact
  | .object _ (.machine (.float64 x)) => some x.exact
  | .object _ (.machine (.bool b)) => some (.ofInt (if b then 1 else 0))
  | .object _ (.fraction num den) => some (.ratio num den)
  | .object _ (.intMember _ n) => some (.ofInt n)
  | .object _ (.decimal d) =>
    let size : Int := if d.negative then -(d.digits : Int) else d.digits
    if 0 ≤ d.exponent then some (.ratio (size * tenTo d.exponent.toNat) 1)
    else some (.ratio size (tenTo (-d.exponent).toNat))
  | .object _ (.complex re im) => if im.exact.isZero then some re.exact else none
  | _ => none

/-- The real and the imaginary part of a complex number off the real line. -/
def complex? : Value → Option (Double × Double)
  | .object _ (.complex re im) => if im.exact.isZero then none else some (re, im)
  | _ => none

end Value

def Heap.typeName (h : Heap) (v : Value) : String :=
  match h.resolve v with
  | .undefined => "_Undefined"
  | .null => "NoneType"
  | .bool _ => "bool"
  | .int _ => "int"
  | .float _ => "float"
  | .str _ => "str"
  | .check _ => "function"
  | .list _ => "list"
  | .tuple _ => "tuple"
  | .mapping _ => "dict"
  | .union _ => "SchemaSet"
  | .link _ => "list"
  | .object _ content => content.typeName

def Heap.fullTypeName (h : Heap) (v : Value) : String :=
  match v with
  | .object _ content => content.fullTypeName
  | _ => h.typeName v

end Conform
