import Conform.Schema.Rendering
/-!
Mismatches: where a value failed to match, what was found there, and what was expected.
-/

set_option autoImplicit false

namespace Conform

structure Mismatch where
  path : List Value
  actual : Value
  expected : Value

namespace Mismatch

def toValue (m : Mismatch) : Value := .object none (.mismatch m.path m.actual m.expected)

def pathText (h : Heap) (m : Mismatch) : String := h.pathText m.path

def sentence (h : Heap) (m : Mismatch) : String :=
  mismatchSentence (h.jsonText? m.actual) (m.pathText h)
    (embedded m.expected (h.render m.expected))

end Mismatch

end Conform
