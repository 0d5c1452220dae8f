/-!
Lines of a text: line ends of every convention read as one, and positions as line and column.
-/

set_option autoImplicit false

namespace Conform.Text

/-- Reads `\r\n` and `\r` as `\n`. -/
def unifyLineEnds : List Char → List Char
  | [] => []
  | '\r' :: '\n' :: rest => '\n' :: unifyLineEnds rest
  | '\r' :: rest => '\n' :: unifyLineEnds rest
  | c :: rest => c :: unifyLineEnds rest

def lineAfter (before : List Char) : Nat := before.count '\n' + 1

def columnAfter (before : List Char) : Nat :=
  (before.reverse.takeWhile (· ≠ '\n')).length + 1

end Conform.Text
