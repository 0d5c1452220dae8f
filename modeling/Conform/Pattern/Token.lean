import Conform.Pattern.Fault
import Conform.Pattern.Tree
/-!
A pattern text as tokens, and the state in which it is read.
-/

set_option autoImplicit false

namespace Conform.Pattern

inductive Token where
  | plain (c : Char)
  | escaped (c : Char)
  deriving DecidableEq

namespace Token

def width : Token → Nat
  | .plain _ => 1
  | .escaped _ => 2

def text : Token → String
  | .plain c => String.ofList [c]
  | .escaped c => String.ofList ['\\', c]

end Token

/-- What reading has met so far. `next` is the token at hand and `index` the position after it;
`groups` holds the width of every closed group, group zero being the whole pattern. -/
structure State where
  source : Array Char
  index : Nat
  next : Option Token
  flags : Flags
  names : List (String × Nat)
  groups : Array (Option Width)
  lookbehind : Option Nat
  references : List (Nat × Nat)

abbrev Read := StateT State (Except Fault)

/-! ## Tokens -/

def failAt {α : Type} (complaint : Complaint) (position : Nat) : Read α :=
  throw (.rejected complaint (some position))

def tell : Read Nat := do
  let s ← get
  pure (s.index - (s.next.map Token.width).getD 0)

/-- Complains about a place `back` characters before the token at hand. -/
def fail {α : Type} (complaint : Complaint) (back : Nat) : Read α := do
  failAt complaint ((← tell) - back)

def peek : Read (Option Token) := do
  pure (← get).next

def advance : Read Unit := do
  let s ← get
  match s.source[s.index]? with
  | none => set { s with next := none }
  | some '\\' =>
    match s.source[s.index + 1]? with
    | none => failAt .endsInEscape (s.source.size - 1)
    | some c => set { s with next := some (.escaped c), index := s.index + 2 }
  | some c => set { s with next := some (.plain c), index := s.index + 1 }

def seek (index : Nat) : Read Unit := do
  modify fun s => { s with index := index }
  advance

def take : Read (Option Token) := do
  let token ← peek
  advance
  pure token

def accept (c : Char) : Read Bool := do
  if (← peek) = some (.plain c) then
    advance
    pure true
  else pure false

def takeWhile (allowed : Char → Bool) : Nat → Read (List Char)
  | 0 => pure []
  | n + 1 => do
    match ← peek with
    | some (.plain c) =>
      if allowed c then
        advance
        pure (c :: (← takeWhile allowed n))
      else pure []
    | _ => pure []

def takeName (terminator : Char) (what : String) : Nat → String → Read String
  | 0, done => pure done
  | fuel + 1, done => do
    match ← take with
    | none =>
      if done.isEmpty then fail (.missing what) 0
      else fail (.unterminatedName (String.ofList [terminator])) done.length
    | some token =>
      if token = .plain terminator then
        if done.isEmpty then fail (.missing what) 1 else pure done
      else takeName terminator what fuel (done ++ token.text)

/-- Steps that no run over the whole text exceeds. -/
def bound : Read Nat := do
  pure ((← get).source.size + 1)

end Conform.Pattern
