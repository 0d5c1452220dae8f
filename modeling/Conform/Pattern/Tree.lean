import Conform.Number.Power
/-!
Search patterns: their syntax trees, the flags that change their meaning, and the number of
characters that a tree can match.
-/

set_option autoImplicit false

namespace Conform.Pattern

structure Flags where
  ignoreCase : Bool := false
  multiLine : Bool := false
  dotAll : Bool := false
  verbose : Bool := false
  ascii : Bool := false
  unicode : Bool := false
  template : Bool := false
  deriving DecidableEq

namespace Flags

def union (a b : Flags) : Flags where
  ignoreCase := a.ignoreCase || b.ignoreCase
  multiLine := a.multiLine || b.multiLine
  dotAll := a.dotAll || b.dotAll
  verbose := a.verbose || b.verbose
  ascii := a.ascii || b.ascii
  unicode := a.unicode || b.unicode
  template := a.template || b.template

def inter (a b : Flags) : Flags where
  ignoreCase := a.ignoreCase && b.ignoreCase
  multiLine := a.multiLine && b.multiLine
  dotAll := a.dotAll && b.dotAll
  verbose := a.verbose && b.verbose
  ascii := a.ascii && b.ascii
  unicode := a.unicode && b.unicode
  template := a.template && b.template

def without (a b : Flags) : Flags where
  ignoreCase := a.ignoreCase && !b.ignoreCase
  multiLine := a.multiLine && !b.multiLine
  dotAll := a.dotAll && !b.dotAll
  verbose := a.verbose && !b.verbose
  ascii := a.ascii && !b.ascii
  unicode := a.unicode && !b.unicode
  template := a.template && !b.template

def off : Flags := {}

/-- The alphabet flags, of which a group has at most one. -/
def alphabets : Flags := { ascii := true, unicode := true }

def within (flags add del : Flags) : Flags :=
  let base := if add.inter alphabets = off then flags else flags.without alphabets
  (base.union add).without del

end Flags

inductive Category where
  | digit
  | space
  | word
  deriving DecidableEq

inductive Anchor where
  | lineStart
  | lineEnd
  | textStart
  | textEnd
  | boundary
  | noBoundary
  deriving DecidableEq

inductive ClassItem where
  | code (n : Nat)
  | range (low high : Nat)
  | category (negated : Bool) (category : Category)
  deriving DecidableEq

inductive Greed where
  | greedy
  | reluctant
  | possessive
  deriving DecidableEq

structure Width where
  least : Nat
  greatest : Nat
  deriving DecidableEq

namespace Width

/-- Widths are counted up to this bound, which stands for "any number". -/
def limit : Nat := twoTo 64

def zero : Width := ⟨0, 0⟩

def one : Width := ⟨1, 1⟩

def capped (w : Width) : Width := ⟨min w.least limit, min w.greatest limit⟩

def add (a b : Width) : Width := ⟨a.least + b.least, a.greatest + b.greatest⟩

def either (a b : Width) : Width := ⟨min a.least b.least, max a.greatest b.greatest⟩

def times (w : Width) (low : Nat) (high : Option Nat) : Width where
  least := w.least * low
  greatest := match high with
    | some n => w.greatest * n
    | none => if w.greatest = 0 then 0 else limit

end Width

/-- One item of a pattern; items in a row are a list. -/
inductive Node where
  | any
  | literal (code : Nat)
  | set (negated : Bool) (items : List ClassItem)
  | anchor (place : Anchor)
  | group (number : Option Nat) (add del : Flags) (body : List Node)
  | atomic (body : List Node)
  | branch (alternatives : List (List Node))
  | repeated (greed : Greed) (low : Nat) (high : Option Nat) (body : List Node)
  | backreference (number : Nat) (width : Width)
  | conditional (number : Nat) (yes : List Node) (no : Option (List Node))
  | look (ahead negated : Bool) (body : List Node)

mutual

def Node.width : Node → Width
  | .any | .literal _ | .set _ _ => .one
  | .anchor _ => .zero
  | .group _ _ _ body => sequenceWidth body
  | .atomic body => sequenceWidth body
  | .branch alternatives => branchWidth alternatives
  | .repeated _ low high body => (sequenceWidth body).times low high
  | .backreference _ width => width
  | .conditional _ yes (some no) => (sequenceWidth yes).either (sequenceWidth no)
  | .conditional _ yes none => ⟨0, (sequenceWidth yes).greatest⟩
  | .look _ _ _ => .zero

def sequenceWidth : List Node → Width
  | [] => .zero
  | node :: rest => (node.width.add (sequenceWidth rest)).capped

def branchWidth : List (List Node) → Width
  | [] => ⟨Width.limit, 0⟩
  | body :: rest => (sequenceWidth body).either (branchWidth rest)

end

end Conform.Pattern
