import Conform.Pattern.Tree
import Conform.Text.Letter
import Conform.Text.LowerCase
/-!
What a pattern matches. Each item is a matcher that hands every place it can end at to the
continuation, best choice first; the first success is the match.
-/

set_option autoImplicit false

namespace Conform.Pattern

/-! ## Characters -/

def asciiLower (c : Char) : Char := if 'A' ≤ c ∧ c ≤ 'Z' then Char.ofNat (c.toNat + 32) else c

def lowerIn (flags : Flags) (c : Char) : Char :=
  if flags.unicode then Text.lower c else asciiLower c

/-- The lower-case letters that equal `c` when case is ignored. -/
def caseClass (flags : Flags) (c : Char) : List Char :=
  let low := lowerIn flags c
  if flags.unicode then low :: Text.twinsOf low else [low]

/-- Whether `c` is the character with the code point, or differs from it only in case. -/
def sameLetter (flags : Flags) (code : Nat) (c : Char) : Bool :=
  if flags.ignoreCase then (caseClass flags (Char.ofNat code)).contains (lowerIn flags c)
  else c.toNat == code

def raised (flags : Flags) (c : Char) : List Char :=
  if flags.unicode then
    c :: ((if 'a' ≤ c ∧ c ≤ 'z' then [Char.ofNat (c.toNat - 32)] else []) ++
      Text.lowerRuns.toList.filterMap fun r =>
        let n := ((c.toNat : Int) - r.shift).toNat
        if r.first ≤ n ∧ n ≤ r.last ∧ (n - r.first) % r.stride = 0 then some (Char.ofNat n)
        else none)
  else if 'a' ≤ c ∧ c ≤ 'z' then [c, Char.ofNat (c.toNat - 32)]
  else [c]

def isAsciiBlank (c : Char) : Bool := c = ' ' || (9 ≤ c.toNat && c.toNat ≤ 13)

def isAsciiWord (c : Char) : Bool :=
  ('a' ≤ c && c ≤ 'z') || ('A' ≤ c && c ≤ 'Z') || ('0' ≤ c && c ≤ '9') || c = '_'

def Category.contains (flags : Flags) (c : Char) : Category → Bool
  | .digit => if flags.unicode then Text.decimalDigit.contains c else '0' ≤ c && c ≤ '9'
  | .space => if flags.unicode then Text.blank.contains c else isAsciiBlank c
  | .word => if flags.unicode then c = '_' || Text.alphanumeric.contains c else isAsciiWord c

def ClassItem.contains (flags : Flags) (c : Char) : ClassItem → Bool
  | .code n => c.toNat == n
  | .range low high => low ≤ c.toNat && c.toNat ≤ high
  | .category negated kind => Category.contains flags c kind != negated

/-- Whether an item of a set has `c`: ignoring case, a letter or a range has it if it has some
character that differs from `c` only in case; a category is asked for `c` alone. -/
def ClassItem.admits (flags : Flags) (c : Char) (item : ClassItem) : Bool :=
  match item with
  | .category .. => item.contains flags c
  | _ =>
    let candidates :=
      if flags.ignoreCase then (caseClass flags c).flatMap (raised flags) else [c]
    candidates.any (item.contains flags)

def setContains (flags : Flags) (negated : Bool) (items : List ClassItem) (c : Char) : Bool :=
  items.any (·.admits flags c) != negated

/-! ## Places -/

/-- Where each group begins and ends: its number less one, doubled, then one more for the end. -/
abbrev Marks := Array (Option Nat)

def Marks.put (marks : Marks) (slot place : Nat) : Marks :=
  marks.setIfInBounds slot (some place)

def Marks.span? (marks : Marks) (number : Nat) : Option (Nat × Nat) :=
  match marks[2 * (number - 1)]?.join, marks[2 * (number - 1) + 1]?.join with
  | some first, some last => if first ≤ last then some (first, last) else none
  | _, _ => none

def wordAt (flags : Flags) (text : Array Char) (place : Nat) : Bool :=
  match text[place]? with
  | some c => Category.word.contains flags c
  | none => false

def Anchor.holds (flags : Flags) (text : Array Char) (place : Nat) : Anchor → Bool
  | .textStart => place == 0
  | .textEnd => place == text.size
  | .lineStart => place == 0 || (flags.multiLine && text[place - 1]? == some '\n')
  | .lineEnd =>
    place == text.size ||
      (text[place]? == some '\n' && (flags.multiLine || place + 1 == text.size))
  | .boundary => text.size != 0 && atEdge
  | .noBoundary => text.size != 0 && !atEdge
where
  atEdge : Bool :=
    (place != 0 && wordAt flags text (place - 1)) != wordAt flags text place

/-! ## Matchers -/

abbrev Outcome := Option (Nat × Marks)

abbrev Continuation := Nat → Marks → Outcome

abbrev Matcher := Nat → Marks → Continuation → Outcome

def one (text : Array Char) (test : Char → Bool) : Matcher := fun place marks next =>
  match text[place]? with
  | some c => if test c then next (place + 1) marks else none
  | none => none

def exactly (body : Matcher) : Nat → Matcher
  | 0, place, marks, next => next place marks
  | n + 1, place, marks, next => body place marks fun p m => exactly body n p m next

/-- Whether one more optional match may be tried: the limit is not reached, and the last one did
not stay in place. -/
def mayRepeat (left last : Option Nat) (place : Nat) : Bool :=
  left != some 0 && last != some place

def greedy (body : Matcher) (next : Continuation) :
    Nat → Option Nat → Option Nat → Nat → Marks → Outcome
  | 0, _, _, place, marks => next place marks
  | fuel + 1, left, last, place, marks =>
    if mayRepeat left last place then
      match body place marks (greedy body next fuel (left.map (· - 1)) (some place)) with
      | some found => some found
      | none => next place marks
    else next place marks

def reluctant (body : Matcher) (next : Continuation) :
    Nat → Option Nat → Option Nat → Nat → Marks → Outcome
  | 0, _, _, place, marks => next place marks
  | fuel + 1, left, last, place, marks =>
    match next place marks with
    | some found => some found
    | none =>
      if mayRepeat left last place then
        body place marks (reluctant body next fuel (left.map (· - 1)) (some place))
      else none

def possessive (body : Matcher) (next : Continuation) :
    Nat → Option Nat → Option Nat → Nat → Marks → Outcome
  | 0, _, _, place, marks => next place marks
  | fuel + 1, left, last, place, marks =>
    if mayRepeat left last place then
      match body place marks fun p m => some (p, m) with
      | some (p, m) => possessive body next fuel (left.map (· - 1)) (some place) p m
      | none => next place marks
    else next place marks

/-- At least `low` and at most `high` matches. Optional matches move on or stop, so the size of
the text bounds their number. -/
def repeated (size : Nat) (greed : Greed) (low : Nat) (high : Option Nat) (body : Matcher) :
    Matcher := fun place marks next =>
  let left := high.map (· - low)
  match greed with
  | .greedy => exactly body low place marks (greedy body next (size + 2) left none)
  | .reluctant => exactly body low place marks (reluctant body next (size + 2) left none)
  | .possessive =>
    match exactly body low place marks fun p m => some (p, m) with
    | some (p, m) => possessive body next (size + 2) left none p m
    | none => none

def sameText (flags : Flags) (text : Array Char) (number : Nat) : Matcher :=
  fun place marks next =>
    match marks.span? number with
    | none => none
    | some (first, last) =>
      let size := last - first
      let equal := (List.range size).all fun i =>
        match text[first + i]?, text[place + i]? with
        | some a, some b =>
          if flags.ignoreCase then lowerIn flags a == lowerIn flags b else a == b
        | _, _ => false
      if equal then next (place + size) marks else none

/-- A look ahead, or at the `width` characters before: it takes no text, and if it is negated it
keeps no groups. -/
def looking (ahead negated : Bool) (width : Nat) (body : Matcher) : Matcher :=
  fun place marks next =>
    let found :=
      if ahead then body place marks fun p m => some (p, m)
      else if width ≤ place then body (place - width) marks fun p m => some (p, m)
      else none
    match found, negated with
    | some (_, m), false => next place m
    | none, true => next place marks
    | _, _ => none

mutual

def Node.matcher (text : Array Char) (flags : Flags) : Node → Matcher
  | .any => one text fun c => flags.dotAll || c ≠ '\n'
  | .literal code => one text (sameLetter flags code)
  | .set negated items => one text (setContains flags negated items)
  | .anchor place => fun p m next => if place.holds flags text p then next p m else none
  | .group none add del body => sequenceMatcher text (flags.within add del) body
  | .group (some number) add del body => fun place marks next =>
    let inner := sequenceMatcher text (flags.within add del) body
    inner place (marks.put (2 * (number - 1)) place) fun p m =>
      next p (m.put (2 * (number - 1) + 1) p)
  | .atomic body => fun place marks next =>
    match sequenceMatcher text flags body place marks fun p m => some (p, m) with
    | some (p, m) => next p m
    | none => none
  | .branch bodies => branchMatcher text flags bodies
  | .repeated greed low high body =>
    repeated text.size greed low high (sequenceMatcher text flags body)
  | .backreference number _ => sameText flags text number
  | .conditional number yes no => fun place marks next =>
    if (marks.span? number).isSome then sequenceMatcher text flags yes place marks next
    else match no with
      | some body => sequenceMatcher text flags body place marks next
      | none => next place marks
  | .look ahead negated body =>
    looking ahead negated (sequenceWidth body).least (sequenceMatcher text flags body)

def sequenceMatcher (text : Array Char) (flags : Flags) : List Node → Matcher
  | [] => fun place marks next => next place marks
  | node :: rest => fun place marks next =>
    node.matcher text flags place marks fun p m => sequenceMatcher text flags rest p m next

def branchMatcher (text : Array Char) (flags : Flags) : List (List Node) → Matcher
  | [] => fun _ _ _ => none
  | body :: rest => fun place marks next =>
    match sequenceMatcher text flags body place marks next with
    | some found => some found
    | none => branchMatcher text flags rest place marks next

end

end Conform.Pattern
