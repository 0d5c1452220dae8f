import Conform.Number.Reading
import Conform.Pattern.Token
import Conform.Text.CharacterName
import Conform.Text.Letter
/-!
Escapes in pattern texts, and sets of characters, whose members may be escapes.
-/

set_option autoImplicit false

namespace Conform.Pattern

/-! ## Escapes -/

def isHexDigit (c : Char) : Bool := isDigit c || ('a' ≤ c && c ≤ 'f') || ('A' ≤ c && c ≤ 'F')

def isOctalDigit (c : Char) : Bool := '0' ≤ c && c ≤ '7'

def isAsciiLetter (c : Char) : Bool := ('a' ≤ c && c ≤ 'z') || ('A' ≤ c && c ≤ 'Z')

def hexValue (cs : List Char) : Nat :=
  cs.foldl (fun n c =>
    16 * n + (if isDigit c then digitValue c
      else if 'a' ≤ c then c.toNat - 'a'.toNat + 10 else c.toNat - 'A'.toNat + 10)) 0

def octalValue (cs : List Char) : Nat := cs.foldl (fun n c => 8 * n + digitValue c) 0

def controlOf : Char → Option Nat
  | 'a' => some 7
  | 'f' => some 12
  | 'n' => some 10
  | 'r' => some 13
  | 't' => some 9
  | 'v' => some 11
  | '\\' => some 92
  | _ => none

def categoryOf : Char → Option ClassItem
  | 'd' => some (.category false .digit)
  | 'D' => some (.category true .digit)
  | 's' => some (.category false .space)
  | 'S' => some (.category true .space)
  | 'w' => some (.category false .word)
  | 'W' => some (.category true .word)
  | _ => none

def anchorOf : Char → Option Anchor
  | 'A' => some .textStart
  | 'Z' => some .textEnd
  | 'b' => some .boundary
  | 'B' => some .noBoundary
  | _ => none

def hexEscape (letter : Char) (digits : Nat) : Read Nat := do
  let found ← takeWhile isHexDigit digits
  let text := String.ofList ('\\' :: letter :: found)
  if found.length ≠ digits then fail (.incompleteEscape text) text.length
  else
    let code := hexValue found
    if 0x10ffff < code then fail (.badEscape text) text.length else pure code

def namedEscape : Read Nat := do
  if !(← accept '{') then fail (.missing "\x7b") 0
  else
    let name ← takeName '}' "character name" (← bound) ""
    match Text.characterNamed? name with
    | some c => pure c.toNat
    | none => fail (.undefinedCharacter name) (name.length + 4)

def characterEscape (c : Char) : Read (Option Nat) := do
  if c = 'x' then pure (some (← hexEscape c 2))
  else if c = 'u' then pure (some (← hexEscape c 4))
  else if c = 'U' then pure (some (← hexEscape c 8))
  else if c = 'N' then pure (some (← namedEscape))
  else pure none

/-- Any other character stands for itself unless it is an ASCII letter. -/
def plainEscape (c : Char) : Read Nat :=
  let text := String.ofList ['\\', c]
  if isAsciiLetter c then fail (.badEscape text) text.length else pure c.toNat

def classEscape (c : Char) : Read ClassItem := do
  if c = 'b' then pure (.code 8)
  else match controlOf c, categoryOf c with
    | some n, _ => pure (.code n)
    | none, some item => pure item
    | none, none =>
      match ← characterEscape c with
      | some n => pure (.code n)
      | none =>
        if isOctalDigit c then
          let found := c :: (← takeWhile isOctalDigit 2)
          let text := String.ofList ('\\' :: found)
          if 0o377 < octalValue found then fail (.octalTooLarge text) text.length
          else pure (.code (octalValue found))
        else if isDigit c then fail (.badEscape (String.ofList ['\\', c])) 2
        else pure (.code (← plainEscape c))

def isClosed (number : Nat) : Read Bool := do
  pure ((← get).groups[number]?.join.isSome)

/-- Inside a look-behind only groups that were closed before it may be referred to. -/
def checkLookbehind (number : Nat) : Read Unit := do
  match (← get).lookbehind with
  | none => pure ()
  | some first =>
    if !(← isClosed number) then fail .openReference 0
    else if first ≤ number then fail .lookbehindReference 0

def referTo (number length : Nat) : Read Node := do
  match (← get).groups[number]?.join with
  | none => fail .openReference length
  | some width =>
    checkLookbehind number
    pure (.backreference number width)

/-- Digits after a backslash: three octal ones are a character, others refer to a group. -/
def numberEscape (c : Char) : Read Node := do
  let second ← takeWhile isDigit 1
  let third ← if isOctalDigit c && second.all isOctalDigit && !second.isEmpty
    then takeWhile isOctalDigit 1 else pure []
  if !third.isEmpty then
    let found := c :: second ++ third
    let text := String.ofList ('\\' :: found)
    if 0o377 < octalValue found then fail (.octalTooLarge text) text.length
    else pure (.literal (octalValue found))
  else
    let digits := c :: second
    let number := digitsValue digits
    if number < (← get).groups.size then referTo number (digits.length + 1)
    else fail (.invalidReference number) digits.length

def escape (c : Char) : Read Node := do
  match anchorOf c, categoryOf c, controlOf c with
  | some place, _, _ => pure (.anchor place)
  | none, some item, _ => pure (.set false [item])
  | none, none, some n => pure (.literal n)
  | none, none, none =>
    match ← characterEscape c with
    | some n => pure (.literal n)
    | none =>
      if c = '0' then
        pure (.literal (octalValue (c :: (← takeWhile isOctalDigit 2))))
      else if isDigit c then numberEscape c
      else pure (.literal (← plainEscape c))

/-! ## Character sets -/

def classItem : Token → Read ClassItem
  | .plain c => pure (.code c.toNat)
  | .escaped c => classEscape c

/-- The members of a set that was opened at `start`; a `]` in first place is a member. -/
def classItems (start : Nat) : Nat → List ClassItem → Read (List ClassItem)
  | 0, done => pure done.reverse
  | fuel + 1, done => do
    match ← take with
    | none => failAt .unterminatedSet start
    | some first =>
      if first = .plain ']' && !done.isEmpty then pure done.reverse
      else
        let low ← classItem first
        if ← accept '-' then
          match ← take with
          | none => failAt .unterminatedSet start
          | some second =>
            if second = .plain ']' then pure (.code 45 :: low :: done).reverse
            else
              let high ← classItem second
              let wrong : Read (List ClassItem) :=
                fail (.badRange first.text second.text) (first.width + 1 + second.width)
              match low, high with
              | .code a, .code b =>
                if b < a then wrong else classItems start fuel (.range a b :: done)
              | _, _ => wrong
        else classItems start fuel (low :: done)

end Conform.Pattern
