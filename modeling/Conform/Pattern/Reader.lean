import Conform.Pattern.Group
/-!
Reading a pattern text into its syntax tree, or finding its first fault.
-/

set_option autoImplicit false

namespace Conform.Pattern

/-! ## Repetition -/

/-- From this count on a repetition counts as unlimited, and may not be written. -/
def repeatLimit : Nat := 4294967295

/-- The bounds that a repetition sign gives; `none` when a brace is only a brace. -/
def repeatBounds (sign : Char) (start : Nat) : Read (Option (Nat × Option Nat)) := do
  if sign = '?' then pure (some (0, some 1))
  else if sign = '*' then pure (some (0, none))
  else if sign = '+' then pure (some (1, none))
  else if (← peek) = some (.plain '}') then pure none
  else
    let fuel ← bound
    let low ← takeWhile isDigit fuel
    let high ← if ← accept ',' then takeWhile isDigit fuel else pure low
    if !(← accept '}') then
      seek start
      pure none
    else
      let least := digitsValue low
      let greatest := if high.isEmpty then none else some (digitsValue high)
      if repeatLimit ≤ least then throw .repeatTooLarge
      else if (greatest.map fun n => decide (repeatLimit ≤ n)) = some true then
        throw .repeatTooLarge
      else if (greatest.map fun n => decide (n < least)) = some true then
        failAt .repeatBounds start
      else pure (some (least, greatest))

/-- What a repetition sign repeats: a group without number and flags is only its body. -/
def repeatedBody : Node → List Node
  | .group none add del body =>
    if add = .off && del = .off then body else [.group none add del body]
  | node => [node]

def readGreed : Read Greed := do
  if ← accept '?' then pure .reluctant
  else
    if ← accept '+' then pure .possessive else pure .greedy

def repeatLast (start : Nat) (bounds : Nat × Option Nat) (done : List Node) :
    Read (List Node) := do
  match done with
  | [] => failAt .nothingToRepeat (start - 1)
  | .anchor _ :: _ => failAt .nothingToRepeat (start - 1)
  | .repeated _ _ _ _ :: _ => failAt .multipleRepeat (start - 1)
  | item :: before =>
    let greed ← readGreed
    pure (.repeated greed bounds.1 bounds.2 (repeatedBody item) :: before)

/-! ## Sequences and alternatives -/

def isPatternBlank (c : Char) : Bool := [' ', '\t', '\n', '\r', '\x0b', '\x0c'].contains c

def closeParenthesis (start : Nat) : Read Unit := do
  if ← accept ')' then pure () else failAt .unterminatedGroup start

mutual

/-- Alternatives, up to a closing parenthesis or the end. Flags for the whole pattern may only
open the first alternative of the outermost level. -/
def alternatives : Nat → Bool → Bool → Read (List Node)
  | 0, _, _ => pure []
  | fuel + 1, verbose, outermost => do
    let first ← sequence fuel verbose outermost []
    let rest ← furtherAlternatives fuel verbose outermost
    match rest with
    | [] => pure first
    | _ => pure [.branch (first :: rest)]

def furtherAlternatives : Nat → Bool → Bool → Read (List (List Node))
  | 0, _, _ => pure []
  | fuel + 1, verbose, outermost => do
    if ← accept '|' then
      let verbose ← if outermost then do pure (← get).flags.verbose else pure verbose
      let body ← sequence fuel verbose false []
      pure (body :: (← furtherAlternatives fuel verbose outermost))
    else pure []

/-- Items in a row; `done` holds those before, in reverse. -/
def sequence : Nat → Bool → Bool → List Node → Read (List Node)
  | 0, _, _, done => pure done.reverse
  | fuel + 1, verbose, first, done => do
    match ← peek with
    | none => pure done.reverse
    | some (.escaped c) =>
      advance
      let node ← escape c
      sequence fuel verbose first (node :: done)
    | some (.plain c) =>
      if c = '|' || c = ')' then pure done.reverse
      else
        advance
        if verbose && isPatternBlank c then sequence fuel verbose first done
        else if verbose && c = '#' then
          skipLine (← bound)
          sequence fuel verbose first done
        else if c = '[' then
          let start := (← tell) - 1
          let negated ← accept '^'
          let items ← classItems start (← bound) []
          sequence fuel verbose first (.set negated items :: done)
        else if c = '*' || c = '+' || c = '?' || c = '{' then
          let start ← tell
          match ← repeatBounds c start with
          | none => sequence fuel verbose first (.literal c.toNat :: done)
          | some bounds =>
            let done ← repeatLast start bounds done
            sequence fuel verbose first done
        else if c = '.' then sequence fuel verbose first (.any :: done)
        else if c = '^' then sequence fuel verbose first (.anchor .lineStart :: done)
        else if c = '$' then sequence fuel verbose first (.anchor .lineEnd :: done)
        else if c = '(' then
          let start := (← tell) - 1
          match ← group fuel verbose start with
          | .item node => sequence fuel verbose first (node :: done)
          | .comment => sequence fuel verbose first done
          | .flags =>
            if !first || !done.isEmpty then failAt .misplacedFlags start
            else
              let verbose := (← get).flags.verbose
              sequence fuel verbose first done
        else sequence fuel verbose first (.literal c.toNat :: done)

def group : Nat → Bool → Nat → Read Found
  | 0, _, _ => pure .comment
  | fuel + 1, verbose, start => do
    match ← groupHead with
    | .item node => pure (.item node)
    | .comment =>
      skipComment start (← bound)
      pure .comment
    | .flags head =>
      match ← readFlags head with
      | none => pure .flags
      | some (add, del) => .item <$> groupBody fuel verbose start none false false add del
    | .body name capture atomic add del =>
      .item <$> groupBody fuel verbose start name capture atomic add del
    | .look ahead negated =>
      let outer := (← get).lookbehind
      if !ahead && outer.isNone then
        modify fun s => { s with lookbehind := some s.groups.size }
      let body ← alternatives fuel verbose false
      if !ahead && outer.isNone then
        modify fun s => { s with lookbehind := none }
      closeParenthesis start
      pure (.item (.look ahead negated body))
    | .conditional number =>
      let yes ← sequence fuel verbose false []
      let no ← if ← accept '|' then
          let body ← sequence fuel verbose false []
          if (← peek) = some (.plain '|') then fail .conditionalBranches 0
          else pure (some body)
        else pure none
      closeParenthesis start
      pure (.item (.conditional number yes no))

def groupBody : Nat → Bool → Nat → Option String → Bool → Bool → Flags → Flags → Read Node
  | 0, _, _, _, _, _, _, _ => pure .any
  | fuel + 1, verbose, start, name, capture, atomic, add, del => do
    let number ← if capture then some <$> openGroup name else pure none
    let body ← alternatives fuel ((verbose || add.verbose) && !del.verbose) false
    closeParenthesis start
    match number with
    | some n => closeGroup n (sequenceWidth body)
    | none => pure ()
    pure (if atomic then .atomic body else .group number add del body)

end

/-! ## Whole patterns -/

mutual

/-- What only shows once the tree is complete: look-behinds without a fixed width, and
repetitions in a template. -/
def checkNode (template : Bool) : Node → Except Complaint Unit
  | .group _ _ _ body | .atomic body => checkSequence template body
  | .branch bodies => checkBranch template bodies
  | .repeated greed _ _ body =>
    if template then
      .error (.templateRepeat (match greed with
        | .greedy => "MAX_REPEAT"
        | .reluctant => "MIN_REPEAT"
        | .possessive => "POSSESSIVE_REPEAT"))
    else checkSequence template body
  | .conditional _ yes (some no) => do
    checkSequence template yes
    checkSequence template no
  | .conditional _ yes none => checkSequence template yes
  | .look ahead _ body =>
    let width := sequenceWidth body
    if ahead then checkSequence template body
    else if 4294967295 < width.least then .error .lookbehindTooFar
    else if width.least ≠ width.greatest then .error .lookbehindWidth
    else checkSequence template body
  | _ => .ok ()

def checkSequence (template : Bool) : List Node → Except Complaint Unit
  | [] => .ok ()
  | node :: rest => do
    checkNode template node
    checkSequence template rest

def checkBranch (template : Bool) : List (List Node) → Except Complaint Unit
  | [] => .ok ()
  | body :: rest => do
    checkSequence template body
    checkBranch template rest

end

structure Program where
  items : List Node
  flags : Flags
  groups : Nat

def readProgram (flags : Flags) : Read Program := do
  advance
  let length := (← get).source.size
  let items ← alternatives (4 * length + 8) flags.verbose true
  let s ← get
  if s.flags.ascii && s.flags.unicode then throw .incompatibleAlphabets
  let flags := if s.flags.ascii then s.flags else { s.flags with unicode := true }
  if s.next.isSome then fail .unbalancedParenthesis 0
  match s.references.find? fun r => s.groups.size ≤ r.1 with
  | some (number, place) => failAt (.invalidReference number) place
  | none => pure ()
  match checkSequence flags.template items with
  | .error complaint => throw (.rejected complaint none)
  | .ok () => pure ⟨items, flags, s.groups.size - 1⟩

def compile (source : String) (flags : Flags) : Except Fault Program :=
  let start : State :=
    { source := source.toList.toArray, index := 0, next := none, flags := flags, names := []
      groups := #[none], lookbehind := none, references := [] }
  (readProgram flags start).map (·.1)

end Conform.Pattern
