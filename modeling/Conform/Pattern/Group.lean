import Conform.Pattern.Escape
import Conform.Text.Identifier
/-!
The heads of groups in pattern texts: flags, names and conditions; and comments.
-/

set_option autoImplicit false

namespace Conform.Pattern

/-! ## Flags -/

def flagOf : Char → Option Flags
  | 'i' => some { ignoreCase := true }
  | 'm' => some { multiLine := true }
  | 's' => some { dotAll := true }
  | 'x' => some { verbose := true }
  | 'a' => some { ascii := true }
  | 'u' => some { unicode := true }
  | 't' => some { template := true }
  | 'L' => some {}
  | _ => none

def tokenFlag : Token → Option (Char × Flags)
  | .plain c => (flagOf c).map (c, ·)
  | .escaped _ => none

def isLetter : Token → Bool
  | .plain c => Text.alphabetic.contains c
  | .escaped _ => false

def flagsOn : Nat → Char → Flags → Flags → Read (Flags × Char)
  | 0, _, _, added => pure (added, ')')
  | fuel + 1, c, flag, added => do
    if c = 'L' then fail .localeFlag 0
    else
      let added := added.union flag
      if flag.inter .alphabets ≠ .off && added.inter .alphabets ≠ flag then
        fail .mixedAlphabets 0
      else match ← take with
        | none => fail (.missing "-, : or )") 0
        | some (.plain ')') => pure (added, ')')
        | some (.plain '-') => pure (added, '-')
        | some (.plain ':') => pure (added, ':')
        | some token =>
          match tokenFlag token with
          | some (c, flag) => flagsOn fuel c flag added
          | none =>
            fail (if isLetter token then .unknownFlag else .missing "-, : or )") token.width

def flagsOff : Nat → Char → Flags → Flags → Read Flags
  | 0, _, _, removed => pure removed
  | fuel + 1, c, flag, removed => do
    if c = 'L' || flag.inter .alphabets ≠ .off then fail .alphabetTurnedOff 0
    else
      let removed := removed.union flag
      match ← take with
      | none => fail (.missing ":") 0
      | some (.plain ':') => pure removed
      | some token =>
        match tokenFlag token with
        | some (c, flag) => flagsOff fuel c flag removed
        | none => fail (if isLetter token then .unknownFlag else .missing ":") token.width

def firstFlagOff : Read (Char × Flags) := do
  match ← take with
  | none => fail (.missing "flag") 0
  | some token =>
    match tokenFlag token with
    | some found => pure found
    | none => fail (if isLetter token then .unknownFlag else .missing "flag") token.width

/-- Flags in a group's head: those for the whole pattern give none, others what the group turns
on and off. -/
def readFlags (head : Option (Char × Flags)) : Read (Option (Flags × Flags)) := do
  let fuel ← bound
  let (added, ending) ← match head with
    | some (c, flag) => flagsOn fuel c flag {}
    | none => pure ({}, '-')
  if ending = ')' then
    modify fun s => { s with flags := s.flags.union added }
    pure none
  else if added.template then fail .globalFlagOn 1
  else
    let removed ← if ending = '-' then
        let (c, flag) ← firstFlagOff
        flagsOff fuel c flag {}
      else pure {}
    if removed.template then fail .globalFlagOff 1
    else if added.inter removed ≠ .off then fail .flagOnAndOff 1
    else pure (some (added, removed))

/-! ## Groups -/

def isName (s : String) : Bool :=
  match s.toList with
  | [] => false
  | c :: rest =>
    Text.identifierStart.contains c && rest.all Text.identifierContinue.contains

def checkName (name : String) : Read Unit :=
  if isName name then pure () else fail (.badGroupName name) (name.length + 1)

def openGroup (name : Option String) : Read Nat := do
  let s ← get
  let number := s.groups.size
  match name with
  | none => set { s with groups := s.groups.push none }
  | some name =>
    match s.names.lookup name with
    | some former => fail (.redefinedGroup name number former) (name.length + 1)
    | none =>
      set { s with groups := s.groups.push none, names := (name, number) :: s.names }
  pure number

def closeGroup (number : Nat) (width : Width) : Read Unit :=
  modify fun s => { s with groups := s.groups.setIfInBounds number (some width) }

def conditionGroup (name : String) : Read Nat := do
  if isName name then
    match (← get).names.lookup name with
    | some number => pure number
    | none => fail (.unknownGroupName name) (name.length + 1)
  else
    match readInteger? name with
    | none | some (.negSucc _) => fail (.badGroupName name) (name.length + 1)
    | some (.ofNat number) =>
      if number = 0 then fail .badGroupNumber (name.length + 1)
      else if 1073741823 ≤ number then fail (.invalidReference number) (name.length + 1)
      else
        let place := (← tell) - name.length - 1
        modify fun s =>
          if (s.references.lookup number).isSome then s
          else { s with references := s.references ++ [(number, place)] }
        pure number

inductive Head where
  | item (node : Node)
  | comment
  | body (name : Option String) (capture atomic : Bool) (add del : Flags)
  | look (ahead negated : Bool)
  | conditional (number : Nat)
  | flags (head : Option (Char × Flags))

inductive Found where
  | item (node : Node)
  | comment
  | flags

def namedHead : Read Head := do
  if ← accept '<' then
    let name ← takeName '>' "group name" (← bound) ""
    checkName name
    pure (.body (some name) true false {} {})
  else if ← accept '=' then
    let name ← takeName ')' "group name" (← bound) ""
    checkName name
    match (← get).names.lookup name with
    | none => fail (.unknownGroupName name) (name.length + 1)
    | some number => pure (.item (← referTo number (name.length + 1)))
  else match ← take with
    | none => fail .unexpectedEnd 0
    | some token => fail (.unknownExtension ("P" ++ token.text)) (token.width + 2)

def groupHead : Read Head := do
  if !(← accept '?') then pure (.body none true false {} {})
  else match ← take with
    | none => fail .unexpectedEnd 0
    | some (.plain 'P') => namedHead
    | some (.plain ':') => pure (.body none false false {} {})
    | some (.plain '#') => pure .comment
    | some (.plain '=') => pure (.look true false)
    | some (.plain '!') => pure (.look true true)
    | some (.plain '<') =>
      match ← take with
      | none => fail .unexpectedEnd 0
      | some (.plain '=') => pure (.look false false)
      | some (.plain '!') => pure (.look false true)
      | some token => fail (.unknownExtension ("<" ++ token.text)) (token.width + 2)
    | some (.plain '(') =>
      let name ← takeName ')' "group name" (← bound) ""
      let number ← conditionGroup name
      checkLookbehind number
      pure (.conditional number)
    | some (.plain '>') => pure (.body none false true {} {})
    | some (.plain '-') => pure (.flags none)
    | some token =>
      match tokenFlag token with
      | some found => pure (.flags (some found))
      | none => fail (.unknownExtension token.text) (token.width + 1)

def skipComment (start : Nat) : Nat → Read Unit
  | 0 => pure ()
  | fuel + 1 => do
    match ← take with
    | none => failAt .unterminatedComment start
    | some token => if token = .plain ')' then pure () else skipComment start fuel

def skipLine : Nat → Read Unit
  | 0 => pure ()
  | fuel + 1 => do
    match ← take with
    | none => pure ()
    | some token => if token = .plain '\n' then pure () else skipLine fuel

end Conform.Pattern
