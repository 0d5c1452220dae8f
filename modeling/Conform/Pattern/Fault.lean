import Conform.Text.Line
import Conform.Text.Quoted
/-!
Why a text is no pattern, and the words for it.
-/

set_option autoImplicit false

namespace Conform.Pattern

inductive Complaint where
  | unterminatedGroup
  | unbalancedParenthesis
  | unterminatedSet
  | unterminatedComment
  | unexpectedEnd
  | endsInEscape
  | nothingToRepeat
  | multipleRepeat
  | repeatBounds
  | badEscape (text : String)
  | incompleteEscape (text : String)
  | octalTooLarge (text : String)
  | badRange (low high : String)
  | missing (what : String)
  | unterminatedName (terminator : String)
  | undefinedCharacter (name : String)
  | badGroupName (name : String)
  | badGroupNumber
  | unknownGroupName (name : String)
  | redefinedGroup (name : String) (number former : Nat)
  | invalidReference (number : Nat)
  | openReference
  | lookbehindReference
  | unknownExtension (text : String)
  | conditionalBranches
  | misplacedFlags
  | unknownFlag
  | localeFlag
  | mixedAlphabets
  | alphabetTurnedOff
  | flagOnAndOff
  | globalFlagOn
  | globalFlagOff
  | lookbehindWidth
  | lookbehindTooFar
  | templateRepeat (greed : String)
  deriving DecidableEq

def Complaint.message : Complaint → String
  | .unterminatedGroup => "missing ), unterminated subpattern"
  | .unbalancedParenthesis => "unbalanced parenthesis"
  | .unterminatedSet => "unterminated character set"
  | .unterminatedComment => "missing ), unterminated comment"
  | .unexpectedEnd => "unexpected end of pattern"
  | .endsInEscape => "bad escape (end of pattern)"
  | .nothingToRepeat => "nothing to repeat"
  | .multipleRepeat => "multiple repeat"
  | .repeatBounds => "min repeat greater than max repeat"
  | .badEscape text => "bad escape " ++ text
  | .incompleteEscape text => "incomplete escape " ++ text
  | .octalTooLarge text => "octal escape value " ++ text ++ " outside of range 0-0o377"
  | .badRange low high => "bad character range " ++ low ++ "-" ++ high
  | .missing what => "missing " ++ what
  | .unterminatedName terminator => "missing " ++ terminator ++ ", unterminated name"
  | .undefinedCharacter name => "undefined character name " ++ Text.quoted name
  | .badGroupName name => "bad character in group name " ++ Text.quoted name
  | .badGroupNumber => "bad group number"
  | .unknownGroupName name => "unknown group name " ++ Text.quoted name
  | .redefinedGroup name number former =>
    "redefinition of group name " ++ Text.quoted name ++ " as group " ++ toString number
      ++ "; was group " ++ toString former
  | .invalidReference number => "invalid group reference " ++ toString number
  | .openReference => "cannot refer to an open group"
  | .lookbehindReference => "cannot refer to group defined in the same lookbehind subpattern"
  | .unknownExtension text => "unknown extension ?" ++ text
  | .conditionalBranches => "conditional backref with more than two branches"
  | .misplacedFlags => "global flags not at the start of the expression"
  | .unknownFlag => "unknown flag"
  | .localeFlag => "bad inline flags: cannot use 'L' flag with a str pattern"
  | .mixedAlphabets => "bad inline flags: flags 'a', 'u' and 'L' are incompatible"
  | .alphabetTurnedOff => "bad inline flags: cannot turn off flags 'a', 'u' and 'L'"
  | .flagOnAndOff => "bad inline flags: flag turned on and off"
  | .globalFlagOn => "bad inline flags: cannot turn on global flag"
  | .globalFlagOff => "bad inline flags: cannot turn off global flag"
  | .lookbehindWidth => "look-behind requires fixed-width pattern"
  | .lookbehindTooFar => "looks too much behind"
  | .templateRepeat greed => "internal: unsupported template operator " ++ greed

/-- Why a pattern cannot be used: a complaint about its text, usually with a position, or one of
two refusals that are no matter of syntax. -/
inductive Fault where
  | rejected (complaint : Complaint) (position : Option Nat)
  | repeatTooLarge
  | incompatibleAlphabets
  deriving DecidableEq

def Fault.message (source : String) : Fault → String
  | .rejected complaint none => complaint.message
  | .rejected complaint (some position) =>
    let before := source.toList.take position
    let place := complaint.message ++ " at position " ++ toString position
    if source.toList.contains '\n' then
      place ++ " (line " ++ toString (Text.lineAfter before) ++ ", column "
        ++ toString (Text.columnAfter before) ++ ")"
    else place
  | .repeatTooLarge => "the repetition number is too large"
  | .incompatibleAlphabets => "ASCII and UNICODE flags are incompatible"

end Conform.Pattern
