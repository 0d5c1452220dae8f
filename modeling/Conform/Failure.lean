import Conform.Text.Utf8
import Conform.Value.Basic
/-!
What can go wrong, by cause. The words for each cause are in `Conform.Failure.Message`.
-/

set_option autoImplicit false

namespace Conform

inductive Misfit where
  | tooMany (accepted given : Nat)
  | missing (names : List String)
  | missingKeywords (names : List String)
  deriving DecidableEq

inductive DocumentStep where
  | index (i : Nat)
  | key (name : String)
  deriving DecidableEq

inductive DocumentFault where
  | notTagged (node : Value)
  | unknownTag (tag : Value)
  | unknownPredicate (name : Value)
  | sourceNotText
  | badPattern (source : String) (fault : Pattern.Fault)
  | notMapping
  | notList (tag : Value)

inductive PathRefusal where
  | missing
  | exists
  | notDirectory
  | isDirectory
  | nameTooLong
  deriving DecidableEq

inductive JsonComplaint where
  | byteOrderMark
  | value
  | extraData
  | comma
  | colon
  | propertyName
  | unterminatedString
  | controlCharacter
  | escape
  | unicodeEscape
  /-- An integer of so many digits, which are too many. -/
  | overlong (digits : Nat)
  deriving DecidableEq

structure JsonFault where
  complaint : JsonComplaint
  text : String
  position : Nat
  deriving DecidableEq

inductive Failure where
  | raised (kind message : String)
  | mismatch (path : List Value) (actual expected : Value)
  | unsupportedNode (node : Value)
  | unserialisableNode (node : Value)
  | malformed (location : List DocumentStep) (fault : DocumentFault)
  /-- A pattern that cannot be compiled for reasons other than its syntax. -/
  | unusablePattern (fault : Pattern.Fault)
  | misfit (callee : String) (misfit : Misfit)
  /-- A pattern over bytes was to be found in a text. -/
  | patternOfBytes
  | noLength (v : Value)
  /-- There is no item at some place of a list or a tuple. -/
  | noItem (array : Value)
  | ambiguousTruth (v : Value)
  | beyondFloat
  | unhashable (v : Value)
  | unordered (left right : Value)
  | unsupportedOptions (v : Value)
  | unknownOptions (names : List Value)
  | nonBooleanOptions (names : List Value)
  | frozenField (field : String)
  | readOnlyProperty (owner field : String)
  | noAttribute (owner field : String)
  | notJson (v : Value)
  | notJsonKey (v : Value)
  /-- An integer has too many digits for a text, or that many in one. -/
  | overlong (digits : Option Nat)
  | refusedPath (refusal : PathRefusal) (path : String)
  | nullInPath
  | notFound (what path : String)
  | undecodable (fault : Text.Utf8Fault)
  | badJson (fault : JsonFault)
  | badJsonIn (path : String) (fault : JsonFault)
  | optionsNotObject (path : String)
  /-- A cyclic schema went round a cyclic value. -/
  | endless

/-- What a fault of a JSON text comes to: too many digits are complained of as such, and everything
else as a text that is no JSON. -/
def JsonFault.failure (f : JsonFault) (notJson : JsonFault → Failure) : Failure :=
  match f.complaint with
  | .overlong digits => .overlong (some digits)
  | _ => notJson f

end Conform
