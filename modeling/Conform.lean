import Conform.CommandLine
import Conform.CommandLine.Arguments
import Conform.CommandLine.Usage
import Conform.Document
import Conform.Document.Decoding
import Conform.Document.Encoding
import Conform.Document.Storage
import Conform.Failure
import Conform.Failure.Message
import Conform.Files
import Conform.Json
import Conform.Json.Reading
import Conform.Json.Written
import Conform.Main
import Conform.Mismatch
import Conform.Number.Double
import Conform.Number.Exact
import Conform.Number.Power
import Conform.Number.Reading
import Conform.Number.Shortest
import Conform.Options
import Conform.Pattern
import Conform.Pattern.Escape
import Conform.Pattern.Fault
import Conform.Pattern.Group
import Conform.Pattern.Matching
import Conform.Pattern.Reader
import Conform.Pattern.Token
import Conform.Pattern.Tree
import Conform.Predicate.Call
import Conform.Predicate.Check
import Conform.Predicate.Script
import Conform.Proofs.Document.Grammar
import Conform.Proofs.Document.Meaning
import Conform.Proofs.Document.RoundTrip
import Conform.Proofs.Document.Tagged
import Conform.Proofs.Matching.Alike
import Conform.Proofs.Matching.Arrangement
import Conform.Proofs.Matching.Closed
import Conform.Proofs.Matching.Judged
import Conform.Proofs.Matching.Relation
import Conform.Proofs.Matching.Verdict
import Conform.Proofs.Matching.Walk
import Conform.Proofs.Schema.Congruence
import Conform.Proofs.Schema.Kind
import Conform.Proofs.Schema.Nesting
import Conform.Proofs.Session
import Conform.Proofs.Validation.Computation
import Conform.Proofs.Validation.Correspondence
import Conform.Proofs.Validation.Depth
import Conform.Proofs.Validation.Kinds
import Conform.Proofs.Validation.Place
import Conform.Proofs.Value.Equality
import Conform.Proofs.Value.Owned
import Conform.Schema.Composition
import Conform.Schema.Rendering
import Conform.Text.CharTable
import Conform.Text.CharacterName
import Conform.Text.Identifier
import Conform.Text.Letter
import Conform.Text.Line
import Conform.Text.LowerCase
import Conform.Text.Printable
import Conform.Text.Quoted
import Conform.Text.Utf8
import Conform.Validation
import Conform.Validation.Matching
import Conform.Validation.Properties
import Conform.Validation.Trace
import Conform.Value.Assignment
import Conform.Value.Basic
import Conform.Value.Equality
import Conform.Value.Instant
import Conform.Value.Json
import Conform.Value.Kind
import Conform.Value.Order
import Conform.Value.Property
import Conform.Value.Table
import Conform.Value.Truth
import Conform.Value.Unfolded
import Conform.Value.Written
import Conform.Proofs.Matching.Transfer
import Conform.Proofs.Matching.Context
import Conform.Proofs.Document.Canonical
import Conform.Proofs.Json.UniqueKeys
import Conform.Proofs.Json.Atoms
import Conform.Proofs.Json.RoundTrip
import Conform.Proofs.Text.Ascii
import Conform.Proofs.Document.Stored
import Conform.Proofs.CommandLine
import Conform.Proofs.Document.Encodable
import Conform.Proofs.Document.Loaded
import Conform.Proofs.Matching.BodyRuns
import Conform.Proofs.Matching.Calm
import Conform.Proofs.Matching.Resembling
import Conform.Proofs.Matching.Surfacing
import Conform.Proofs.Matching.Undeclared
import Conform.Proofs.Matching.Ending
import Conform.Proofs.Matching.Located
import Conform.Proofs.Matching.Recalling
import Conform.Proofs.Matching.Service
import Conform.Proofs.Value.Json
import Conform.Proofs.Value.Opening
import Conform.Proofs.Rendering.PathText
import Conform.Proofs.Value.Sharing
import Conform.Proofs.Value.Slots
import Conform.Proofs.Value.Expressible
import Conform.Proofs.Number.Rounding
import Conform.Proofs.Predicate.Whole
import Conform.Proofs.Document.FirstFlaw
import Conform.Proofs.Text.Lines
import Conform.Proofs.Rendering.Indentation
import Conform.Proofs.Value.Order
import Conform.Proofs.Options
