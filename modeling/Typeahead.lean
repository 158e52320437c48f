import Typeahead.OrderedMap
import Typeahead.Text.Basic
import Typeahead.Text.Cased
import Typeahead.Text.Lower
import Typeahead.Text.Quoted
import Typeahead.Token.Kind
import Typeahead.Token.Basic
import Typeahead.Token.Scan
import Typeahead.Grammar.Basic
import Typeahead.Grammar.Standard
import Typeahead.Query.Error
import Typeahead.Query.Tree
import Typeahead.Query.Nesting
import Typeahead.Query.Position
import Typeahead.Schema.Attribute
import Typeahead.Schema.Definitions
import Typeahead.Schema.Registry
import Typeahead.Schema.Path
import Typeahead.Session.Draft
import Typeahead.Session.Snapshot
import Typeahead.Session.Basic
import Typeahead.Toml.Value
import Typeahead.Toml.Chars
import Typeahead.Toml.Quote
import Typeahead.Toml.Atom
import Typeahead.Toml.Table
import Typeahead.Toml.Read
import Typeahead.Toml.Write
import Typeahead.Error
import Typeahead.Report.Json
import Typeahead.Report.Basic
import Typeahead.Session.Description
import Typeahead.Settings.Basic
import Typeahead.Settings.Toml
import Typeahead.Files
import Typeahead.Settings.File
import Typeahead.Command.Arguments
import Typeahead.Command.Completion
import Typeahead.Command.Run
import Typeahead.Main
import Typeahead.Proofs.TreeSound
import Typeahead.Proofs.TreeComplete
import Typeahead.Proofs.Sentence
import Typeahead.Proofs.Nesting
import Typeahead.Proofs.Lowering
import Typeahead.Proofs.Prediction
import Typeahead.Proofs.Conservation
import Typeahead.Proofs.Reading
import Typeahead.Proofs.Cutting
import Typeahead.Proofs.Retention
import Typeahead.Proofs.Settling
import Typeahead.Proofs.Typing
import Typeahead.Proofs.Dropping
import Typeahead.Proofs.TableCache
import Typeahead.Proofs.Coherence
import Typeahead.Proofs.Entering
import Typeahead.Proofs.Walking
import Typeahead.Proofs.Ranking
import Typeahead.Proofs.Accepting
import Typeahead.Proofs.Quoting
import Typeahead.Proofs.Lines
import Typeahead.Proofs.Tables
import Typeahead.Proofs.RoundTrip
import Typeahead.Proofs.Inheritance
import Typeahead.Proofs.Registration
import Typeahead.Proofs.Refusals
import Typeahead.Proofs.GuessCommand
import Typeahead.Proofs.Matching
import Typeahead.Proofs.Faults
import Typeahead.Proofs.Balanced
import Typeahead.Proofs.Layout
import Typeahead.Proofs.Lexicon
import Typeahead.Proofs.Passes
import Typeahead.Proofs.Resting
import Typeahead.Proofs.Deleting
import Typeahead.Proofs.Hierarchy
import Typeahead.Proofs.Flattening
import Typeahead.Proofs.Closure
import Typeahead.Proofs.TypedCase
import Typeahead.Proofs.Canonical
import Typeahead.Proofs.Lookahead
