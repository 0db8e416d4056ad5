import VersionedProperties.Cache.Command
import VersionedProperties.Cache.Keyed
import VersionedProperties.Cache.Single
import VersionedProperties.Document.Format
import VersionedProperties.Document.JsonReader
import VersionedProperties.Document.JsonText
import VersionedProperties.Document.JsonValue
import VersionedProperties.Document.PropertiesText
import VersionedProperties.Document.Timestamp
import VersionedProperties.Error
import VersionedProperties.Event.Basic
import VersionedProperties.Event.Registry
import VersionedProperties.Event.Session
import VersionedProperties.History
import VersionedProperties.Key.Attributes
import VersionedProperties.Key.Declaration
import VersionedProperties.Key.Draft
import VersionedProperties.Key.Enumeration
import VersionedProperties.Key.NameUse
import VersionedProperties.Key.Naming
import VersionedProperties.Key.Value
import VersionedProperties.Manager.Basic
import VersionedProperties.Manager.Command
import VersionedProperties.Manager.Reading
import VersionedProperties.Manager.Run
import VersionedProperties.Manager.Session
import VersionedProperties.Mapping
import VersionedProperties.Numeral.Binary64
import VersionedProperties.Numeral.Integer
import VersionedProperties.Numeral.Plain
import VersionedProperties.Numeral.Real
import VersionedProperties.Numeral.Shortest
import VersionedProperties.Options
import VersionedProperties.Reference.Dependency
import VersionedProperties.Reference.Evaluation
import VersionedProperties.Reference.Located
import VersionedProperties.Reference.Scan
import VersionedProperties.Storage.Backing
import VersionedProperties.Storage.Command
import VersionedProperties.Storage.FileTree
import VersionedProperties.Storage.Path
import VersionedProperties.Storage.Route
import VersionedProperties.Store.Basic
import VersionedProperties.Store.Command
import VersionedProperties.Text.Basic
import VersionedProperties.Text.Blank
import VersionedProperties.Text.CaseTable
import VersionedProperties.Text.Digit
import VersionedProperties.Text.Hexadecimal
import VersionedProperties.Text.Identifier
import VersionedProperties.Text.LetterCase
import VersionedProperties.Text.Lines
import VersionedProperties.Text.Printable
import VersionedProperties.Text.Quoted
import VersionedProperties.Text.Ranges
import VersionedProperties.Text.Utf8
import VersionedProperties.Proofs.History.Placement
import VersionedProperties.Proofs.History.Timeline
import VersionedProperties.Proofs.Reference.Closure
import VersionedProperties.Proofs.Reference.Expansion
import VersionedProperties.Proofs.Reference.Locality
import VersionedProperties.Proofs.Cache.Soundness
import VersionedProperties.Proofs.Cache.Shown
import VersionedProperties.Proofs.Cache.Provenance
import VersionedProperties.Proofs.Oblivious
import VersionedProperties.Proofs.Store.Token
import VersionedProperties.Proofs.Manager.Uncached
import VersionedProperties.Proofs.Manager.Transparency
import VersionedProperties.Proofs.Document.Escape
import VersionedProperties.Proofs.Document.RoundTrip
import VersionedProperties.Proofs.Manager.TransparentRun
import VersionedProperties.Proofs.Reference.Exploration
import VersionedProperties.Proofs.Reference.Template
import VersionedProperties.Proofs.Store.Change
import VersionedProperties.Proofs.Store.Effect
import VersionedProperties.Proofs.History.Neighbours
import VersionedProperties.Proofs.Store.Regular
import VersionedProperties.Proofs.Store.Ledger
import VersionedProperties.Proofs.Store.Version
import VersionedProperties.Proofs.Manager.Moves
import VersionedProperties.Proofs.Manager.Reached
import VersionedProperties.Proofs.Document.Token
import VersionedProperties.Proofs.Manager.Asking
import VersionedProperties.Proofs.Manager.BeforeLoad
import VersionedProperties.Proofs.Manager.Dispatch
import VersionedProperties.Proofs.Manager.Edit
import VersionedProperties.Proofs.Manager.LoadGate
import VersionedProperties.Proofs.Manager.Modified
import VersionedProperties.Proofs.Manager.Relevance
import VersionedProperties.Proofs.Manager.Saving
import VersionedProperties.Proofs.Mapping
import VersionedProperties.Proofs.Reference.Graph
import VersionedProperties.Proofs.Store.Tracked
import VersionedProperties.Proofs.Store.Unsaved
import VersionedProperties.Proofs.Text.Lines
import VersionedProperties.Proofs.Document.Format
import VersionedProperties.Proofs.Document.JsonText
import VersionedProperties.Proofs.Manager.Restart
import VersionedProperties.Proofs.Storage.Backing
import VersionedProperties.Proofs.Store.Restart
import VersionedProperties.Proofs.Text.Utf8
import VersionedProperties.Proofs.Manager.Audience
import VersionedProperties.Proofs.Manager.Events
import VersionedProperties.Proofs.Manager.FailedAction
import VersionedProperties.Proofs.Storage.Following
import VersionedProperties.Proofs.Storage.Rooted
import VersionedProperties.Proofs.Storage.FailedWrite
import VersionedProperties.Proofs.Store.Invariant
import VersionedProperties.Proofs.Store.Handover
import VersionedProperties.Proofs.Storage.Footprint
import VersionedProperties.Proofs.Manager.ActionError
import VersionedProperties.Proofs.Reference.Widening
import VersionedProperties.Proofs.Reference.Evidence
import VersionedProperties.Proofs.Reference.Grammar
import VersionedProperties.Proofs.Document.JsonNumber
import VersionedProperties.Proofs.Document.JsonReading
import VersionedProperties.Proofs.Document.JsonLocality
import VersionedProperties.Proofs.Document.JsonExpected
import VersionedProperties.Proofs.Document.Decoding
import VersionedProperties.Proofs.Reference.Reachability
import VersionedProperties.Proofs.Store.Recovery
import VersionedProperties.Proofs.Store.ResetAll
import VersionedProperties.Proofs.Document.LogicalLine
import VersionedProperties.Proofs.Store.Independence
import VersionedProperties.Proofs.Document.Composition
import VersionedProperties.Proofs.Document.Continuation
import VersionedProperties.Proofs.Document.NumberEscape
import VersionedProperties.Proofs.Text.Blank
import VersionedProperties.Proofs.Text.LetterCase
import VersionedProperties.Proofs.Numeral.Decimal
import VersionedProperties.Proofs.Document.Separation
import VersionedProperties.Proofs.Document.Header
import VersionedProperties.Proofs.Manager.Stored
import VersionedProperties.Proofs.Manager.Member
import VersionedProperties.Proofs.Text.Replacement
import VersionedProperties.Proofs.Key.Naming
import VersionedProperties.Proofs.Key.Declaration
import VersionedProperties.Proofs.Manager.Known
import VersionedProperties.Proofs.Event.Dispatch
import VersionedProperties.Proofs.Manager.HiddenPart
import VersionedProperties.Proofs.Manager.Scheduling
import VersionedProperties.Proofs.History.Cells
import VersionedProperties.Proofs.History.Register
import VersionedProperties.Proofs.History.Consistency
