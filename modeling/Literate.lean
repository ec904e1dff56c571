import Literate.Command.Arguments
import Literate.Command.Run
import Literate.Document.Basic
import Literate.Document.Codec
import Literate.Document.Reading
import Literate.Fault.Basic
import Literate.Fault.Report
import Literate.File.Encoding
import Literate.File.Path
import Literate.File.Tree
import Literate.Host.Basic
import Literate.Host.Workspace
import Literate.Log.Event
import Literate.Log.Service
import Literate.Log.Trace
import Literate.Main
import Literate.Markup.Block
import Literate.Markup.Inline
import Literate.Markup.LineKind
import Literate.Markup.Segment
import Literate.Number.Numeral
import Literate.Number.Shortest
import Literate.Production.Libraries
import Literate.Production.Outputs
import Literate.Production.Processing
import Literate.Production.Source
import Literate.Proofs.Command.Batch
import Literate.Proofs.Command.Turns
import Literate.Proofs.Command.Watching
import Literate.Proofs.Document.Composition
import Literate.Proofs.Document.Grammar
import Literate.Proofs.Document.LineKinds
import Literate.Proofs.Document.Readable
import Literate.Proofs.Document.Records
import Literate.Proofs.Document.RoundTrip
import Literate.Proofs.Document.SourceLines
import Literate.Proofs.File.Tree
import Literate.Proofs.Host.Interruption
import Literate.Proofs.Host.Workspace
import Literate.Proofs.Log.Service
import Literate.Proofs.Markup.Attributes
import Literate.Proofs.Markup.Blocks
import Literate.Proofs.Markup.CodeSpans
import Literate.Proofs.Markup.Coverage
import Literate.Proofs.Markup.Guards
import Literate.Proofs.Markup.Pieces
import Literate.Proofs.Markup.Rewriting
import Literate.Proofs.Markup.Rules
import Literate.Proofs.Markup.Separation
import Literate.Proofs.Markup.Steps
import Literate.Proofs.Markup.Tags
import Literate.Proofs.Production.Determined
import Literate.Proofs.Production.Failures
import Literate.Proofs.Production.Outputs
import Literate.Proofs.Production.Places
import Literate.Proofs.Production.Processing
import Literate.Proofs.Production.Retries
import Literate.Proofs.Production.Source
import Literate.Proofs.Settings.Allowed
import Literate.Proofs.Settings.History
import Literate.Proofs.Tangle.Collection
import Literate.Proofs.Tangle.Conservation
import Literate.Proofs.Tangle.Cycles
import Literate.Proofs.Tangle.Fallback
import Literate.Proofs.Tangle.Inlining
import Literate.Proofs.Tangle.Literals
import Literate.Proofs.Tangle.Locality
import Literate.Proofs.Tangle.Lookup
import Literate.Proofs.Tangle.Paths
import Literate.Proofs.Tangle.Progress
import Literate.Proofs.Tangle.Provenance
import Literate.Proofs.Tangle.References
import Literate.Proofs.Text.Trim
import Literate.Proofs.Validation.Acceptance
import Literate.Proofs.Watch.Accounting
import Literate.Proofs.Watch.Chronicle
import Literate.Proofs.Watch.Journal
import Literate.Proofs.Watch.Policy
import Literate.Proofs.Watch.Saves
import Literate.Proofs.Weave.Anchors
import Literate.Proofs.Weave.Assignment
import Literate.Proofs.Weave.CrossLinks
import Literate.Proofs.Weave.Fences
import Literate.Proofs.Weave.LineStarts
import Literate.Proofs.Weave.ReadBack
import Literate.Proofs.Weave.Tags
import Literate.Proofs.Weave.UndefinedNames
import Literate.Settings.Basic
import Literate.Settings.Sources
import Literate.Tangle.Collection
import Literate.Tangle.Location
import Literate.Tangle.Reporting
import Literate.Tangle.Unfolding
import Literate.Text.Basic
import Literate.Text.Lower
import Literate.Text.Quoted
import Literate.Text.Word
import Literate.Validation.Check
import Literate.Validation.Issue
import Literate.Value.Basic
import Literate.Value.Display
import Literate.Watch.Loop
import Literate.Weave.Highlighting
import Literate.Weave.Page
import Literate.Weave.Reporting
