import CallBridge.CommandLine.Run
import CallBridge.Main
import CallBridge.Once.Cells
import CallBridge.Resolution.Session
import CallBridge.Proofs.Generation.Alignment
import CallBridge.Proofs.Generation.Reference
import CallBridge.Proofs.Generation.Wiring
import CallBridge.Proofs.Generation.Preresolution
import CallBridge.Proofs.Generation.Flags
import CallBridge.Proofs.Generation.Slots
import CallBridge.Proofs.Dispatch.Entries
import CallBridge.Proofs.Generation.Order
import CallBridge.Proofs.Files.Write
import CallBridge.Proofs.CommandLine.Course
import CallBridge.Proofs.Interleaving
import CallBridge.Proofs.Once.Exclusion
import CallBridge.Proofs.Resolution.Agreement
import CallBridge.Proofs.Resolution.Cache
import CallBridge.Proofs.Resolution.Status
import CallBridge.Proofs.Outcome
import CallBridge.Proofs.Registry.Definitions
import CallBridge.Proofs.Text.Pieces
import CallBridge.Proofs.Registry.FirstMention
import CallBridge.Proofs.Text.Blank
import CallBridge.Proofs.TypeText
import CallBridge.Proofs.NormalForm
import CallBridge.Proofs.Text.Classes
import CallBridge.Proofs.Text.Match
import CallBridge.Proofs.Header.Line
import CallBridge.Proofs.Header.Callee
import CallBridge.Proofs.Header.Marker
import CallBridge.Proofs.Header.Reading
import CallBridge.Proofs.Header.ArgumentList
import CallBridge.Proofs.Header.RoundTrip
import CallBridge.Proofs.Header.Offences
import CallBridge.Proofs.Header.Outcome
import CallBridge.Proofs.Header.Trailing
import CallBridge.Proofs.Header.Column
import CallBridge.Proofs.Header.ParameterNames
import CallBridge.Proofs.Markup.Tree
import CallBridge.Proofs.Markup.View
import CallBridge.Proofs.Markup.Reading
import CallBridge.Proofs.Markup.Presentation
import CallBridge.Proofs.Markup.Chars
import CallBridge.Proofs.Markup.References
import CallBridge.Proofs.Markup.TextRuns
import CallBridge.Proofs.Markup.Tags
import CallBridge.Proofs.Markup.Attributes
import CallBridge.Proofs.Markup.Passages
import CallBridge.Proofs.Markup.Content
import CallBridge.Proofs.Markup.Declaration
import CallBridge.Proofs.Markup.Documents
import CallBridge.Proofs.Registry.Alike
import CallBridge.Proofs.Json.Grammar
import CallBridge.Proofs.Json.Scanning
import CallBridge.Proofs.Config.Fields
import CallBridge.Proofs.Config.Decoding
import CallBridge.Proofs.Header.TypeParts
import CallBridge.Proofs.Header.Parameters
import CallBridge.Proofs.BlankParts
import CallBridge.Proofs.Generation.Forwarding
import CallBridge.Proofs.Dispatch.Setters
import CallBridge.Proofs.Config.Checks
import CallBridge.Proofs.NameTokens
import CallBridge.Proofs.CommandLine.Arguments
import CallBridge.Proofs.Generation.Account
import CallBridge.Proofs.CommandLine.Verbosity
import CallBridge.Proofs.Generation.Classification
import CallBridge.Proofs.LineEnds
import CallBridge.Proofs.Caret
import CallBridge.Proofs.Files.Layout
import CallBridge.Proofs.CommandLine.ConfigArguments
import CallBridge.Proofs.CommandLine.NameInFile
