import EditableTemplate.Bindings
import EditableTemplate.Catalogue.Collect
import EditableTemplate.Catalogue.Draft
import EditableTemplate.Catalogue.Entry
import EditableTemplate.Color
import EditableTemplate.CommandLine.Arguments
import EditableTemplate.CommandLine.Command
import EditableTemplate.CommandLine.Halt
import EditableTemplate.CommandLine.Order
import EditableTemplate.CommandLine.Report
import EditableTemplate.CommandLine.Run
import EditableTemplate.CommandLine.Switch
import EditableTemplate.CommandLine.Usage
import EditableTemplate.Console.ControlSequence
import EditableTemplate.Console.Help
import EditableTemplate.Console.Item
import EditableTemplate.Console.Layout
import EditableTemplate.Console.Markup
import EditableTemplate.Datum
import EditableTemplate.Dependency.Graph
import EditableTemplate.Dependency.Walk
import EditableTemplate.Files.Folder
import EditableTemplate.Files.Path
import EditableTemplate.Json.Reader
import EditableTemplate.Json.Writer
import EditableTemplate.Loading
import EditableTemplate.Main
import EditableTemplate.Number.Basic
import EditableTemplate.Number.Binary64
import EditableTemplate.Number.Digits
import EditableTemplate.Number.Layout
import EditableTemplate.Number.Literal
import EditableTemplate.Number.Power
import EditableTemplate.Number.Reading
import EditableTemplate.Number.Shortest
import EditableTemplate.Override.Assignment
import EditableTemplate.Override.File
import EditableTemplate.Override.Parameters
import EditableTemplate.Override.Source
import EditableTemplate.Override.Text
import EditableTemplate.Policy
import EditableTemplate.Readiness
import EditableTemplate.Rendering
import EditableTemplate.Resolution
import EditableTemplate.Session
import EditableTemplate.Settings
import EditableTemplate.Settings.WholeNumber
import EditableTemplate.Template.Document
import EditableTemplate.Template.Expression
import EditableTemplate.Template.Failure
import EditableTemplate.Template.Grammar
import EditableTemplate.Template.Lexeme
import EditableTemplate.Template.Span
import EditableTemplate.Template.Token
import EditableTemplate.Text.Blank
import EditableTemplate.Text.CodePoint
import EditableTemplate.Text.DecimalDigit
import EditableTemplate.Text.LowerCase
import EditableTemplate.Text.Position
import EditableTemplate.Text.Printable
import EditableTemplate.Text.Quoted
import EditableTemplate.Text.Range
import EditableTemplate.Text.Similarity
import EditableTemplate.Text.Utf8
import EditableTemplate.Trace
import EditableTemplate.Value
import EditableTemplate.Proofs.Bindings
import EditableTemplate.Proofs.Dependency.Graph
import EditableTemplate.Proofs.Dependency.Invariant
import EditableTemplate.Proofs.Dependency.Order
import EditableTemplate.Proofs.Dependency.Filling
import EditableTemplate.Proofs.Catalogue.Reference
import EditableTemplate.Proofs.Resolution.Meaning
import EditableTemplate.Proofs.Resolution.Solution
import EditableTemplate.Proofs.Value
import EditableTemplate.Proofs.Catalogue.Soundness
import EditableTemplate.Proofs.Resolution.Soundness
import EditableTemplate.Proofs.Number.Literal
import EditableTemplate.Proofs.Template.Span
import EditableTemplate.Proofs.Template.Lexeme
import EditableTemplate.Proofs.Template.Token
import EditableTemplate.Proofs.Template.Grammar
import EditableTemplate.Proofs.Template.Document
import EditableTemplate.Proofs.Catalogue.Mention
import EditableTemplate.Proofs.Catalogue.Outcome
import EditableTemplate.Proofs.Except
import EditableTemplate.Proofs.Template.Phrase
import EditableTemplate.Proofs.Template.Reading
import EditableTemplate.Proofs.Template.Acceptance
import EditableTemplate.Proofs.Template.Decomposition
import EditableTemplate.Proofs.Template.Node
import EditableTemplate.Proofs.Writable
import EditableTemplate.Proofs.Rendering
import EditableTemplate.Proofs.Number.Worth
import EditableTemplate.Proofs.Meaning
import EditableTemplate.Proofs.Catalogue.Agreement
import EditableTemplate.Proofs.Catalogue.Likeness
import EditableTemplate.Proofs.Catalogue.Merge
import EditableTemplate.Proofs.Resolution.Likeness
import EditableTemplate.Proofs.Reordering
import EditableTemplate.Proofs.Template.Shift
import EditableTemplate.Proofs.Concatenation
import EditableTemplate.Proofs.Noninterference
import EditableTemplate.Proofs.Pinning
import EditableTemplate.Proofs.Session
import EditableTemplate.Proofs.Number.Rounding
import EditableTemplate.Proofs.Number.Shortest
import EditableTemplate.Proofs.Number.Written
import EditableTemplate.Proofs.Spelling
import EditableTemplate.Proofs.Catalogue.Written
import EditableTemplate.Proofs.Catalogue.RoundTrip
import EditableTemplate.Proofs.Color
import EditableTemplate.Proofs.Confinement
import EditableTemplate.Proofs.Template.Fault
import EditableTemplate.Proofs.Template.Opening
import EditableTemplate.Proofs.Reporting
import EditableTemplate.Proofs.Catalogue.Citation
import EditableTemplate.Proofs.Catalogue.Inference
import EditableTemplate.Proofs.Console.Markup
import EditableTemplate.Proofs.Loading
import EditableTemplate.Proofs.Readiness
import EditableTemplate.Proofs.CommandLine.Check
import EditableTemplate.Proofs.Text.Plain
import EditableTemplate.Proofs.Defaults
import EditableTemplate.Proofs.CommandLine.Order
import EditableTemplate.Proofs.CommandLine.Ending
import EditableTemplate.Proofs.CommandLine.Render
import EditableTemplate.Proofs.Catalogue.Conflict
import EditableTemplate.Proofs.Dependency.Path
import EditableTemplate.Proofs.Dependency.Recursion
import EditableTemplate.Proofs.Catalogue.Circle
import EditableTemplate.Proofs.Catalogue.Unknown
import EditableTemplate.Proofs.Resolution.Restriction
import EditableTemplate.Proofs.Number.Longest
import EditableTemplate.Proofs.Number.Reading
import EditableTemplate.Proofs.Template.Quotation
import EditableTemplate.Proofs.Template.Pattern
import EditableTemplate.Proofs.Template.Segmentation
import EditableTemplate.Proofs.Template.Pairing
import EditableTemplate.Proofs.Template.Spacing
import EditableTemplate.Proofs.Template.Respacing
import EditableTemplate.Proofs.Override.Text
import EditableTemplate.Proofs.Override.Literal
import EditableTemplate.Proofs.Override.Assignment
import EditableTemplate.Proofs.Resolution.Replacement
import EditableTemplate.Proofs.Override.Parameters
import EditableTemplate.Proofs.Color.Form
import EditableTemplate.Proofs.Color.Word
import EditableTemplate.Proofs.Color.Leading
import EditableTemplate.Proofs.Color.Reading
import EditableTemplate.Proofs.Color.Decimal
import EditableTemplate.Proofs.Text.Position
import EditableTemplate.Proofs.Dependency.Marking
import EditableTemplate.Proofs.Text.Utf8
import EditableTemplate.Proofs.Text.Newline
import EditableTemplate.Proofs.Substitution
import EditableTemplate.Proofs.Idempotence
import EditableTemplate.Proofs.Verbatim
