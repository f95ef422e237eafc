import TestScript.Browse.History
import TestScript.Browse.Session
import TestScript.Command.Argument
import TestScript.Command.Help
import TestScript.Command.Outcome
import TestScript.Command.Report
import TestScript.Command.Request
import TestScript.Command.Switch
import TestScript.Disk.Basic
import TestScript.Disk.Path
import TestScript.Disk.Saving
import TestScript.Fault
import TestScript.Form.Basic
import TestScript.Form.Batch
import TestScript.Json.Layout
import TestScript.Json.Lexer
import TestScript.Json.Printer
import TestScript.Json.ReadBack
import TestScript.Json.Reader
import TestScript.Json.Token
import TestScript.Json.Value
import TestScript.Lesson.Basic
import TestScript.Lesson.Builtin
import TestScript.Lookup
import TestScript.Main
import TestScript.Page.App
import TestScript.Page.Components
import TestScript.Page.Gestures
import TestScript.Page.Html
import TestScript.Page.Markup
import TestScript.Proofs.Browse.Chapters
import TestScript.Proofs.Browse.Replay
import TestScript.Proofs.Browse.Separation
import TestScript.Proofs.Browse.Showing
import TestScript.Proofs.Command.Delivery
import TestScript.Proofs.Command.Giving
import TestScript.Proofs.Command.Reading
import TestScript.Proofs.Command.Requesting
import TestScript.Proofs.Command.Sequence
import TestScript.Proofs.Disk.Saving
import TestScript.Proofs.Form.Batch
import TestScript.Proofs.Form.Commit
import TestScript.Proofs.Form.Editing
import TestScript.Proofs.Form.Fitting
import TestScript.Proofs.Form.Numbering
import TestScript.Proofs.Form.Offering
import TestScript.Proofs.Form.Rebuilding
import TestScript.Proofs.Form.Refusing
import TestScript.Proofs.Json.Accepting
import TestScript.Proofs.Json.Lexing
import TestScript.Proofs.Json.Printing
import TestScript.Proofs.Json.Quoting
import TestScript.Proofs.Json.Tracing
import TestScript.Proofs.Lesson.Exporting
import TestScript.Proofs.Lesson.Finding
import TestScript.Proofs.Lesson.Issuing
import TestScript.Proofs.Page.Choosing
import TestScript.Proofs.Page.Escaping
import TestScript.Proofs.Page.Hints
import TestScript.Proofs.Page.Marks
import TestScript.Proofs.Page.Reading
import TestScript.Proofs.Page.Texts
import TestScript.Proofs.Script.Cutting
import TestScript.Proofs.Script.Entries
import TestScript.Proofs.Script.Growing
import TestScript.Proofs.Script.Lines
import TestScript.Proofs.Step.Decoding
import TestScript.Proofs.Step.Grammar
import TestScript.Proofs.Step.Parts
import TestScript.Proofs.Step.RoundTrip
import TestScript.Proofs.Table.Columns
import TestScript.Proofs.Table.ReadBack
import TestScript.Proofs.Table.Widths
import TestScript.Proofs.Text.Casing
import TestScript.Proofs.Text.Positions
import TestScript.Proofs.Text.Splitting
import TestScript.Proofs.Text.Trimming
import TestScript.Script
import TestScript.Step.Basic
import TestScript.Step.Document
import TestScript.Step.Draft
import TestScript.Step.Spec
import TestScript.Table
import TestScript.Text
import TestScript.Vocabulary.Action
import TestScript.Vocabulary.Fit
import TestScript.Vocabulary.Interface
import TestScript.Vocabulary.Locator
