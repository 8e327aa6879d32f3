import Wireframe.Location
import Wireframe.Tree
import Wireframe.Text.Basic
import Wireframe.Decimal.Notation
import Wireframe.Decimal.Reading
import Wireframe.Table
import Wireframe.Kind
import Wireframe.Value
import Wireframe.Nesting
import Wireframe.Token
import Wireframe.Diagnostic
import Wireframe.Lexeme.Basic
import Wireframe.Lexeme.Cursor
import Wireframe.Json.Printer
import Wireframe.Json.Reader
import Wireframe.Text.LowerCase
import Wireframe.Outline.Item
import Wireframe.Outline.Builder
import Wireframe.Outline.Reader
import Wireframe.Vocabulary
import Wireframe.Identifier
import Wireframe.Document.Basic
import Wireframe.Document.Json
import Wireframe.Analysis
import Wireframe.Compiler
import Wireframe.Design.Category
import Wireframe.Design.Scales
import Wireframe.Design.Dimension
import Wireframe.Design.Keystream
import Wireframe.Design.Palette
import Wireframe.Design.Params
import Wireframe.Timestamp.Text
import Wireframe.Session.Registry
import Wireframe.Settings
import Wireframe.CommandLine.Run
import Wireframe.Main
import Wireframe.Proofs.Outline.Derivation
import Wireframe.Proofs.Outline.Suffix
import Wireframe.Proofs.Outline.Locality
import Wireframe.Proofs.Outline.Run
import Wireframe.Proofs.Lexeme.Scanners
import Wireframe.Proofs.Lexeme.Scanning
import Wireframe.Proofs.Lexeme.Lines
import Wireframe.Proofs.Forest
import Wireframe.Proofs.Walk
import Wireframe.Proofs.Outline.TagLines
import Wireframe.Proofs.Outline.Ledger
import Wireframe.Proofs.Outline.Indentation
import Wireframe.Proofs.Outline.Shift
import Wireframe.Proofs.Outline.ShiftedRun
import Wireframe.Proofs.Lexeme.Quotation
import Wireframe.Proofs.Lexeme.Spelling
import Wireframe.Proofs.Outline.Printer
import Wireframe.Proofs.Outline.PrintedLines
import Wireframe.Proofs.Outline.RoundTrip
import Wireframe.Proofs.Analysis.ShiftedDocument
import Wireframe.Proofs.Outline.Arrangement
import Wireframe.Proofs.Lexeme.Joined
import Wireframe.Proofs.Outline.Continuation
import Wireframe.Proofs.Outline.Places
import Wireframe.Proofs.Outline.Sections
import Wireframe.Proofs.Analysis.Components
import Wireframe.Proofs.Analysis.Hoisting
import Wireframe.Proofs.Compilation
import Wireframe.Proofs.Identifier.Legal
import Wireframe.Proofs.Identifier.Allocation
import Wireframe.Proofs.Analysis.Ids
import Wireframe.Proofs.Analysis.Pruning
import Wireframe.Proofs.Analysis.Visits
import Wireframe.Proofs.Analysis.Naming
import Wireframe.Proofs.Analysis.Appending
import Wireframe.Proofs.Table
import Wireframe.Proofs.Vocabulary
import Wireframe.Proofs.Analysis.Precedence
import Wireframe.Proofs.Analysis.Props
import Wireframe.Proofs.Lexeme.Places
import Wireframe.Proofs.Lexeme.Occurrences
import Wireframe.Proofs.Lexeme.LastLine
import Wireframe.Proofs.Lexeme.Coverage
import Wireframe.Proofs.Lexeme.Below
import Wireframe.Proofs.Outline.Sourced
import Wireframe.Proofs.Outline.Turns
import Wireframe.Proofs.Reporting
import Wireframe.Proofs.Session.Operation
import Wireframe.Proofs.Session.Frame
import Wireframe.Proofs.Session.History
import Wireframe.Proofs.Design.Names
import Wireframe.Proofs.Design.Completeness
import Wireframe.Proofs.Design.Schema
import Wireframe.Proofs.Design.Framing
import Wireframe.Proofs.Design.HashInput
import Wireframe.Proofs.Session.Completeness
import Wireframe.Proofs.Session.Clock
import Wireframe.Proofs.Session.Transfer
import Wireframe.Proofs.Session.Revisions
import Wireframe.Proofs.Interleaving
import Wireframe.Proofs.Session.Concurrency
import Wireframe.Proofs.Decimal.Rounding
import Wireframe.Proofs.Decimal.Shortest
import Wireframe.Proofs.Json.Numbers
import Wireframe.Proofs.Json.Marks
import Wireframe.Proofs.Json.Reading
import Wireframe.Proofs.Document.Json
import Wireframe.Proofs.Document.Compiled
import Wireframe.Proofs.Lexeme.Numbers
import Wireframe.Proofs.Text.Case
import Wireframe.Proofs.Analysis.WrittenId
import Wireframe.Proofs.Analysis.Presets
import Wireframe.Proofs.Analysis.Recasing
import Wireframe.Proofs.Lexeme.Encodings
import Wireframe.Proofs.Lexeme.Words
import Wireframe.Proofs.Lexeme.LineEndings
import Wireframe.Proofs.Outline.Widths
import Wireframe.Proofs.Outline.Passes
import Wireframe.Proofs.Session.Listing
import Wireframe.Proofs.Design.Mixing
import Wireframe.Proofs.Design.Selection
import Wireframe.Proofs.Text.Surroundings
import Wireframe.Proofs.Design.Hints
import Wireframe.Proofs.Design.WrittenColor
import Wireframe.Proofs.Design.Magnitude
import Wireframe.Proofs.Design.Extremes
import Wireframe.Proofs.Design.Legibility
import Wireframe.Proofs.Identifier.Requests
import Wireframe.Proofs.Identifier.Cleaning
