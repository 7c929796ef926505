import AsmAssist.Address
import AsmAssist.Catalog.Basic
import AsmAssist.Catalog.Bundled
import AsmAssist.Catalog.Table
import AsmAssist.Constant
import AsmAssist.Decimal
import AsmAssist.Definition
import AsmAssist.Format
import AsmAssist.Hover
import AsmAssist.Index
import AsmAssist.Line.Assignment
import AsmAssist.Line.Basic
import AsmAssist.Line.Classify
import AsmAssist.Line.Instruction
import AsmAssist.Line.Layout
import AsmAssist.Literal
import AsmAssist.Markdown
import AsmAssist.Mnemonic
import AsmAssist.NameTable
import AsmAssist.Operator
import AsmAssist.Outline
import AsmAssist.Position
import AsmAssist.Proofs.Anatomy
import AsmAssist.Proofs.Assignment
import AsmAssist.Proofs.Cancellation
import AsmAssist.Proofs.Entries
import AsmAssist.Proofs.Formatting
import AsmAssist.Proofs.History
import AsmAssist.Proofs.Layout
import AsmAssist.Proofs.Literal
import AsmAssist.Proofs.Mnemonic
import AsmAssist.Proofs.Preservation
import AsmAssist.Proofs.Reading
import AsmAssist.Proofs.Rereading
import AsmAssist.Proofs.Respacing
import AsmAssist.Proofs.Revision
import AsmAssist.Proofs.Source
import AsmAssist.Proofs.Stability
import AsmAssist.Proofs.Statement
import AsmAssist.Proofs.Text
import AsmAssist.Proofs.Tokens
import AsmAssist.Proofs.Words
import AsmAssist.Register
import AsmAssist.Run
import AsmAssist.Session.Basic
import AsmAssist.Session.Startup
import AsmAssist.Session.Step
import AsmAssist.Settings.Basic
import AsmAssist.Settings.Read
import AsmAssist.Settings.Value
import AsmAssist.Source
import AsmAssist.Text.Blank
import AsmAssist.Text.Fields
import AsmAssist.Text.Fold
import AsmAssist.Text.Plain
import AsmAssist.Text.Quoted
import AsmAssist.Text.Ranges
import AsmAssist.Text.Units
import AsmAssist.Text.Upper
import AsmAssist.Text.WordChar
import AsmAssist.Word
import AsmAssist.Proofs.Indexing
import AsmAssist.Proofs.Keywords
import AsmAssist.Proofs.Comments
import AsmAssist.Proofs.Indentation
import AsmAssist.Proofs.Tables
import AsmAssist.Proofs.Atomicity
import AsmAssist.Proofs.MnemonicScan
import AsmAssist.Proofs.FirstKeyword
import AsmAssist.Proofs.LineBreaks
import AsmAssist.Proofs.Runs
import AsmAssist.Proofs.Shapes
import AsmAssist.Proofs.Definitions
import AsmAssist.Proofs.Hovers
import AsmAssist.Proofs.Documentation
import AsmAssist.Proofs.Numerals
import AsmAssist.Proofs.Readback
import AsmAssist.Proofs.Rows
import AsmAssist.Proofs.Outlines
import AsmAssist.Proofs.Registers
import AsmAssist.Proofs.MarkOffsets
import AsmAssist.Proofs.Boundaries
import AsmAssist.Proofs.SignedWords
import AsmAssist.Proofs.Options
import AsmAssist.Proofs.NameTable
