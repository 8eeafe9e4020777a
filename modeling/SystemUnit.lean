import SystemUnit.Whole.Basic
import SystemUnit.Floating.Text
import SystemUnit.Floating.Elementary
import SystemUnit.Text.Edit
import SystemUnit.Text.Search
import SystemUnit.Text.Case
import SystemUnit.Text.Quoted
import SystemUnit.Scalar.Literal
import SystemUnit.Scalar.Promotion
import SystemUnit.Fault
import SystemUnit.Template.Piece
import SystemUnit.Format.Basic
import SystemUnit.Conversion.Reading
import SystemUnit.Conversion.Writing
import SystemUnit.Arithmetic
import SystemUnit.Random
import SystemUnit.Loop
import SystemUnit.CommandLine
import SystemUnit.Collection.DynArray
import SystemUnit.Collection.OrdinalSet
import SystemUnit.Record
import SystemUnit.Arena
import SystemUnit.File.TextFile
import SystemUnit.File.BinaryFile
import SystemUnit.Console
import SystemUnit.Process
import SystemUnit.Session
import SystemUnit.Proofs.Arena.Refinement
import SystemUnit.Proofs.Arena.Stale
import SystemUnit.Proofs.Text.Recoding
import SystemUnit.Proofs.Text.Part
import SystemUnit.Proofs.Text.Replacement
import SystemUnit.Proofs.Template.Counts
import SystemUnit.Proofs.Template.SpecText
import SystemUnit.Proofs.Format.Outcome
import SystemUnit.Proofs.Template.Groups
import SystemUnit.Proofs.File.Outcome
import SystemUnit.Proofs.File.Records
import SystemUnit.Proofs.File.Lines
import SystemUnit.Proofs.File.Numbers
import SystemUnit.Proofs.Collection.OrdinalSet
import SystemUnit.Proofs.File.Misuse
import SystemUnit.Proofs.File.Account
import SystemUnit.Proofs.Session.Message
import SystemUnit.Proofs.Arena.Filling
import SystemUnit.Proofs.Numeral.Run
import SystemUnit.Proofs.Numeral.Word
import SystemUnit.Proofs.Conversion.Integer
import SystemUnit.Proofs.File.Integers
import SystemUnit.Proofs.File.Agreement
import SystemUnit.Proofs.File.Progress
import SystemUnit.Proofs.Numeral.Stop
import SystemUnit.Proofs.Numeral.RealForm
import SystemUnit.Proofs.Conversion.Position
import SystemUnit.Proofs.Numeral.Written
import SystemUnit.Proofs.Numeral.Bare
import SystemUnit.Proofs.Conversion.Hexadecimal
import SystemUnit.Proofs.File.BitPatterns
import SystemUnit.Proofs.Format.Layout
import SystemUnit.Proofs.Format.ReadBack
import SystemUnit.Proofs.Floating.Pattern
import SystemUnit.Proofs.Floating.Nearest
import SystemUnit.Proofs.Conversion.Real
import SystemUnit.Proofs.Template.Joining
import SystemUnit.Proofs.Format.Precision
import SystemUnit.Proofs.Format.Oversized
import SystemUnit.Proofs.File.LineEnds
import SystemUnit.Proofs.File.SingleWord
import SystemUnit.Proofs.File.Characters
import SystemUnit.Proofs.File.Seam
import SystemUnit.Proofs.Arena.Reallocation
import SystemUnit.Proofs.Arena.Access
import SystemUnit.Proofs.Random.Period
import SystemUnit.Proofs.Scalar.Promotion
import SystemUnit.Proofs.Record.Canonical
import SystemUnit.Proofs.Text.Quotation
import SystemUnit.Proofs.Template.Saturation
