import Reckoner.Batch.Checked
import Reckoner.Batch.Logged
import Reckoner.Batch.ResultLine
import Reckoner.Batch.Run
import Reckoner.Batch.Workers
import Reckoner.Binary64.Arithmetic
import Reckoner.Binary64.Basic
import Reckoner.Binary64.Bits
import Reckoner.Binary64.Division
import Reckoner.Calculator.Basic
import Reckoner.Calculator.Display
import Reckoner.Calculator.Precision
import Reckoner.Calculator.Record
import Reckoner.Command.Arguments
import Reckoner.Command.Logged
import Reckoner.Command.Run
import Reckoner.Command.Settings
import Reckoner.Decimal.Printing
import Reckoner.Decimal.Reading
import Reckoner.Files.Archive
import Reckoner.Files.Statements
import Reckoner.Files.Store
import Reckoner.Log
import Reckoner.Log.Logger
import Reckoner.Main
import Reckoner.Postfix.Basic
import Reckoner.Postfix.Checked
import Reckoner.Postfix.Conversion
import Reckoner.Proofs.Batch.Lines
import Reckoner.Proofs.Batch.Logged
import Reckoner.Proofs.Batch.Recovery
import Reckoner.Proofs.Batch.ResultLine
import Reckoner.Proofs.Batch.Workers
import Reckoner.Proofs.Binary64.Arithmetic
import Reckoner.Proofs.Binary64.Closest
import Reckoner.Proofs.Binary64.Error
import Reckoner.Proofs.Binary64.Half
import Reckoner.Proofs.Binary64.Nearest
import Reckoner.Proofs.Binary64.Quotient
import Reckoner.Proofs.Binary64.Rounding
import Reckoner.Proofs.Calculator.Derivability
import Reckoner.Proofs.Calculator.Display
import Reckoner.Proofs.Calculator.Finite
import Reckoner.Proofs.Calculator.HalfUp
import Reckoner.Proofs.Calculator.Integer
import Reckoner.Proofs.Calculator.Monotone
import Reckoner.Proofs.Calculator.NonFinite
import Reckoner.Proofs.Calculator.Outcome
import Reckoner.Proofs.Calculator.Printed
import Reckoner.Proofs.Calculator.RoundTrip
import Reckoner.Proofs.Calculator.Shape
import Reckoner.Proofs.Calculator.Total
import Reckoner.Proofs.Command.Frame
import Reckoner.Proofs.Command.Logs
import Reckoner.Proofs.Command.Results
import Reckoner.Proofs.Command.Separate
import Reckoner.Proofs.Decimal.Numeral
import Reckoner.Proofs.Decimal.Printing
import Reckoner.Proofs.Decimal.Reading
import Reckoner.Proofs.Expression.Grammar
import Reckoner.Proofs.Expression.Tree
import Reckoner.Proofs.Files.Archive
import Reckoner.Proofs.Files.Layout
import Reckoner.Proofs.Files.Statements
import Reckoner.Proofs.Files.Store
import Reckoner.Proofs.Postfix.Composition
import Reckoner.Proofs.Postfix.Conservation
import Reckoner.Proofs.Postfix.Forest
import Reckoner.Proofs.Postfix.Literal
import Reckoner.Proofs.Postfix.Origins
import Reckoner.Proofs.Postfix.Parsing
import Reckoner.Proofs.Postfix.Scan
import Reckoner.Proofs.Postfix.Verdict
import Reckoner.Proofs.Postfix.Waiting
import Reckoner.Proofs.Postfix.Weight
import Reckoner.Proofs.Pyramid.Height
import Reckoner.Proofs.Pyramid.Layout
import Reckoner.Proofs.Pyramid.Placing
import Reckoner.Proofs.Pyramid.Refusal
import Reckoner.Proofs.Statement.Lexing
import Reckoner.Proofs.Statement.Operator
import Reckoner.Proofs.Statement.Tokens
import Reckoner.Proofs.Subsequence
import Reckoner.Proofs.Text.Encoding.Utf8
import Reckoner.Proofs.Text.Encoding.Written
import Reckoner.Proofs.Text.Lines
import Reckoner.Proofs.Text.PathName
import Reckoner.Proofs.Text.Quoted
import Reckoner.Proofs.Value.Exact
import Reckoner.Proofs.Value.Kinds
import Reckoner.Proofs.Value.Sorting
import Reckoner.Pyramid
import Reckoner.Pyramid.Placing
import Reckoner.Rounding
import Reckoner.Statement.Basic
import Reckoner.Statement.Checked
import Reckoner.Statement.Error
import Reckoner.Statement.Lexeme
import Reckoner.Statement.Operator
import Reckoner.Subsequence
import Reckoner.Text.Blank
import Reckoner.Text.Digit
import Reckoner.Text.Encoding.Basic
import Reckoner.Text.Encoding.Decode
import Reckoner.Text.Fields
import Reckoner.Text.Lines
import Reckoner.Text.PathName
import Reckoner.Text.Printable
import Reckoner.Text.Quoted
import Reckoner.Value.Basic
import Reckoner.Value.Field
import Reckoner.Value.Memory
import Reckoner.Value.Order
import Reckoner.Value.Sorting
