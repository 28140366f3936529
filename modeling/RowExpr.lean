import RowExpr.Main
import RowExpr.Json.Parse
import RowExpr.Json.Text
import RowExpr.Compiler
import RowExpr.Stmt.Canonical
import RowExpr.Stmt.Check
import RowExpr.Expr.Fold
import RowExpr.Registry.Standard
import RowExpr.Value.Operator
import RowExpr.Number.Elementary
import RowExpr.Number.Arithmetic
import RowExpr.Text.Units
import RowExpr.Table
import RowExpr.Error
import RowExpr.Stmt.Code
import RowExpr.Expr.Basic
import RowExpr.Error.Malformed
import RowExpr.Grammar.Function
import RowExpr.Number.Format
import RowExpr.Number.Numeral
import RowExpr.Text.Alphabetic
import RowExpr.Text.Blank
import RowExpr.Text.Case
import RowExpr.Text.Numeric
import RowExpr.Text.Printable
import RowExpr.Proofs.Expr.Parts
import RowExpr.Proofs.Expr.Fold
import RowExpr.Proofs.Expr.Branches
import RowExpr.Proofs.Extract.Run
import RowExpr.Proofs.Extract.Numbering
import RowExpr.Proofs.Extract.Expression
import RowExpr.Proofs.Extract.Function
import RowExpr.Proofs.Check.Expression
import RowExpr.Proofs.Check.Sites
import RowExpr.Proofs.Check.Sandbox
import RowExpr.Proofs.Extract.Shift
import RowExpr.Proofs.Compiler.Batch
import RowExpr.Proofs.Compiler.Hygiene
import RowExpr.Proofs.Token.Literal
import RowExpr.Proofs.Token.StringValue
import RowExpr.Proofs.Token.Template
import RowExpr.Proofs.Token.Run
import RowExpr.Proofs.Grammar.Outcome
import RowExpr.Proofs.Grammar.Reading
import RowExpr.Proofs.Grammar.Operation
import RowExpr.Proofs.Grammar.Precedence
import RowExpr.Proofs.Expr.Surface
import RowExpr.Proofs.Grammar.Code
import RowExpr.Proofs.Check.Legible
import RowExpr.Proofs.Check.Parameter
import RowExpr.Proofs.Roundtrip.Expression
import RowExpr.Proofs.Roundtrip.Statement
import RowExpr.Proofs.Roundtrip.Generated
import RowExpr.Proofs.Extract.Records
import RowExpr.Proofs.Expr.Spelling
import RowExpr.Proofs.Stmt.Spelling
import RowExpr.Proofs.Extract.Causes
import RowExpr.Proofs.Compiler.Check
import RowExpr.Proofs.Token.Layout
import RowExpr.Proofs.Expr.Template
import RowExpr.Proofs.Number.Digits
import RowExpr.Proofs.Number.Nearest
import RowExpr.Proofs.Token.NumberValue
import RowExpr.Proofs.Token.Braces
import RowExpr.Proofs.Grammar.Alike
import RowExpr.Proofs.Roundtrip.Interpolation
import RowExpr.Proofs.Expr.Numeric
import RowExpr.Proofs.Number.Shortest
import RowExpr.Proofs.Number.Text
import RowExpr.Proofs.Number.RoundTrip
import RowExpr.Proofs.Number.Front
import RowExpr.Proofs.Token.NumericText
import RowExpr.Proofs.Value.Member
import RowExpr.Proofs.Value.Conversion
import RowExpr.Proofs.Command.Window
import RowExpr.Proofs.Token.Next
import RowExpr.Proofs.Token.Shift
import RowExpr.Proofs.Token.Spacing
import RowExpr.Proofs.Grammar.Placement
import RowExpr.Proofs.Grammar.Progress
import RowExpr.Proofs.Grammar.Places
import RowExpr.Proofs.Grammar.Totality
