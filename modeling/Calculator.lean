import Calculator.Command
import Calculator.Context
import Calculator.Decimal.Double
import Calculator.Derivative
import Calculator.Evaluation
import Calculator.Expr.Basic
import Calculator.Expr.Json
import Calculator.Expr.PostOrder
import Calculator.Expr.Reading
import Calculator.Expr.Rpn
import Calculator.Expr.Text
import Calculator.Main
import Calculator.Number.Double
import Calculator.Parser.Grammar
import Calculator.Parser.Program
import Calculator.Proofs.Action
import Calculator.Proofs.Command.CanonicalText
import Calculator.Proofs.Command.Line
import Calculator.Proofs.Derivative.Constants
import Calculator.Proofs.Derivative.DualNumber
import Calculator.Proofs.Derivative.Growth
import Calculator.Proofs.Derivative.Simplification
import Calculator.Proofs.Expr.Evaluation
import Calculator.Proofs.Expr.InfixText
import Calculator.Proofs.Expr.Json
import Calculator.Proofs.Expr.OperandOrder
import Calculator.Proofs.Expr.PostOrder
import Calculator.Proofs.Expr.StackMachine
import Calculator.Proofs.Expr.Variables
import Calculator.Proofs.Expr.Walk
import Calculator.Proofs.NameMap
import Calculator.Proofs.Number.Decimal
import Calculator.Proofs.Number.Equality
import Calculator.Proofs.Number.Field
import Calculator.Proofs.Number.FixedPoint
import Calculator.Proofs.Number.Numeral
import Calculator.Proofs.Number.Overflow
import Calculator.Proofs.Number.Rational
import Calculator.Proofs.Parser.Agreement
import Calculator.Proofs.Parser.Characters
import Calculator.Proofs.Parser.CompletedOperations
import Calculator.Proofs.Parser.Concatenation
import Calculator.Proofs.Parser.Derivation
import Calculator.Proofs.Parser.ErrorRegions
import Calculator.Proofs.Parser.Exactness
import Calculator.Proofs.Parser.Failure
import Calculator.Proofs.Parser.FirstFault
import Calculator.Proofs.Parser.GrammarAgreement
import Calculator.Proofs.Parser.GrammarRoutines
import Calculator.Proofs.Parser.Infix
import Calculator.Proofs.Parser.MatchingParentheses
import Calculator.Proofs.Parser.OpenParentheses
import Calculator.Proofs.Parser.ReadingPlace
import Calculator.Proofs.Parser.Relocation
import Calculator.Proofs.Parser.Respacing
import Calculator.Proofs.Parser.RoundTrip
import Calculator.Proofs.Parser.Spelling
import Calculator.Proofs.Parser.TreeRegions
import Calculator.Proofs.Parser.UnreachableFaults
import Calculator.Proofs.Parser.ViablePrefix
import Calculator.Proofs.Parser.WordReading
import Calculator.Proofs.Parser.WordRegions
import Calculator.Proofs.Script.Visits
import Calculator.Proofs.Session.ExpressionLines
import Calculator.Proofs.Session.History
import Calculator.Proofs.Session.Restore
import Calculator.Proofs.Session.Step
import Calculator.Proofs.Simplification.Constants
import Calculator.Proofs.Simplification.FirstNode
import Calculator.Proofs.Simplification.Meaning
import Calculator.Proofs.Simplification.NormalForm
import Calculator.Proofs.Simplification.OperandOrder
import Calculator.Proofs.Simplification.Reduction
import Calculator.Proofs.Simplification.Rewrites
import Calculator.Proofs.Simplification.Shrinking
import Calculator.Proofs.Text.EditDistance
import Calculator.Proofs.Text.Region
import Calculator.Proofs.Token.Lexeme
import Calculator.Proofs.Token.MaximalMunch
import Calculator.Report
import Calculator.Script
import Calculator.Session
import Calculator.Simplification
import Calculator.Token.Lexer
import Calculator.Trace
