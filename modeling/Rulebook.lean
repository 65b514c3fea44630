import Rulebook.Floating.Bits
import Rulebook.Operator.Description
import Rulebook.Policy.Document
import Rulebook.Proofs.Evaluator
import Rulebook.Proofs.Evaluator.Depth
import Rulebook.Proofs.Evaluator.Integral
import Rulebook.Proofs.Evaluator.Location
import Rulebook.Proofs.Evaluator.Origin
import Rulebook.Proofs.Evaluator.References
import Rulebook.Proofs.Evaluator.Sort
import Rulebook.Proofs.Evaluator.Strict
import Rulebook.Proofs.Evaluator.Substitution
import Rulebook.Proofs.Expr.Context
import Rulebook.Proofs.Expr.DecimalLiteral
import Rulebook.Proofs.Expr.Discipline
import Rulebook.Proofs.Expr.Grammar
import Rulebook.Proofs.Expr.Limit
import Rulebook.Proofs.Expr.Numeral
import Rulebook.Proofs.Expr.Path
import Rulebook.Proofs.Expr.Prefix
import Rulebook.Proofs.Expr.Printing
import Rulebook.Proofs.Expr.Reader
import Rulebook.Proofs.Expr.Recognition
import Rulebook.Proofs.Expr.Refusal
import Rulebook.Proofs.Expr.Rewriting
import Rulebook.Proofs.Expr.Viability
import Rulebook.Proofs.Features
import Rulebook.Proofs.Features.Location
import Rulebook.Proofs.Features.Malformed
import Rulebook.Proofs.Features.Navigation
import Rulebook.Proofs.Features.Written
import Rulebook.Proofs.Floating
import Rulebook.Proofs.Floating.Order
import Rulebook.Proofs.Json.Reader
import Rulebook.Proofs.Operator
import Rulebook.Proofs.Operator.Answers
import Rulebook.Proofs.Operator.Comparison
import Rulebook.Proofs.Operator.History
import Rulebook.Proofs.Policy.Blocked
import Rulebook.Proofs.Policy.Cycle
import Rulebook.Proofs.Policy.Dependency
import Rulebook.Proofs.Policy.Document
import Rulebook.Proofs.Policy.Execution
import Rulebook.Proofs.Policy.FailedRule
import Rulebook.Proofs.Policy.Finite
import Rulebook.Proofs.Policy.History
import Rulebook.Proofs.Policy.Independence
import Rulebook.Proofs.Policy.Iteration
import Rulebook.Proofs.Policy.Order
import Rulebook.Proofs.Policy.Requirement
import Rulebook.Proofs.Policy.Round
import Rulebook.Proofs.Policy.Schedule
import Rulebook.Proofs.Policy.Search
import Rulebook.Proofs.Text
import Rulebook.Proofs.Token.Form
import Rulebook.Proofs.Token.Lexer
import Rulebook.Proofs.Token.Spacing
import Rulebook.Proofs.Token.Tiling
import Rulebook.Proofs.Token.Writing
import Rulebook.Proofs.Value.Arithmetic
import Rulebook.Proofs.Value.Sort
import Rulebook.Proofs.Value.Whole
import Rulebook.Session
import Rulebook.Settings.Document
import Rulebook.Settings.Load
