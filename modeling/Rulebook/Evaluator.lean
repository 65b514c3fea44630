import Rulebook.Expr.Parser
import Rulebook.Features
import Rulebook.Operator.Set

/-!
Evaluating expressions.

An expression reads results of rules and feature data. `&&` and `||` leave their right side out
where the left one decides. An error names the expression that it arose in, once.
-/

namespace Rulebook

abbrev RuleResults := Directory Value

structure Scope where
  features : Features := .empty
  results : RuleResults := Roster.empty _

namespace Scope

/-- The value of a name: the result of that rule, or else the feature at the top level. -/
def resolve (scope : Scope) (name : String) : Result Value :=
  match scope.results.lookup? name with
  | some value => .ok value
  | none =>
    match scope.features.get? name with
    | none => .error (.unknownName name)
    | some node =>
      match Value.ofJson? node with
      | some value => .ok value
      | none => .error (.invalidPath name .namedContainer)

end Scope

structure Evaluator where
  operators : OperatorSet
  depth : Nat
  depth_pos : 0 < depth

namespace Evaluator

/-- An evaluator whose expressions nest no deeper than `depth`, which counts as at least 1. -/
def ofDepth (operators : OperatorSet) (depth : Nat) : Evaluator :=
  ⟨operators, max 1 depth, Nat.lt_of_lt_of_le Nat.zero_lt_one (Nat.le_max_left 1 depth)⟩

def ofOperators (operators : OperatorSet) : Evaluator := ofDepth operators Expr.defaultDepth

instance : Inhabited Evaluator := ⟨ofOperators .standard⟩

/-- What the left side of an operation decides by itself. -/
def decided? : String → Value → Option Value
  | "&&", .boolean false => some (.boolean false)
  | "||", .boolean true => some (.boolean true)
  | _, _ => none

def applyUnary (evaluator : Evaluator) (symbol : String) (operand : Value) : Result Value := do
  (← evaluator.operators.lookup symbol .unary).applyUnary operand

def applyBinary (evaluator : Evaluator) (symbol : String) (left right : Value) : Result Value := do
  (← evaluator.operators.lookup symbol .binary).applyBinary left right

def located {α : Type} (expr : Expr) (result : Result α) : Result α :=
  result.mapError fun error => error.within expr.render

/-- Evaluates a tree that stands `level` deep in a larger one. -/
def evaluateAt (evaluator : Evaluator) (scope : Scope) (level : Nat) (expr : Expr) : Result Value :=
  if evaluator.depth < level then .error (.malformed ⟨.tooDeep evaluator.depth, 0⟩)
  else
    match expr with
    | .literal value _ => .ok value
    | .name id => located expr (scope.resolve id)
    | .feature path => located expr (scope.features.value path)
    | .unary symbol operand => do
      let value ← evaluator.evaluateAt scope (level + 1) operand
      located expr (evaluator.applyUnary symbol value)
    | .binary left symbol right => do
      let first ← evaluator.evaluateAt scope (level + 1) left
      match decided? symbol first with
      | some value => return value
      | none =>
        let second ← evaluator.evaluateAt scope (level + 1) right
        located expr (evaluator.applyBinary symbol first second)
  termination_by structural expr

def evaluate (evaluator : Evaluator) (scope : Scope) (expr : Expr) : Result Value :=
  evaluator.evaluateAt scope 1 expr

def compile (evaluator : Evaluator) (source : String) : Result CompiledExpr :=
  CompiledExpr.compile evaluator.depth source

def evaluateText (evaluator : Evaluator) (scope : Scope) (source : String) : Result Value := do
  evaluator.evaluate scope (← evaluator.compile source).tree

end Evaluator
end Rulebook
