import Rulebook.Proofs.Evaluator.Depth
import Rulebook.Proofs.Evaluator.Sort
import Rulebook.Proofs.Expr.Context
import Rulebook.Proofs.Json.Finite

namespace Rulebook.Evaluator

variable {evaluator : Evaluator} {scope : Scope} {expr : Expr}

structure Bounded (scope : Scope) : Prop where
  names : ∀ id value, scope.resolve id = .ok value → value.Finite
  paths : ∀ path value, scope.features.value path = .ok value → value.Finite

/-- A part of an expression that is not finite, whereas its operands are. -/
inductive Source (evaluator : Evaluator) (scope : Scope) : Expr → Prop where
  | literal {value : Value} {kind : LiteralForm} (unbounded : ¬ value.Finite) :
      Source evaluator scope (.literal value kind)
  | operation {left right : Expr} {symbol : String} {first second value : Value}
      (unchecked : (symbol, Arity.binary) ∈ Operator.unchecked)
      (left_value : evaluator.unguarded scope left = .ok first)
      (right_value : evaluator.unguarded scope right = .ok second)
      (first_bounded : first.Finite) (second_bounded : second.Finite)
      (applied : evaluator.applyBinary symbol first second = .ok value)
      (unbounded : ¬ value.Finite) : Source evaluator scope (.binary left symbol right)

def Unbounded (evaluator : Evaluator) (scope : Scope) (expr : Expr) : Prop :=
  ∃ value, evaluator.unguarded scope expr = .ok value ∧ ¬ value.Finite

theorem finite_of_boolean {value : Value} (boolean : value.sort = .boolean) : value.Finite := by
  obtain ⟨flag, rfl⟩ := Value.exists_boolean boolean
  trivial

theorem located_eq_ok {result : Result Value} {value : Value} :
    located expr result = .ok value ↔ result = .ok value := by
  rw [located, mapError_eq_ok]

theorem applyBinary_finite (standard : evaluator.operators = .standard) {symbol : String}
    (checked : (symbol, Arity.binary) ∉ Operator.unchecked) {left right value : Value}
    (applied : evaluator.applyBinary symbol left right = .ok value) : value.Finite := by
  rw [applyBinary_eq, standard] at applied
  split at applied
  · rename_i run found
    exact OperatorSet.standard_bounded found checked left right value applied
  · contradiction

theorem applyUnary_finite (standard : evaluator.operators = .standard) {symbol : String}
    {operand value : Value} (finite : operand.Finite)
    (applied : evaluator.applyUnary symbol operand = .ok value) : value.Finite := by
  rw [applyUnary_eq, standard] at applied
  split at applied
  · rename_i run found
    have checked : (symbol, Arity.unary) ∉ Operator.unchecked := by simp [Operator.unchecked]
    exact OperatorSet.standard_bounded found checked operand value applied finite
  · contradiction

theorem source_or_operand (standard : evaluator.operators = .standard) (bounded : Bounded scope)
    (unbounded : evaluator.Unbounded scope expr) :
    evaluator.Source scope expr ∨ ∃ (frame : Expr.Frame) (operand : Expr),
      expr = frame.fill operand ∧ evaluator.Unbounded scope operand := by
  obtain ⟨value, evaluated, infinite⟩ := unbounded
  cases expr with
  | literal held kind =>
      obtain rfl := Except.ok.inj evaluated
      exact .inl (.literal infinite)
  | name id => exact absurd (bounded.names id value (located_eq_ok.mp evaluated)) infinite
  | feature path => exact absurd (bounded.paths path value (located_eq_ok.mp evaluated)) infinite
  | unary symbol operand =>
      obtain ⟨inner, inner_value, applied⟩ := bind_eq_ok.mp evaluated
      refine .inr ⟨.inOperand symbol, operand, rfl, inner, inner_value, ?_⟩
      intro finite
      exact infinite (applyUnary_finite standard finite (located_eq_ok.mp applied))
  | binary left symbol right =>
      obtain ⟨first, first_value, further⟩ := bind_eq_ok.mp evaluated
      split at further
      · rename_i decided decides
        obtain rfl := Except.ok.inj further
        exact absurd (finite_of_boolean (boolean_of_decided? decides)) infinite
      · obtain ⟨second, second_value, applied⟩ := bind_eq_ok.mp further
        have applied := located_eq_ok.mp applied
        by_cases first_bounded : first.Finite
        · by_cases second_bounded : second.Finite
          · by_cases unchecked : (symbol, Arity.binary) ∈ Operator.unchecked
            · exact .inl (.operation unchecked first_value second_value first_bounded
                second_bounded applied infinite)
            · exact absurd (applyBinary_finite standard unchecked applied) infinite
          · exact .inr ⟨.inRight left symbol, right, rfl, second, second_value, second_bounded⟩
        · exact .inr ⟨.inLeft symbol right, left, rfl, first, first_value, first_bounded⟩

/-- From an expression that is not finite there is a way down to a source. -/
theorem exists_source (standard : evaluator.operators = .standard) (bounded : Bounded scope)
    (unbounded : evaluator.Unbounded scope expr) :
    ∃ (context : Expr.Context) (part : Expr), expr = context.fill part ∧
      evaluator.Source scope part := by
  obtain ⟨context, part, filled, source, -⟩ :=
    @Expr.Context.exists_along (fun _ => evaluator.Unbounded scope) 1 expr
      (fun _ => evaluator.Source scope) (fun _ _ => source_or_operand standard bounded) unbounded
  exact ⟨context, part, filled, source⟩

end Rulebook.Evaluator
