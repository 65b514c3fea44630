import Rulebook.Proofs.Evaluator.Depth
import Rulebook.Proofs.Value.Whole

/-! Expressions of integers.

They compute what they would without bounds, and fail just where a result does not fit or a
remainder is asked of zero. The operands of an operation are worked out first, each with the width
that it comes to have, so that the operation is all that there is to compare. -/

namespace Rulebook

/-- What makes an expression one of integers: its literals, and the results that it names, are
integers, and its operations keep them integers. -/
inductive Expr.Integral (results : RuleResults) : Expr → Type where
  | literal (value : Value) (form : LiteralForm) (whole : Whole)
      (read : value.whole? = some whole) : Integral results (.literal value form)
  | name (id : String) (value : Value) (whole : Whole) (bound : results.lookup? id = some value)
      (read : value.whole? = some whole) : Integral results (.name id)
  | negated (operand : Expr) (inner : Integral results operand) :
      Integral results (.unary "-" operand)
  | joined (left : Expr) (operation : Whole.Operation) (right : Expr)
      (first : Integral results left) (second : Integral results right) :
      Integral results (.binary left operation.symbol right)

def Expr.Integral.value {results : RuleResults} :
    {expr : Expr} → expr.Integral results → Result Whole
  | _, .literal _ _ whole _ => .ok whole
  | _, .name _ _ whole _ _ => .ok whole
  | _, .negated _ inner => do
    let operand ← inner.value
    return operand.negated
  | _, .joined left operation right first second => do
    let a ← first.value
    let b ← second.value
    Evaluator.located (.binary left operation.symbol right) (operation.apply a b)

namespace Evaluator

variable {evaluator : Evaluator} {scope : Scope}

theorem decided?_symbol (operation : Whole.Operation) (value : Value) :
    decided? operation.symbol value = none := by
  cases operation <;> rfl

theorem applyUnary_standard (standard : evaluator.operators = .standard) (value : Value) :
    evaluator.applyUnary "-" value = Value.negate value := by
  have negation : OperatorSet.standard.operation? "-" .unary = some (.unary Value.negate) := rfl
  rw [applyUnary_eq, standard, negation]

theorem applyBinary_agrees (standard : evaluator.operators = .standard)
    (operation : Whole.Operation) {left right : Value} {first second : Whole}
    (readLeft : left.whole? = some first) (readRight : right.whole? = some second) :
    Agrees (evaluator.applyBinary operation.symbol left right) (operation.apply first second) := by
  rw [applyBinary_eq, standard]
  cases operation with
  | sum => exact Value.add_agrees readLeft readRight
  | difference =>
      exact Value.numeric_agrees readLeft readRight "-" (· - ·) Floating.sub Width.holds_sub
  | product =>
      exact Value.numeric_agrees readLeft readRight "*" (· * ·) Floating.mul Width.holds_mul
  | remainder => exact Value.modulo_agrees readLeft readRight

/-- Induction on what makes the expression one of integers. An operand that has a value has the one
expected, so that the operations are applied to the same numbers on both sides. -/
theorem unguarded_agrees (standard : evaluator.operators = .standard) {expr : Expr}
    (integral : expr.Integral scope.results) :
    Agrees (evaluator.unguarded scope expr) integral.value := by
  induction integral with
  | literal value form whole read => exact .value read
  | name id value whole bound read =>
      have resolved : scope.resolve id = .ok value := by rw [Scope.resolve, bound]
      rw [unguarded, resolved]
      exact .value read
  | negated operand inner ih =>
      apply ih.bind
      intro value whole read
      rw [applyUnary_standard standard]
      exact (Value.negate_agrees read).mapError
  | joined left operation right first second ihFirst ihSecond =>
      apply ihFirst.bind
      intro value whole read
      -- None of these operations leaves its right operand out.
      rw [decided?_symbol]
      apply ihSecond.bind
      intro another other readOther
      exact (applyBinary_agrees standard operation read readOther).mapError

theorem remainder_apply (left right : Whole) :
    match Whole.Operation.remainder.apply left right with
    | .ok rest => IsRemainder left.number right.number rest.number
    | .error _ => right.number = 0 := by
  by_cases zero : right.number = 0
  · simp only [Whole.Operation.apply, if_pos zero]
    exact zero
  · simp only [Whole.Operation.apply, if_neg zero]
    exact isRemainder_tmod left.number zero

/-- An expression of integers has the value that it has without bounds, in the width that this has,
or fails as this does: where a sum, difference or product with a wide operand does not fit, and
where a remainder is asked of zero. -/
theorem integers_exact (limit : Nat) (scope : Scope) {expr : Expr}
    (integral : expr.Integral scope.results) (fits : expr.height ≤ max 1 limit) :
    ((ofDepth .standard limit).evaluate scope expr).map Value.whole? =
        integral.value.map some ∧
      ∀ left right : Whole,
        match Whole.Operation.remainder.apply left right with
        | .ok rest => IsRemainder left.number right.number rest.number
        | .error _ => right.number = 0 := by
  have agrees : Agrees ((ofDepth .standard limit).unguarded scope expr) integral.value :=
    unguarded_agrees rfl integral
  rw [evaluate_eq_unguarded fits]
  exact ⟨agrees.map_eq, remainder_apply⟩

def extremes : Scope where
  results := .insert (.insert (.empty _) "low" (.int (-0x80000000))) "far"
    (.long (-0x8000000000000000))

/-- `((-low % 1000) + -far)`. -/
def folded : Expr :=
  .binary (.binary (.unary "-" (.name "low")) "%" (.literal (.int 1000) .number)) "+"
    (.unary "-" (.name "far"))

def foldedIntegral : folded.Integral extremes.results :=
  .joined _ .sum _
    (.joined _ .remainder _ (.negated _ (.name "low" _ ⟨.narrow, -0x80000000⟩ rfl rfl))
      (.literal (.int 1000) .number ⟨.narrow, 1000⟩ rfl))
    (.negated _ (.name "far" _ ⟨.wide, -0x8000000000000000⟩ rfl rfl))

theorem folded_exact :
    folded.height = 4 ∧
      ((ofDepth .standard 4).evaluate extremes folded).map Value.whole? =
        .ok (some ⟨.wide, -9223372036854775160⟩) := by
  have fits : folded.height ≤ max 1 4 := by decide
  have expected : foldedIntegral.value = .ok ⟨.wide, -9223372036854775160⟩ := by decide +kernel
  have computed := (integers_exact 4 extremes foldedIntegral fits).1
  rw [expected] at computed
  exact ⟨rfl, computed⟩

end Evaluator
end Rulebook
