import Rulebook.Proofs.Evaluator.Strict

namespace Rulebook

namespace Expr

def substitute (expr : Expr) (id : String) (part : Expr) : Expr :=
  match expr with
  | .literal value kind => .literal value kind
  | .name other => if other = id then part else .name other
  | .feature path => .feature path
  | .unary operator operand => .unary operator (operand.substitute id part)
  | .binary left operator right =>
    .binary (left.substitute id part) operator (right.substitute id part)

theorem height_le_substitute (expr : Expr) (id : String) (part : Expr) :
    expr.height ≤ (expr.substitute id part).height := by
  induction expr with
  | literal value kind | feature path => exact Nat.le_refl _
  | name other =>
      rw [substitute]
      split
      · exact part.height_pos
      · exact Nat.le_refl _
  | unary operator operand ih => exact Nat.succ_le_succ ih
  | binary left operator right ihLeft ihRight =>
      simp only [substitute, height]
      omega

end Expr

theorem SameButText.same_root {one other : Result Value} (same : SameButText one other) :
    (∃ value, one = .ok value ∧ other = .ok value) ∨
      ∃ failure otherFailure, one = .error failure ∧ other = .error otherFailure ∧
        failure.root = otherFailure.root := by
  cases same with
  | same =>
      cases one with
      | error failure => exact .inr ⟨failure, failure, rfl, rfl, rfl⟩
      | ok value => exact .inl ⟨value, rfl, rfl⟩
  | text cause one other => exact .inr ⟨_, _, rfl, rfl, rfl⟩

def Scope.withResult (scope : Scope) (id : String) (value : Value) : Scope :=
  { scope with results := scope.results.insert id value }

theorem Scope.resolve_withResult (scope : Scope) (id : String) (value : Value) (other : String) :
    (scope.withResult id value).resolve other =
      if id = other then .ok value else scope.resolve other := by
  rw [resolve, withResult, Directory.lookup?_insert]
  by_cases same : id = other
  · rw [if_pos same, if_pos same]
  · rw [if_neg same, if_neg same]
    rfl

namespace Evaluator

variable {evaluator : Evaluator} {scope : Scope}

theorem unguarded_of_ok {expr : Expr} {level : Nat} {value : Value}
    (read : evaluator.evaluateAt scope level expr = .ok value) :
    evaluator.unguarded scope expr = .ok value := by
  have shallow := shallow_of_ok read
  induction expr generalizing level value with
  | literal value kind | name id | feature path => rwa [evaluateAt, if_neg shallow] at read
  | unary symbol operand ih =>
      rw [evaluateAt, if_neg shallow] at read
      obtain ⟨inner, readInner, applied⟩ := bind_eq_ok.mp read
      rw [unguarded, ih readInner (shallow_of_ok readInner), ok_bind, applied]
  | binary left symbol right ihLeft ihRight =>
      rw [evaluateAt, if_neg shallow] at read
      obtain ⟨first, readLeft, further⟩ := bind_eq_ok.mp read
      rw [unguarded, ihLeft readLeft (shallow_of_ok readLeft), ok_bind]
      cases decides : decided? symbol first with
      | some result =>
          simp only [decides] at further ⊢
          exact further
      | none =>
          simp only [decides] at further ⊢
          obtain ⟨second, readRight, applied⟩ := bind_eq_ok.mp further
          rw [ihRight readRight (shallow_of_ok readRight), ok_bind, applied]

theorem unguarded_substitute {id : String} {part : Expr} {value : Value}
    (read : evaluator.unguarded scope part = .ok value) (expr : Expr) :
    SameButText (evaluator.unguarded scope (expr.substitute id part))
      (evaluator.unguarded (scope.withResult id value) expr) := by
  induction expr with
  | literal value kind | feature path => exact .same _
  | name other =>
      rw [Expr.substitute, unguarded, Scope.resolve_withResult]
      by_cases named : other = id
      · rw [if_pos named, if_pos named.symm, read]
        exact .same _
      · rw [if_neg named, if_neg (Ne.symm named), unguarded]
        exact .same _
  | unary symbol operand ih =>
      rw [Expr.substitute, unguarded, unguarded]
      exact ih.bind fun inner => located_sameButText _ _ _
  | binary left symbol right ihLeft ihRight =>
      rw [Expr.substitute, unguarded, unguarded]
      apply ihLeft.bind
      intro first
      cases decided? symbol first with
      | some result => exact .same _
      | none => exact ihRight.bind fun second => located_sameButText _ _ _

/-- Where a part has a value, an expression with the part in the place of a name gives the value
that it gives with a rule of that name and value; or both fail, with the same root. -/
theorem evaluate_substitute (evaluator : Evaluator) (scope : Scope) (id : String)
    (part expr : Expr) (value : Value)
    (fits : (expr.substitute id part).height ≤ evaluator.depth)
    (read : evaluator.evaluate scope part = .ok value) :
    (∃ result, evaluator.evaluate scope (expr.substitute id part) = .ok result ∧
      evaluator.evaluate (scope.withResult id value) expr = .ok result) ∨
    ∃ failure other, evaluator.evaluate scope (expr.substitute id part) = .error failure ∧
      evaluator.evaluate (scope.withResult id value) expr = .error other ∧
      failure.root = other.root := by
  have low : expr.height ≤ evaluator.depth :=
    Nat.le_trans (expr.height_le_substitute id part) fits
  rw [evaluate_eq_unguarded fits, evaluate_eq_unguarded low]
  exact (unguarded_substitute (unguarded_of_ok read) expr).same_root

def ratedQuotient : Expr :=
  .binary (.binary (.name "rate") ">" (.literal (.int 0) .number)) "&&"
    (.binary (.literal (.int 100) .number) "/"
      (.binary (.name "rate") "-" (.literal (.int 5) .number)))

def summedRate : Expr := .binary (.name "base") "+" (.literal (.int 3) .number)

/-- With a rate of 5 the quotient fails, whether the rate is a rule or is written out; the feature
that is called like the rule is read in neither case. -/
theorem summedRate_named :
    let evaluator := ofDepth .standard 5
    let scope : Scope := { features := ⟨.object [("base", .integer 2), ("rate", .integer 9)]⟩ }
    (ratedQuotient.substitute "rate" summedRate).height ≤ evaluator.depth ∧
      evaluator.evaluate scope summedRate = .ok (.int 5) ∧
      evaluator.evaluate scope (ratedQuotient.substitute "rate" summedRate) =
        .error (.evaluation "(100 / ((base + 3) - 5))" (.arithmetic "/" .zeroDivisor)) ∧
      evaluator.evaluate (scope.withResult "rate" (.int 5)) ratedQuotient =
        .error (.evaluation "(100 / (rate - 5))" (.arithmetic "/" .zeroDivisor)) ∧
      ((∃ result,
        evaluator.evaluate scope (ratedQuotient.substitute "rate" summedRate) = .ok result ∧
        evaluator.evaluate (scope.withResult "rate" (.int 5)) ratedQuotient = .ok result) ∨
      ∃ failure other,
        evaluator.evaluate scope (ratedQuotient.substitute "rate" summedRate) = .error failure ∧
        evaluator.evaluate (scope.withResult "rate" (.int 5)) ratedQuotient = .error other ∧
        failure.root = other.root) := by
  intro evaluator scope
  have fits : (ratedQuotient.substitute "rate" summedRate).height ≤ evaluator.depth := by decide
  have read : evaluator.evaluate scope summedRate = .ok (.int 5) := by decide +kernel
  exact ⟨fits, read, by decide +kernel, by decide +kernel,
    evaluate_substitute evaluator scope "rate" summedRate ratedQuotient (.int 5) fits read⟩

end Evaluator
end Rulebook
