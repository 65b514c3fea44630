import Rulebook.Proofs.Evaluator.Depth

namespace Rulebook

theorem Scope.resolve_bare (scope : Scope) (id : String) : BareErrors (scope.resolve id) := by
  rw [Scope.resolve]
  split
  · exact bareErrors_ok _
  · split
    · exact bareErrors_error.mpr trivial
    · split
      · exact bareErrors_ok _
      · exact bareErrors_error.mpr trivial

theorem Features.find_bare (features : Features) (path : String) :
    BareErrors (features.find path) := by
  rw [Features.find]
  cases Path.segments path >>= fun segments => Path.follow featureRoot features.data segments with
  | error fault => exact bareErrors_error.mpr trivial
  | ok found => exact bareErrors_ok _

theorem Features.value_bare (features : Features) (path : String) :
    BareErrors (features.value path) := by
  apply (features.find_bare path).bind
  intro found
  cases found with
  | none => exact bareErrors_ok _
  | some node =>
      dsimp only
      split
      · exact bareErrors_ok _
      · exact bareErrors_error.mpr trivial

namespace Evaluator

variable {evaluator : Evaluator} {scope : Scope}

theorem applyUnary_bare (bare : evaluator.operators.Bare) (symbol : String) (operand : Value) :
    BareErrors (evaluator.applyUnary symbol operand) := by
  rw [applyUnary_eq]
  split
  · rename_i run found
    exact bare.of_operation? found operand
  · exact bareErrors_error.mpr trivial

theorem applyBinary_bare (bare : evaluator.operators.Bare) (symbol : String)
    (left right : Value) : BareErrors (evaluator.applyBinary symbol left right) := by
  rw [applyBinary_eq]
  split
  · rename_i run found
    exact bare.of_operation? found left right
  · exact bareErrors_error.mpr trivial

/-- An error that an expression fails with by itself: its text is put on a bare error, and what the
expression is put together from has values. -/
structure Arises (evaluator : Evaluator) (scope : Scope) (level : Nat) (origin : Expr)
    (failure : Failure) : Prop where
  located : ∃ cause, cause.Bare ∧ failure = .evaluation origin.render cause
  operands : ∀ operand ∈ origin.operands, ∃ value,
    evaluator.evaluateAt scope (level + 1) operand = .ok value

theorem arises_of_located {level : Nat} {origin : Expr} {result : Result Value}
    {failure : Failure} (bare : BareErrors result) (fails : located origin result = .error failure)
    (operands : ∀ operand ∈ origin.operands, ∃ value,
      evaluator.evaluateAt scope (level + 1) operand = .ok value) :
    evaluator.Arises scope level origin failure := by
  obtain ⟨cause, failed, rfl⟩ := located_eq_error.mp fails
  exact ⟨⟨cause, bare cause failed, rfl⟩, operands⟩

theorem error_here_or_below (bare : evaluator.operators.Bare) {expr : Expr} {level : Nat}
    {failure : Failure} (shallow : ¬ evaluator.depth < level)
    (fails : evaluator.evaluateAt scope level expr = .error failure) :
    evaluator.Arises scope level expr failure ∨
      ∃ (frame : Expr.Frame) (operand : Expr), expr = frame.fill operand ∧
        evaluator.evaluateAt scope (level + 1) operand = .error failure := by
  cases expr with
  | literal value kind =>
      simp only [evaluateAt, if_neg shallow] at fails
      contradiction
  | name id =>
      simp only [evaluateAt, if_neg shallow] at fails
      exact .inl (arises_of_located (scope.resolve_bare id) fails (List.forall_mem_nil _))
  | feature path =>
      simp only [evaluateAt, if_neg shallow] at fails
      exact .inl (arises_of_located (scope.features.value_bare path) fails (List.forall_mem_nil _))
  | unary symbol operand =>
      simp only [evaluateAt, if_neg shallow] at fails
      rcases bind_eq_error.mp fails with failed | ⟨value, read, applied⟩
      · exact .inr ⟨.inOperand symbol, operand, rfl, failed⟩
      · refine .inl (arises_of_located (applyUnary_bare bare symbol value) applied ?_)
        intro part member
        obtain rfl := List.mem_singleton.mp member
        exact ⟨value, read⟩
  | binary left symbol right =>
      simp only [evaluateAt, if_neg shallow] at fails
      rcases bind_eq_error.mp fails with failed | ⟨first, read, further⟩
      · exact .inr ⟨.inLeft symbol right, left, rfl, failed⟩
      · split at further
        · contradiction
        · rcases bind_eq_error.mp further with failed | ⟨second, readRight, applied⟩
          · exact .inr ⟨.inRight left symbol, right, rfl, failed⟩
          · refine .inl (arises_of_located (applyBinary_bare bare symbol first second) applied ?_)
            intro part member
            rcases List.mem_pair.mp member with rfl | rfl
            · exact ⟨first, read⟩
            · exact ⟨second, readRight⟩

/-- An expression fails at the guard, which it is higher than, or with the text of one part of it and
with one bare error. What that part is put together from has values; the part by itself, and every
expression around it, fails with the very same error. -/
theorem error_names_origin (evaluator : Evaluator) (bare : evaluator.operators.Bare)
    (scope : Scope) (expr : Expr) (failure : Failure)
    (fails : evaluator.evaluate scope expr = .error failure) :
    failure = .malformed ⟨.tooDeep evaluator.depth, 0⟩ ∧ evaluator.depth < expr.height ∨
      ∃ (context : Expr.Context) (origin : Expr) (cause : Failure),
        expr = context.fill origin ∧ failure = .evaluation origin.render cause ∧ cause.Bare ∧
        (∀ operand ∈ origin.operands, ∃ value,
          evaluator.evaluateAt scope (context.length + 2) operand = .ok value) ∧
        evaluator.evaluate scope origin = .error failure ∧
        ∀ outer inner : Expr.Context, context = outer ++ inner →
          evaluator.evaluate scope (inner.fill origin) = .error failure := by
  have step : ∀ level part, evaluator.evaluateAt scope level part = .error failure →
      (failure = evaluator.depthFault ∨ evaluator.Arises scope level part failure) ∨
        ∃ (frame : Expr.Frame) (operand : Expr), part = frame.fill operand ∧
          evaluator.evaluateAt scope (level + 1) operand = .error failure := by
    intro level part failed
    by_cases deep : evaluator.depth < level
    · rw [evaluateAt_deep deep] at failed
      exact .inl (.inl (Except.error.inj failed).symm)
    · exact (error_here_or_below bare deep failed).imp_left .inr
  obtain ⟨context, origin, rfl, guarded | arises, along⟩ := Expr.Context.exists_along step fails
  · -- A tree that fits under the guard has no such error, as all of its errors name an expression.
    refine .inl ⟨guarded, Nat.lt_of_not_le fun low => ?_⟩
    have fits : 1 + (context.fill origin).height ≤ evaluator.depth + 1 := by omega
    rw [evaluate, evaluateAt_eq_unguarded fits] at fails
    obtain ⟨text, cause, rfl⟩ := unguarded_error fails
    cases guarded
  · obtain ⟨cause, bare_cause, rfl⟩ := arises.located
    -- What fails with a located error does not meet the guard, so it fails the same by itself.
    have alone : ∀ outer inner : Expr.Context, context = outer ++ inner →
        evaluator.evaluate scope (inner.fill origin) =
          .error (.evaluation origin.render cause) := by
      intro outer inner split
      have inside := along outer inner split
      have free : evaluator.evaluateAt scope (1 + outer.length) (inner.fill origin) ≠
          .error evaluator.depthFault := by
        rw [inside]
        nofun
      calc evaluator.evaluate scope (inner.fill origin)
        _ = evaluator.evaluateAt scope (1 + outer.length) (inner.fill origin) :=
          evaluateAt_of_le (Nat.le_add_right 1 outer.length) free
        _ = .error (.evaluation origin.render cause) := inside
    refine .inr ⟨context, origin, cause, rfl, rfl, bare_cause, ?_, ?_, alone⟩
    · intro operand member
      have read := arises.operands operand member
      rwa [Nat.add_right_comm, Nat.add_comm 2] at read
    · exact alone context [] (List.append_nil context).symm

def zeroQuotient : Expr :=
  .binary (.literal (.int 1) .number) "+" (.binary (.literal (.int 2) .number) "*"
    (.binary (.literal (.int 3) .number) "/" (.literal (.int 0) .number)))

/-- The error names the quotient alone, and neither the product nor the sum. -/
theorem zeroQuotient_names_quotient :
    OperatorSet.standard.Bare ∧ ∃ failure,
      failure = .evaluation "(3 / 0)" (.arithmetic "/" .zeroDivisor) ∧
      (ofOperators .standard).evaluate {} zeroQuotient = .error failure ∧
      ∃ (context : Expr.Context) (origin : Expr) (cause : Failure),
        zeroQuotient = context.fill origin ∧ failure = .evaluation origin.render cause ∧
        cause.Bare ∧
        (∀ operand ∈ origin.operands, ∃ value,
          (ofOperators .standard).evaluateAt {} (context.length + 2) operand = .ok value) ∧
        (ofOperators .standard).evaluate {} origin = .error failure ∧
        ∀ outer inner : Expr.Context, context = outer ++ inner →
          (ofOperators .standard).evaluate {} (inner.fill origin) = .error failure := by
  have fails : (ofOperators .standard).evaluate {} zeroQuotient =
      .error (.evaluation "(3 / 0)" (.arithmetic "/" .zeroDivisor)) := by
    decide +kernel
  rcases error_names_origin (ofOperators .standard) OperatorSet.standard_bare {} zeroQuotient
    _ fails with ⟨guarded, -⟩ | arises
  · cases guarded
  · exact ⟨OperatorSet.standard_bare, _, rfl, fails, arises⟩

end Evaluator
end Rulebook
