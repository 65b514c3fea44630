import Rulebook.Proofs.Evaluator
import Rulebook.Proofs.Expr.Context
import Rulebook.Proofs.Expr.Recognition

/-! The guard of the depth.

The parser counts the height of a tree from the leaves up and the evaluator its levels from the root
down. What the one lets through the other does not stop, so that the guard is met by trees alone that
were not read from a text. -/

namespace Rulebook

theorem CompiledExpr.height_le {depth : Nat} {source : String} {compiled : CompiledExpr}
    (compiles : compile depth source = .ok compiled) : compiled.tree.height ≤ max 1 depth := by
  obtain ⟨tree, read, rfl⟩ := compile_eq_ok.mp compiles
  have positive : 0 < max 1 depth := Nat.lt_of_lt_of_le Nat.zero_lt_one (Nat.le_max_left 1 depth)
  obtain ⟨_, _, _, low⟩ := (Parser.run_eq_ok ⟨max 1 depth, _⟩ positive).mp read
  exact low

theorem CompiledExpr.compile_error {depth : Nat} {source : String} {failure : Failure}
    (fails : compile depth source = .error failure) : ∃ error, failure = .malformed error := by
  rw [compile] at fails
  split at fails
  · contradiction
  · exact ⟨_, (Except.error.inj fails).symm⟩

namespace Evaluator

variable {evaluator : Evaluator} {scope : Scope}

theorem located_eq_error {α : Type} {expr : Expr} {result : Result α} {failure : Failure} :
    located expr result = .error failure ↔
      ∃ cause, result = .error cause ∧ failure = cause.within expr.render := by
  cases result with
  | error cause => simp [located, Except.mapError, eq_comm]
  | ok value => simp [located, Except.mapError]

def depthFault (evaluator : Evaluator) : Failure := .malformed ⟨.tooDeep evaluator.depth, 0⟩

def unguarded (evaluator : Evaluator) (scope : Scope) (expr : Expr) : Result Value :=
  match expr with
  | .literal value _ => .ok value
  | .name id => located expr (scope.resolve id)
  | .feature path => located expr (scope.features.value path)
  | .unary symbol operand => do
    let value ← evaluator.unguarded scope operand
    located expr (evaluator.applyUnary symbol value)
  | .binary left symbol right => do
    let first ← evaluator.unguarded scope left
    match decided? symbol first with
    | some value => return value
    | none =>
      let second ← evaluator.unguarded scope right
      located expr (evaluator.applyBinary symbol first second)
  termination_by structural expr

theorem evaluateAt_eq_unguarded {expr : Expr} {level : Nat}
    (fits : level + expr.height ≤ evaluator.depth + 1) :
    evaluator.evaluateAt scope level expr = evaluator.unguarded scope expr := by
  have shallow : ¬ evaluator.depth < level := by
    have := expr.height_pos
    omega
  induction expr generalizing level with
  | literal value kind | name id | feature path =>
      rw [evaluateAt, if_neg shallow]
      rfl
  | unary symbol operand ih =>
      simp only [Expr.height] at fits
      have inner : evaluator.evaluateAt scope (level + 1) operand =
          evaluator.unguarded scope operand := by
        have := operand.height_pos
        exact ih (by omega) (by omega)
      rw [evaluateAt, if_neg shallow, inner]
      rfl
  | binary left symbol right ihLeft ihRight =>
      simp only [Expr.height] at fits
      have first : evaluator.evaluateAt scope (level + 1) left =
          evaluator.unguarded scope left := by
        have := left.height_pos
        exact ihLeft (by omega) (by omega)
      have second : evaluator.evaluateAt scope (level + 1) right =
          evaluator.unguarded scope right := by
        have := right.height_pos
        exact ihRight (by omega) (by omega)
      rw [evaluateAt, if_neg shallow, first, second]
      rfl

theorem evaluate_eq_unguarded {expr : Expr} (fits : expr.height ≤ evaluator.depth) :
    evaluator.evaluate scope expr = evaluator.unguarded scope expr := by
  apply evaluateAt_eq_unguarded
  rw [Nat.add_comm]
  exact Nat.succ_le_succ fits

theorem evaluateAt_deep {expr : Expr} {level : Nat} (deep : evaluator.depth < level) :
    evaluator.evaluateAt scope level expr = .error evaluator.depthFault := by
  cases expr <;> exact if_pos deep

theorem not_deep {expr : Expr} {level : Nat}
    (free : evaluator.evaluateAt scope level expr ≠ .error evaluator.depthFault) :
    ¬ evaluator.depth < level :=
  fun deep => free (evaluateAt_deep deep)

theorem evaluateAt_of_le {expr : Expr} {level lesser : Nat} (above : lesser ≤ level)
    (free : evaluator.evaluateAt scope level expr ≠ .error evaluator.depthFault) :
    evaluator.evaluateAt scope lesser expr = evaluator.evaluateAt scope level expr := by
  induction expr generalizing level lesser with
  | literal value kind | name id | feature path =>
      have shallow := not_deep free
      have shallower : ¬ evaluator.depth < lesser := by omega
      simp only [evaluateAt, if_neg shallow, if_neg shallower]
  | unary symbol operand ih =>
      have shallow := not_deep free
      have shallower : ¬ evaluator.depth < lesser := by omega
      simp only [evaluateAt, if_neg shallow, if_neg shallower] at free ⊢
      have inner : evaluator.evaluateAt scope (lesser + 1) operand =
          evaluator.evaluateAt scope (level + 1) operand := by
        apply ih (Nat.succ_le_succ above)
        intro fault
        rw [fault] at free
        contradiction
      rw [inner]
  | binary left symbol right ihLeft ihRight =>
      have shallow := not_deep free
      have shallower : ¬ evaluator.depth < lesser := by omega
      simp only [evaluateAt, if_neg shallow, if_neg shallower] at free ⊢
      have first : evaluator.evaluateAt scope (lesser + 1) left =
          evaluator.evaluateAt scope (level + 1) left := by
        apply ihLeft (Nat.succ_le_succ above)
        intro fault
        rw [fault] at free
        contradiction
      rw [first]
      cases read : evaluator.evaluateAt scope (level + 1) left with
      | error failure => rfl
      | ok value =>
          simp only [read, ok_bind] at free ⊢
          cases decides : decided? symbol value with
          | some result => rfl
          | none =>
              -- Only here the right side is evaluated, and so is known not to meet the guard.
              simp only [decides] at free ⊢
              have second : evaluator.evaluateAt scope (lesser + 1) right =
                  evaluator.evaluateAt scope (level + 1) right := by
                apply ihRight (Nat.succ_le_succ above)
                intro fault
                rw [fault] at free
                contradiction
              rw [second]

/-- What an expression fails with: the error of a name or a path that stands in it, or of an
operator. -/
inductive Cause (evaluator : Evaluator) (scope : Scope) (expr : Expr) (cause : Failure) : Prop where
  | name {id : String} (member : id ∈ expr.names) (fails : scope.resolve id = .error cause)
  | path {path : String} (member : path ∈ expr.paths)
      (fails : scope.features.value path = .error cause)
  | unary {symbol : String} {operand : Value}
      (fails : evaluator.applyUnary symbol operand = .error cause)
  | binary {symbol : String} {left right : Value}
      (fails : evaluator.applyBinary symbol left right = .error cause)

theorem Cause.mono {part expr : Expr} {cause : Failure}
    (of_part : evaluator.Cause scope part cause) (names : part.names ⊆ expr.names)
    (paths : part.paths ⊆ expr.paths) : evaluator.Cause scope expr cause := by
  cases of_part with
  | name member fails => exact .name (names member) fails
  | path member fails => exact .path (paths member) fails
  | unary fails => exact .unary fails
  | binary fails => exact .binary fails

/-- Without a guard every error names an expression, and has its cause in what stands there. -/
theorem unguarded_cause {expr : Expr} {failure : Failure}
    (fails : evaluator.unguarded scope expr = .error failure) :
    ∃ text cause, failure = .evaluation text cause ∧ evaluator.Cause scope expr cause := by
  induction expr generalizing failure with
  | literal value kind => contradiction
  | name id =>
      obtain ⟨cause, failed, rfl⟩ := located_eq_error.mp fails
      exact ⟨_, cause, rfl, .name List.mem_cons_self failed⟩
  | feature path =>
      obtain ⟨cause, failed, rfl⟩ := located_eq_error.mp fails
      exact ⟨_, cause, rfl, .path List.mem_cons_self failed⟩
  | unary symbol operand ih =>
      rcases bind_eq_error.mp fails with failed | ⟨value, -, applied⟩
      · obtain ⟨text, cause, same, inner⟩ := ih failed
        exact ⟨text, cause, same, inner.mono (fun _ => id) fun _ => id⟩
      · obtain ⟨cause, failed, rfl⟩ := located_eq_error.mp applied
        exact ⟨_, cause, rfl, .unary failed⟩
  | binary left symbol right ihLeft ihRight =>
      rcases bind_eq_error.mp fails with failed | ⟨first, -, further⟩
      · obtain ⟨text, cause, same, inner⟩ := ihLeft failed
        exact ⟨text, cause, same,
          inner.mono (List.subset_append_left _ _) (List.subset_append_left _ _)⟩
      · split at further
        · contradiction
        · rcases bind_eq_error.mp further with failed | ⟨second, -, applied⟩
          · obtain ⟨text, cause, same, inner⟩ := ihRight failed
            exact ⟨text, cause, same,
              inner.mono (List.subset_append_right _ _) (List.subset_append_right _ _)⟩
          · obtain ⟨cause, failed, rfl⟩ := located_eq_error.mp applied
            exact ⟨_, cause, rfl, .binary failed⟩

theorem unguarded_error {expr : Expr} {failure : Failure}
    (fails : evaluator.unguarded scope expr = .error failure) :
    ∃ text cause, failure = .evaluation text cause := by
  obtain ⟨text, cause, same, -⟩ := unguarded_cause fails
  exact ⟨text, cause, same⟩

theorem compile_ofDepth (operators : OperatorSet) (limit : Nat) (source : String) :
    (ofDepth operators limit).compile source = CompiledExpr.compile limit source := by
  simp only [compile, ofDepth, CompiledExpr.compile, Expr.ofTokens]
  rw [Nat.max_eq_right (Nat.le_max_left 1 limit)]

theorem evaluate_of_compile {operators : OperatorSet} {limit : Nat} {source : String}
    {compiled : CompiledExpr} (compiles : CompiledExpr.compile limit source = .ok compiled) :
    (ofDepth operators limit).evaluate scope compiled.tree =
      (ofDepth operators limit).unguarded scope compiled.tree := by
  have low : compiled.tree.height ≤ max 1 limit := CompiledExpr.height_le compiles
  exact evaluate_eq_unguarded low

theorem evaluateText_of_compile {source : String} {compiled : CompiledExpr}
    (compiles : evaluator.compile source = .ok compiled) :
    evaluator.evaluateText scope source = evaluator.evaluate scope compiled.tree := by
  rw [evaluateText, compiles, ok_bind]

/-- Where a text is read within a limit, no part of its tree stands too deep for an evaluator of the
same limit, which gives what it would give without a guard. So a syntax error that names no
expression is the parser's, and every error of the parser is one. -/
theorem depth_guards_agree (operators : OperatorSet) (limit : Nat) (scope : Scope)
    (source : String) :
    let evaluator := ofDepth operators limit
    (∀ compiled, CompiledExpr.compile limit source = .ok compiled →
      (∀ context inner, compiled.tree = Expr.Context.fill context inner →
        context.length + 1 ≤ evaluator.depth) ∧
      evaluator.evaluate scope compiled.tree = evaluator.unguarded scope compiled.tree ∧
      evaluator.evaluateText scope source = evaluator.unguarded scope compiled.tree) ∧
    ∀ failure, CompiledExpr.compile limit source = .error failure ↔
      (∃ error, failure = .malformed error) ∧
        evaluator.evaluateText scope source = .error failure := by
  intro evaluator
  have same_compiler := compile_ofDepth operators limit source
  constructor
  · intro compiled compiles
    have unchanged : evaluator.evaluate scope compiled.tree =
        evaluator.unguarded scope compiled.tree := evaluate_of_compile compiles
    refine ⟨?_, unchanged, ?_⟩
    · intro context inner whole
      calc context.length + 1
        _ ≤ context.length + inner.height := Nat.add_le_add_left inner.height_pos _
        _ ≤ (context.fill inner).height := context.length_add_height_le inner
        _ = compiled.tree.height := by rw [whole]
        _ ≤ evaluator.depth := CompiledExpr.height_le compiles
    · rw [evaluateText_of_compile (same_compiler.trans compiles), unchanged]
  · intro failure
    cases compiles : CompiledExpr.compile limit source with
    | error refused =>
        have passed : evaluator.evaluateText scope source = .error refused := by
          rw [evaluateText, same_compiler, compiles, error_bind]
        rw [passed]
        constructor
        · intro same
          obtain rfl := Except.error.inj same
          exact ⟨CompiledExpr.compile_error compiles, rfl⟩
        · rintro ⟨-, same⟩
          rw [Except.error.inj same]
    | ok compiled =>
        rw [evaluateText_of_compile (same_compiler.trans compiles), evaluate_of_compile compiles]
        constructor
        · intro same
          contradiction
        · rintro ⟨⟨error, rfl⟩, fails⟩
          obtain ⟨text, cause, same⟩ := unguarded_error fails
          contradiction

end Evaluator
end Rulebook
