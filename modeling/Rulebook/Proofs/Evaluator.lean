import Rulebook.Evaluator
import Rulebook.Proofs.Operator

namespace Rulebook

def Expr.operators : Expr → List (String × Arity)
  | .literal .. | .name _ | .feature _ => []
  | .unary symbol operand => (symbol, .unary) :: operand.operators
  | .binary left symbol right => (symbol, .binary) :: (left.operators ++ right.operators)

namespace CompiledExpr

theorem compile_eq_ok {depth : Nat} {source : String} {compiled : CompiledExpr} :
    compile depth source = .ok compiled ↔
      ∃ tree, Expr.ofTokens depth (Token.scan source) = .ok tree ∧
        compiled = ofTree source tree := by
  rw [compile]
  cases Expr.ofTokens depth (Token.scan source) with
  | error error => simp
  | ok tree => simp [eq_comm]

theorem mem_names {depth : Nat} {source : String} {compiled : CompiledExpr}
    (compiles : compile depth source = .ok compiled) {id : String} :
    id ∈ compiled.names ↔ id ∈ compiled.tree.names := by
  rcases compile_eq_ok.mp compiles with ⟨tree, -, rfl⟩
  exact mem_sortedNames

theorem mem_paths {depth : Nat} {source : String} {compiled : CompiledExpr}
    (compiles : compile depth source = .ok compiled) {path : String} :
    path ∈ compiled.paths ↔ path ∈ compiled.tree.paths := by
  rcases compile_eq_ok.mp compiles with ⟨tree, -, rfl⟩
  exact mem_sortedNames

end CompiledExpr

namespace Scope

structure Agree (scope other : Scope) (names paths : List String) : Prop where
  names : ∀ id ∈ names, scope.resolve id = other.resolve id
  paths : ∀ path ∈ paths, scope.features.value path = other.features.value path

theorem Agree.mono {scope other : Scope} {names paths fewerNames fewerPaths : List String}
    (agree : scope.Agree other names paths) (fewer : fewerNames ⊆ names)
    (fewer_paths : fewerPaths ⊆ paths) : scope.Agree other fewerNames fewerPaths where
  names := fun id member => agree.names id (fewer member)
  paths := fun path member => agree.paths path (fewer_paths member)

theorem resolve_congr {features : Features} {results others : RuleResults} {id : String}
    (same : results.lookup? id = others.lookup? id) :
    resolve ⟨features, results⟩ id = resolve ⟨features, others⟩ id := by
  rw [resolve, resolve, same]

theorem resolve_eq_ok {features : Features} {results : RuleResults} {id : String} {value : Value}
    (absent : results.lookup? id = none) :
    resolve ⟨features, results⟩ id = .ok value ↔
      ∃ node, features.get? id = some node ∧ Value.ofJson? node = some value := by
  simp only [resolve, absent]
  cases features.get? id with
  | none => simp
  | some node =>
      simp only [Option.some.injEq, exists_eq_left']
      cases Value.ofJson? node with
      | none => simp
      | some scalar => simp

theorem resolve_eq_unknown {features : Features} {results : RuleResults} {id : String}
    (absent : results.lookup? id = none) :
    resolve ⟨features, results⟩ id = .error (.unknownName id) ↔ features.get? id = none := by
  simp only [resolve, absent]
  cases features.get? id with
  | none => simp
  | some node =>
      simp only [reduceCtorEq, iff_false]
      cases Value.ofJson? node with
      | none => simp
      | some scalar => simp

end Scope

namespace Evaluator

variable {evaluator : Evaluator} {scope : Scope}

theorem applyUnary_eq (evaluator : Evaluator) (symbol : String) (operand : Value) :
    evaluator.applyUnary symbol operand =
      match evaluator.operators.operation? symbol .unary with
      | some (.unary run) => run operand
      | _ => .error (.unsupportedOperator symbol Arity.unary.name) := by
  rw [applyUnary, OperatorSet.lookup, OperatorSet.operation?]
  cases found : evaluator.operators.lookup? symbol .unary with
  | none => rfl
  | some operator =>
      obtain ⟨rfl, -⟩ := OperatorSet.key_of_lookup? found
      simp only [ok_bind, Operator.applyUnary, Option.map_some]
      cases operator.operation <;> rfl

theorem applyBinary_eq (evaluator : Evaluator) (symbol : String) (left right : Value) :
    evaluator.applyBinary symbol left right =
      match evaluator.operators.operation? symbol .binary with
      | some (.binary run) => run left right
      | _ => .error (.unsupportedOperator symbol Arity.binary.name) := by
  rw [applyBinary, OperatorSet.lookup, OperatorSet.operation?]
  cases found : evaluator.operators.lookup? symbol .binary with
  | none => rfl
  | some operator =>
      obtain ⟨rfl, -⟩ := OperatorSet.key_of_lookup? found
      simp only [ok_bind, Operator.applyBinary, Option.map_some]
      cases operator.operation <;> rfl

structure Agree (evaluator other : Evaluator) (keys : List (String × Arity)) : Prop where
  depth : evaluator.depth = other.depth
  operators : ∀ key ∈ keys,
    evaluator.operators.operation? key.1 key.2 = other.operators.operation? key.1 key.2

theorem Agree.refl (evaluator : Evaluator) (keys : List (String × Arity)) :
    evaluator.Agree evaluator keys :=
  ⟨rfl, fun _ _ => rfl⟩

theorem Agree.mono {other : Evaluator} {keys fewer : List (String × Arity)}
    (agree : evaluator.Agree other keys) (included : fewer ⊆ keys) :
    evaluator.Agree other fewer :=
  ⟨agree.depth, fun key member => agree.operators key (included member)⟩

/-- Evaluators and scopes that agree on what an expression mentions give it the same value or the
same error. -/
theorem evaluateAt_congr {other : Evaluator} {elsewhere : Scope} {expr : Expr} {level : Nat}
    (operators : evaluator.Agree other expr.operators)
    (agree : scope.Agree elsewhere expr.names expr.paths) :
    evaluator.evaluateAt scope level expr = other.evaluateAt elsewhere level expr := by
  induction expr generalizing level with
  | literal value kind =>
      simp only [evaluateAt]
      rw [operators.depth]
  | name id =>
      simp only [evaluateAt]
      rw [operators.depth, agree.names id List.mem_cons_self]
  | feature path =>
      simp only [evaluateAt]
      rw [operators.depth, agree.paths path List.mem_cons_self]
  | unary symbol operand ih =>
      have inside : evaluator.Agree other operand.operators :=
        operators.mono (List.subset_cons_self _ _)
      simp only [evaluateAt, applyUnary_eq]
      rw [operators.depth, ih inside agree, operators.operators _ List.mem_cons_self]
  | binary left symbol right ihLeft ihRight =>
      have agreeLeft : scope.Agree elsewhere left.names left.paths :=
        agree.mono (List.subset_append_left _ _) (List.subset_append_left _ _)
      have agreeRight : scope.Agree elsewhere right.names right.paths :=
        agree.mono (List.subset_append_right _ _) (List.subset_append_right _ _)
      have insideLeft : evaluator.Agree other left.operators :=
        operators.mono (List.subset_cons_of_subset _ (List.subset_append_left _ _))
      have insideRight : evaluator.Agree other right.operators :=
        operators.mono (List.subset_cons_of_subset _ (List.subset_append_right _ _))
      simp only [evaluateAt, applyBinary_eq]
      rw [operators.depth, ihLeft insideLeft agreeLeft, ihRight insideRight agreeRight,
        operators.operators _ List.mem_cons_self]

theorem evaluate_congr {other : Evaluator} {elsewhere : Scope} {depth : Nat} {source : String}
    {compiled : CompiledExpr} (compiles : CompiledExpr.compile depth source = .ok compiled)
    (operators : evaluator.Agree other compiled.tree.operators)
    (agree : scope.Agree elsewhere compiled.names compiled.paths) :
    evaluator.evaluate scope compiled.tree = other.evaluate elsewhere compiled.tree := by
  apply evaluateAt_congr operators
  apply agree.mono
  · intro id member
    exact (CompiledExpr.mem_names compiles).mpr member
  · intro path member
    exact (CompiledExpr.mem_paths compiles).mpr member

theorem evaluateText_congr {other : Scope} {source : String}
    (agree : ∀ compiled, evaluator.compile source = .ok compiled →
      scope.Agree other compiled.names compiled.paths) :
    evaluator.evaluateText scope source = evaluator.evaluateText other source := by
  rw [evaluateText, evaluateText]
  cases compiles : evaluator.compile source with
  | error failure => rfl
  | ok compiled => exact evaluate_congr compiles (.refl evaluator _) (agree compiled compiles)

/-- Evaluating a tree that stands `level` deep comes to the name `id`. The right side of an
operation is come to where its left side has a value and does not decide. -/
inductive Reaches (evaluator : Evaluator) (scope : Scope) (id : String) : Nat → Expr → Prop where
  | name {level : Nat} (allowed : level ≤ evaluator.depth) :
      Reaches evaluator scope id level (.name id)
  | operand {level : Nat} {symbol : String} {operand : Expr}
      (inner : Reaches evaluator scope id (level + 1) operand) :
      Reaches evaluator scope id level (.unary symbol operand)
  | left {level : Nat} {left right : Expr} {symbol : String}
      (inner : Reaches evaluator scope id (level + 1) left) :
      Reaches evaluator scope id level (.binary left symbol right)
  | right {level : Nat} {left right : Expr} {symbol : String} {value : Value}
      (first : evaluator.evaluateAt scope (level + 1) left = .ok value)
      (undecided : decided? symbol value = none)
      (inner : Reaches evaluator scope id (level + 1) right) :
      Reaches evaluator scope id level (.binary left symbol right)

theorem Reaches.level_le {id : String} {level : Nat} {expr : Expr}
    (reaches : evaluator.Reaches scope id level expr) : level ≤ evaluator.depth := by
  induction reaches with
  | name allowed => exact allowed
  | operand _ ih | left _ ih | right _ _ _ ih => exact Nat.le_of_succ_le ih

/-- A name without a value fails the whole evaluation that comes to it, and is what the error
names. -/
theorem Reaches.evaluateAt_error {id : String} {level : Nat} {expr : Expr} {failure : Failure}
    (reaches : evaluator.Reaches scope id level expr) (fails : scope.resolve id = .error failure) :
    evaluator.evaluateAt scope level expr = .error (failure.within id) := by
  have shallow := Nat.not_lt.mpr reaches.level_le
  induction reaches with
  | name =>
      rw [evaluateAt, if_neg shallow, fails]
      rfl
  | operand inner ih =>
      rw [evaluateAt, if_neg shallow, ih (Nat.not_lt.mpr inner.level_le), error_bind]
  | left inner ih =>
      rw [evaluateAt, if_neg shallow, ih (Nat.not_lt.mpr inner.level_le), error_bind]
  | right first undecided inner ih =>
      rw [evaluateAt, if_neg shallow, first, ok_bind, undecided]
      simp only [ih (Nat.not_lt.mpr inner.level_le), error_bind]

def TextReaches (evaluator : Evaluator) (scope : Scope) (source id : String) : Prop :=
  ∃ compiled, evaluator.compile source = .ok compiled ∧
    evaluator.Reaches scope id 1 compiled.tree

theorem TextReaches.evaluateText_error {source id : String} {failure : Failure}
    (reaches : evaluator.TextReaches scope source id) (fails : scope.resolve id = .error failure) :
    evaluator.evaluateText scope source = .error (failure.within id) := by
  rcases reaches with ⟨compiled, compiles, reached⟩
  rw [evaluateText, compiles, ok_bind]
  exact reached.evaluateAt_error fails

end Evaluator
end Rulebook
