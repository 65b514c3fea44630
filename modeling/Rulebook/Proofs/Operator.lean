import Rulebook.Operator.Set
import Rulebook.Proofs.Roster
import Rulebook.Proofs.Value.Arithmetic

namespace Rulebook

namespace OperatorSet

def operation? (operators : OperatorSet) (symbol : String) (arity : Arity) : Option Operation :=
  (operators.lookup? symbol arity).map Operator.operation

theorem key_of_lookup? {operators : OperatorSet} {symbol : String} {arity : Arity}
    {operator : Operator} (found : operators.lookup? symbol arity = some operator) :
    operator.symbol = symbol ∧ operator.arity = arity :=
  Prod.mk.inj (Roster.get?_eq_some.mp found).2

theorem operation?_register {operators : OperatorSet} {operator : Operator} {symbol : String}
    {arity : Arity} (apart : operator.key ≠ (symbol, arity)) :
    (operators.register operator).operation? symbol arity = operators.operation? symbol arity := by
  rw [operation?, operation?, lookup?, lookup?, register, Roster.get?_put, if_neg apart]

theorem operation?_of_forall {operators : OperatorSet} {holds : Operation → Prop}
    (every : ∀ operator ∈ operators.items, holds operator.operation) {symbol : String}
    {arity : Arity} {operation : Operation}
    (found : operators.operation? symbol arity = some operation) : holds operation := by
  obtain ⟨operator, held, rfl⟩ := Option.map_eq_some_iff.mp found
  exact every operator (Roster.get?_eq_some.mp held).1

end OperatorSet

/-- An error that names no expression and is none of syntax. -/
def Failure.Bare : Failure → Prop
  | .malformed _ | .evaluation .. => False
  | _ => True

theorem Failure.Bare.root_eq {failure : Failure} (bare : failure.Bare) : failure.root = failure := by
  cases failure with
  | evaluation => contradiction
  | _ => rfl

def Failure.OfOperator : Failure → Prop
  | .unsupportedOperator .. | .typeMismatch .. | .arithmetic .. | .overflow _ => True
  | _ => False

theorem Failure.OfOperator.bare {failure : Failure} (of_operator : failure.OfOperator) :
    failure.Bare := by
  cases failure <;> trivial

def FailsAs {α : Type} (kind : Failure → Prop) (result : Result α) : Prop :=
  ∀ failure, result = .error failure → kind failure

def BareErrors {α : Type} (result : Result α) : Prop :=
  ∀ failure, result = .error failure → failure.Bare

section

variable {α β : Type} {kind : Failure → Prop}

@[simp] theorem failsAs_ok (value : α) : FailsAs kind (.ok value) := nofun

@[simp] theorem failsAs_error {failure : Failure} :
    FailsAs kind (.error failure : Result α) ↔ kind failure := by
  constructor
  · exact fun fails => fails failure rfl
  · intro allowed other same
    cases same
    exact allowed

theorem FailsAs.bind {first : Result α} {next : α → Result β} (fails : FailsAs kind first)
    (further : ∀ value, FailsAs kind (next value)) : FailsAs kind (first >>= next) := by
  cases first with
  | error failure => exact failsAs_error.mpr (failsAs_error.mp fails)
  | ok value => exact further value

theorem FailsAs.bare {result : Result α} (fails : FailsAs Failure.OfOperator result) :
    BareErrors result :=
  fun failure failed => (fails failure failed).bare

@[simp] theorem bareErrors_ok (value : α) : BareErrors (.ok value) := failsAs_ok value

@[simp] theorem bareErrors_error {failure : Failure} :
    BareErrors (.error failure : Result α) ↔ failure.Bare :=
  failsAs_error

theorem BareErrors.bind {first : Result α} {next : α → Result β} (bare : BareErrors first)
    (further : ∀ value, BareErrors (next value)) : BareErrors (first >>= next) :=
  FailsAs.bind bare further

end

namespace Value

theorem doubles_failsAs (operator : String) (left right : Value) :
    FailsAs Failure.OfOperator (doubles operator left right) := by
  rw [doubles]
  split
  · exact failsAs_ok _
  · exact failsAs_error.mpr trivial

theorem integerResult_failsAs (operator : String) (left right : Value) (result : Int) :
    FailsAs Failure.OfOperator (integerResult operator left right result) := by
  simp only [integerResult]
  split
  · exact failsAs_ok _
  · exact failsAs_ok _
  · exact failsAs_error.mpr trivial

theorem Computes.failsAs {operator : String} {left right : Value} {result : Result Value}
    (computes : Computes operator left right result) : FailsAs Failure.OfOperator result := by
  cases computes with
  | refused failed =>
      have refuses := doubles_failsAs operator left right
      rw [failed, failsAs_error] at refuses
      exact failsAs_error.mpr refuses
  | integer number => exact integerResult_failsAs operator left right number
  | floating number => exact failsAs_ok _
  | fault fault => exact failsAs_error.mpr trivial

theorem numeric_failsAs (operator : String) (whole : Int → Int → Int)
    (floating : Double → Double → Double) (left right : Value) :
    FailsAs Failure.OfOperator (numeric operator whole floating left right) :=
  (numeric_computes operator whole floating left right).failsAs

theorem add_failsAs (left right : Value) : FailsAs Failure.OfOperator (add left right) := by
  rw [add]
  split
  · exact failsAs_error.mpr trivial
  · split
    · exact failsAs_ok _
    · exact numeric_failsAs "+" _ _ left right

theorem divide_failsAs (left right : Value) : FailsAs Failure.OfOperator (divide left right) :=
  (divide_computes left right).failsAs

theorem modulo_failsAs (left right : Value) : FailsAs Failure.OfOperator (modulo left right) :=
  (modulo_computes left right).failsAs

theorem negate_failsAs (operand : Value) : FailsAs Failure.OfOperator (negate operand) := by
  cases operand with
  | int number =>
      rw [negate]
      split <;> exact failsAs_ok _
  | long | single | double => exact failsAs_ok _
  | null | boolean | text => exact failsAs_error.mpr trivial

theorem compare_failsAs (operator : String) (accepts : Ordering → Bool) (left right : Value) :
    FailsAs Failure.OfOperator (compare operator accepts left right) := by
  apply (doubles_failsAs operator left right).bind
  rintro ⟨a, b⟩
  exact failsAs_ok _

theorem logical_failsAs (operator : String) (join : Bool → Bool → Bool) (left right : Value) :
    FailsAs Failure.OfOperator (logical operator join left right) := by
  unfold logical
  split
  · exact failsAs_ok _
  · exact failsAs_error.mpr trivial

theorem negation_failsAs (operand : Value) : FailsAs Failure.OfOperator (negation operand) := by
  unfold negation
  split
  · exact failsAs_ok _
  · exact failsAs_error.mpr trivial

end Value

def Operation.FailsAs (kind : Failure → Prop) : Operation → Prop
  | .unary run => ∀ operand, Rulebook.FailsAs kind (run operand)
  | .binary run => ∀ left right, Rulebook.FailsAs kind (run left right)

def Operation.Bare : Operation → Prop
  | .unary run => ∀ operand, BareErrors (run operand)
  | .binary run => ∀ left right, BareErrors (run left right)

theorem Operation.FailsAs.bare {operation : Operation}
    (fails : operation.FailsAs Failure.OfOperator) : operation.Bare := by
  cases operation with
  | unary run => exact fun operand => (fails operand).bare
  | binary run => exact fun left right => (fails left right).bare

def OperatorSet.Bare (operators : OperatorSet) : Prop :=
  ∀ operator ∈ operators.items, operator.operation.Bare

theorem OperatorSet.Bare.of_operation? {operators : OperatorSet} (bare : operators.Bare)
    {symbol : String} {arity : Arity} {operation : Operation}
    (found : operators.operation? symbol arity = some operation) : operation.Bare :=
  operation?_of_forall bare found

theorem Operator.standard_failsAs :
    ∀ operator ∈ Operator.standard, operator.operation.FailsAs Failure.OfOperator := by
  simp only [Operator.standard, arithmeticOperators, comparisonOperators, logicalOperators,
    unaryOperators, List.cons_append, List.nil_append, List.forall_mem_cons]
  exact ⟨Value.add_failsAs, Value.numeric_failsAs "-" _ _, Value.numeric_failsAs "*" _ _,
    Value.divide_failsAs, Value.modulo_failsAs, Value.compare_failsAs "<" _,
    Value.compare_failsAs "<=" _, Value.compare_failsAs ">" _, Value.compare_failsAs ">=" _,
    fun _ _ => failsAs_ok _, fun _ _ => failsAs_ok _, Value.logical_failsAs "&&" _,
    Value.logical_failsAs "||" _, Value.negation_failsAs, Value.negate_failsAs,
    List.forall_mem_nil _⟩

theorem OperatorSet.standard_failsAs :
    ∀ operator ∈ OperatorSet.standard.items, operator.operation.FailsAs Failure.OfOperator := by
  intro operator member
  exact Operator.standard_failsAs operator (Roster.mem_of_mem_ofList member)

theorem OperatorSet.standard_bare : OperatorSet.standard.Bare :=
  fun operator member => (standard_failsAs operator member).bare

/-- `&&` and `||` are the standard operators; every other symbol can be any. -/
structure OperatorSet.StandardLogic (operators : OperatorSet) : Prop where
  conjunction : operators.operation? "&&" .binary = some (.binary Value.conjunction)
  disjunction : operators.operation? "||" .binary = some (.binary Value.disjunction)

theorem OperatorSet.standard_logic : OperatorSet.standard.StandardLogic := ⟨rfl, rfl⟩

end Rulebook
