import Rulebook.Operator.Set
import Rulebook.Proofs.Floating.Finite
import Rulebook.Proofs.Operator

namespace Rulebook

def Value.Finite : Value → Prop
  | .single number => number.isFinite = true
  | .double number => number.isFinite = true
  | _ => True

namespace Value

variable {left right value : Value}

theorem finite_ofInteger? {number : Int} (narrow : ofInteger? number = some value) :
    value.Finite := by
  rw [ofInteger?] at narrow
  cases short : int32? number with
  | some word =>
      rw [short] at narrow
      obtain rfl := Option.some.inj narrow
      trivial
  | none =>
      rw [short] at narrow
      obtain ⟨word, -, rfl⟩ := Option.map_eq_some_iff.mp narrow
      trivial

theorem finite_integerResult {operator : String} {number : Int}
    (fits : integerResult operator left right number = .ok value) : value.Finite := by
  simp only [integerResult] at fits
  split at fits
  · obtain rfl := Except.ok.inj fits
    trivial
  · obtain rfl := Except.ok.inj fits
    trivial
  · contradiction

theorem finite_divide (divided : divide left right = .ok value) : value.Finite := by
  obtain ⟨⟨a, b⟩, -, quotient⟩ := bind_eq_ok.mp divided
  dsimp only at quotient
  split at quotient
  · contradiction
  · split at quotient
    · contradiction
    · rename_i number
      split at quotient
      · contradiction
      · rename_i bounded
        obtain rfl := Except.ok.inj quotient
        exact Floating.isFinite_of_isInfinite (Bool.eq_false_iff.mpr number)
          (Bool.eq_false_iff.mpr bounded)

theorem finite_modulo (divided : modulo left right = .ok value) : value.Finite := by
  obtain ⟨⟨a, b⟩, -, rest⟩ := bind_eq_ok.mp divided
  dsimp only at rest
  split at rest
  · contradiction
  · split at rest
    · exact finite_integerResult rest
    · split at rest
      · contradiction
      · rename_i number
        obtain rfl := Except.ok.inj rest
        exact Floating.isFinite_rem Double.precise (Bool.eq_false_iff.mpr number)

theorem divide_of_not_finite {a b : Double} (read : doubles "/" left right = .ok (a, b))
    (unbounded : (a.div b).isFinite = false) :
    ∃ fault, divide left right = .error (.arithmetic "/" fault) := by
  rw [divide, read, ok_bind]
  dsimp only
  split
  · exact ⟨_, rfl⟩
  · split
    · exact ⟨_, rfl⟩
    · rename_i number
      split
      · exact ⟨_, rfl⟩
      · rename_i bounded
        have finite := Floating.isFinite_of_isInfinite (Bool.eq_false_iff.mpr number)
          (Bool.eq_false_iff.mpr bounded)
        rw [finite] at unbounded
        contradiction

theorem modulo_of_not_finite {a b : Double} (read : doubles "%" left right = .ok (a, b))
    (floating : left.asInteger? = none ∨ right.asInteger? = none)
    (unbounded : (a.rem b).isFinite = false) :
    ∃ fault, modulo left right = .error (.arithmetic "%" fault) := by
  rw [modulo, read, ok_bind]
  dsimp only
  split
  · exact ⟨_, rfl⟩
  · split
    · rename_i x y first second
      rw [first, second] at floating
      rcases floating with absent | absent <;> contradiction
    · split
      · exact ⟨_, rfl⟩
      · rename_i number
        rw [Floating.isFinite_rem Double.precise (Bool.eq_false_iff.mpr number)] at unbounded
        contradiction

theorem finite_negate {operand : Value} (finite : operand.Finite)
    (negated : negate operand = .ok value) : value.Finite := by
  cases operand with
  | int number =>
      rw [negate] at negated
      split at negated <;> obtain rfl := Except.ok.inj negated <;> trivial
  | long number =>
      obtain rfl := Except.ok.inj negated
      trivial
  | single number =>
      obtain rfl := Except.ok.inj negated
      exact (Floating.isFinite_neg number).trans finite
  | double number =>
      obtain rfl := Except.ok.inj negated
      exact (Floating.isFinite_neg number).trans finite
  | null | boolean | text => contradiction

theorem finite_negation {operand : Value} (negated : negation operand = .ok value) :
    value.Finite := by
  cases operand with
  | boolean flag =>
      obtain rfl := Except.ok.inj negated
      trivial
  | _ => contradiction

theorem finite_compare {operator : String} {accepts : Ordering → Bool}
    (compared : compare operator accepts left right = .ok value) : value.Finite := by
  obtain ⟨⟨a, b⟩, -, answer⟩ := bind_eq_ok.mp compared
  obtain rfl := Except.ok.inj answer
  trivial

theorem finite_logical {operator : String} {join : Bool → Bool → Bool}
    (joined : logical operator join left right = .ok value) : value.Finite := by
  unfold logical at joined
  split at joined
  · obtain rfl := Except.ok.inj joined
    trivial
  · contradiction

end Value

def Operation.Bounded : Operation → Prop
  | .unary run => ∀ operand value, run operand = .ok value → operand.Finite → value.Finite
  | .binary run => ∀ left right value, run left right = .ok value → value.Finite

def Operator.unchecked : List (String × Arity) := [("+", .binary), ("-", .binary), ("*", .binary)]

theorem Operator.standard_bounded :
    ∀ operator ∈ Operator.standard, operator.key ∉ unchecked → operator.operation.Bounded := by
  simp only [Operator.standard, arithmeticOperators, comparisonOperators, logicalOperators,
    unaryOperators, List.cons_append, List.nil_append, List.forall_mem_cons]
  have equality : ∀ (test : Value → Value → Bool) (left right value : Value),
      (.ok (.boolean (test left right)) : Result Value) = .ok value → value.Finite := by
    intro test left right value same
    obtain rfl := Except.ok.inj same
    trivial
  exact ⟨fun other => absurd (by decide) other, fun other => absurd (by decide) other,
    fun other => absurd (by decide) other, fun _ _ _ _ => Value.finite_divide,
    fun _ _ _ _ => Value.finite_modulo, fun _ _ _ _ => Value.finite_compare,
    fun _ _ _ _ => Value.finite_compare, fun _ _ _ _ => Value.finite_compare,
    fun _ _ _ _ => Value.finite_compare, fun _ => equality Value.equals,
    fun _ => equality fun left right => !left.equals right, fun _ _ _ _ => Value.finite_logical,
    fun _ _ _ _ => Value.finite_logical, fun _ _ _ negated _ => Value.finite_negation negated,
    fun _ _ _ negated finite => Value.finite_negate finite negated, List.forall_mem_nil _⟩

theorem OperatorSet.standard_bounded {symbol : String} {arity : Arity} {operation : Operation}
    (found : OperatorSet.standard.operation? symbol arity = some operation)
    (checked : (symbol, arity) ∉ Operator.unchecked) : operation.Bounded := by
  obtain ⟨operator, held, rfl⟩ := Option.map_eq_some_iff.mp found
  have key : operator.key = (symbol, arity) := (Roster.get?_eq_some.mp held).2
  rw [← key] at checked
  have member := Roster.mem_of_mem_ofList (Roster.get?_eq_some.mp held).1
  exact Operator.standard_bounded operator member checked

end Rulebook
