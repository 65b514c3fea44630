import Rulebook.Proofs.Value.Arithmetic
import Rulebook.Value.Operations

/-! What operations ask of values, and what they give for it.

Numbers of all kinds are of one sort. An operation whose operands are of the sorts that it asks for
gives a value of a sort known beforehand, or fails as arithmetic does. -/

namespace Rulebook

inductive ValueSort where
  | null | boolean | numeric | text
  deriving DecidableEq, Repr

def Value.sort : Value → ValueSort
  | .null => .null
  | .boolean _ => .boolean
  | .int _ | .long _ | .single _ | .double _ => .numeric
  | .text _ => .text

def Failure.Arithmetical (failure : Failure) : Prop :=
  ∃ operator, failure.root = .overflow operator ∨ ∃ fault, failure.root = .arithmetic operator fault

def Sound (sort : ValueSort) : Result Value → Prop
  | .ok value => value.sort = sort
  | .error failure => failure.Arithmetical

section

variable {sort expected : ValueSort} {result : Result Value}

theorem sound_overflow (sort : ValueSort) (operator : String) :
    Sound sort (.error (.overflow operator)) :=
  ⟨operator, .inl rfl⟩

theorem sound_arithmetic (sort : ValueSort) (operator : String) (fault : ArithmeticFault) :
    Sound sort (.error (.arithmetic operator fault)) :=
  ⟨operator, .inr ⟨fault, rfl⟩⟩

theorem Sound.bind {next : Value → Result Value} (sound : Sound expected result)
    (further : ∀ value, value.sort = expected → Sound sort (next value)) :
    Sound sort (result >>= next) := by
  cases result with
  | error failure => exact sound
  | ok value => exact further value sound

theorem Sound.within {expression : String} (sound : Sound sort result) :
    Sound sort (result.mapError fun error => error.within expression) := by
  cases result with
  | error failure => exact sound
  | ok value => exact sound

end

namespace Value

variable {value left right : Value}

theorem exists_double (numeric : value.sort = .numeric) :
    ∃ number, value.asDouble? = some number := by
  cases value with
  | int | long | single | double => exact ⟨_, rfl⟩
  | null | boolean | text => contradiction

theorem exists_boolean (boolean : value.sort = .boolean) : ∃ flag, value = .boolean flag := by
  cases value with
  | boolean flag => exact ⟨flag, rfl⟩
  | null | int | long | single | double | text => contradiction

theorem isNull_eq (value : Value) : value.isNull = decide (value.sort = .null) := by
  cases value <;> rfl

theorem isText_eq (value : Value) : value.isText = decide (value.sort = .text) := by
  cases value <;> rfl

theorem integerResult_sound (operator : String) (left right : Value) (result : Int) :
    Sound .numeric (integerResult operator left right result) := by
  simp only [integerResult]
  split
  · rfl
  · rfl
  · exact sound_overflow _ operator

theorem negate_sound (numeric : value.sort = .numeric) : Sound .numeric (negate value) := by
  cases value with
  | int number =>
      rw [negate]
      split <;> rfl
  | long | single | double => rfl
  | null | boolean | text => contradiction

theorem negation_sound (boolean : value.sort = .boolean) : Sound .boolean (negation value) := by
  obtain ⟨flag, rfl⟩ := exists_boolean boolean
  rfl

theorem logical_sound (operator : String) (join : Bool → Bool → Bool)
    (first : left.sort = .boolean) (second : right.sort = .boolean) :
    Sound .boolean (logical operator join left right) := by
  obtain ⟨a, rfl⟩ := exists_boolean first
  obtain ⟨b, rfl⟩ := exists_boolean second
  rfl

theorem add_text_sound (first : left.sort ≠ .null) (second : right.sort ≠ .null)
    (text : left.sort = .text ∨ right.sort = .text) : Sound .text (add left right) := by
  have some_text : (left.isText || right.isText) = true := by
    rw [isText_eq, isText_eq, Bool.or_eq_true, decide_eq_true_iff, decide_eq_true_iff]
    exact text
  have no_null : (left.isNull || right.isNull) = false := by
    rw [isNull_eq, isNull_eq, decide_eq_false first, decide_eq_false second]
    rfl
  rw [add, no_null, some_text]
  rfl

section

variable (first : left.sort = .numeric) (second : right.sort = .numeric)
include first second

theorem exists_doubles (operator : String) :
    ∃ pair, doubles operator left right = .ok pair := by
  obtain ⟨a, read_left⟩ := exists_double first
  obtain ⟨b, read_right⟩ := exists_double second
  exact ⟨(a, b), by rw [doubles, read_left, read_right]⟩

theorem Computes.sound {operator : String} {result : Result Value}
    (computes : Computes operator left right result) : Sound .numeric result := by
  cases computes with
  | refused failed =>
      obtain ⟨pair, read⟩ := exists_doubles first second operator
      rw [read] at failed
      contradiction
  | integer number => exact integerResult_sound operator left right number
  | floating number => rfl
  | fault fault => exact sound_arithmetic .numeric operator fault

theorem numeric_sound (operator : String) (whole : Int → Int → Int)
    (floating : Double → Double → Double) :
    Sound .numeric (numeric operator whole floating left right) :=
  Computes.sound first second (numeric_computes operator whole floating left right)

theorem add_sound : Sound .numeric (add left right) := by
  have no_null : (left.isNull || right.isNull) = false := by
    rw [isNull_eq, isNull_eq, first, second]
    rfl
  have no_text : (left.isText || right.isText) = false := by
    rw [isText_eq, isText_eq, first, second]
    rfl
  rw [add, no_null, no_text]
  exact numeric_sound first second "+" _ _

theorem divide_sound : Sound .numeric (divide left right) :=
  Computes.sound first second (divide_computes left right)

theorem modulo_sound : Sound .numeric (modulo left right) :=
  Computes.sound first second (modulo_computes left right)

theorem compare_sound (operator : String) (accepts : Ordering → Bool) :
    Sound .boolean (compare operator accepts left right) := by
  obtain ⟨⟨a, b⟩, read⟩ := exists_doubles first second operator
  rw [compare, read]
  rfl

end

end Value
end Rulebook
