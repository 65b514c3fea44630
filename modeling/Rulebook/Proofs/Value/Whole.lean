import Rulebook.Proofs.Floating
import Rulebook.Proofs.Steps
import Rulebook.Value.Operations

/-! Arithmetic on integers of two widths, as it is without bounds.

A result is worked out exactly and then held as narrow as the operands allow. What the operators
make of values is compared with this: the numbers that a value can hold, and that products and
remainders of them stay within, are what makes the two agree. -/

namespace Rulebook

inductive Width where
  | narrow | wide
  deriving DecidableEq, Repr

namespace Width

def Holds : Width → Int → Prop
  | .narrow, number => -0x80000000 ≤ number ∧ number < 0x80000000
  | .wide, number => -0x8000000000000000 ≤ number ∧ number < 0x8000000000000000

instance (width : Width) (number : Int) : Decidable (width.Holds number) :=
  match width with
  | .narrow => inferInstanceAs (Decidable (_ ∧ _))
  | .wide => inferInstanceAs (Decidable (_ ∧ _))

def join : Width → Width → Width
  | .narrow, .narrow => .narrow
  | _, _ => .wide

end Width

structure Whole where
  width : Width
  number : Int
  deriving DecidableEq, Repr

namespace Whole

/-- A result of operands that have a width together. One of narrow operands becomes wide where a
narrow integer does not hold it; any other overflows where a wide integer does not. -/
def fitted (operator : String) (width : Width) (result : Int) : Result Whole :=
  match width with
  | .narrow => .ok ⟨if Width.narrow.Holds result then .narrow else .wide, result⟩
  | .wide => if Width.wide.Holds result then .ok ⟨.wide, result⟩ else .error (.overflow operator)

/-- The number with the other sign. The least narrow integer becomes wide, and the least wide one
stays as it is. -/
def negated (whole : Whole) : Whole :=
  if whole = ⟨.narrow, -0x80000000⟩ then ⟨.wide, 0x80000000⟩
  else if whole = ⟨.wide, -0x8000000000000000⟩ then whole
  else ⟨whole.width, -whole.number⟩

inductive Operation where
  | sum | difference | product | remainder
  deriving DecidableEq, Repr

def Operation.symbol : Operation → String
  | .sum => "+"
  | .difference => "-"
  | .product => "*"
  | .remainder => "%"

def Operation.apply (operation : Operation) (left right : Whole) : Result Whole :=
  let width := left.width.join right.width
  match operation with
  | .sum => fitted "+" width (left.number + right.number)
  | .difference => fitted "-" width (left.number - right.number)
  | .product => fitted "*" width (left.number * right.number)
  | .remainder =>
    if right.number = 0 then .error (.arithmetic "%" .zeroDivisor)
    else .ok ⟨width, left.number.tmod right.number⟩

end Whole

def Value.whole? : Value → Option Whole
  | .int number => some ⟨.narrow, number.toInt⟩
  | .long number => some ⟨.wide, number.toInt⟩
  | _ => none

inductive Agrees : Result Value → Result Whole → Prop where
  | value {value : Value} {whole : Whole} (read : value.whole? = some whole) :
      Agrees (.ok value) (.ok whole)
  | failure (failure : Failure) : Agrees (.error failure) (.error failure)

namespace Agrees

variable {result : Result Value} {expected : Result Whole} {number : Int}

theorem map_eq (agrees : Agrees result expected) :
    result.map Value.whole? = expected.map some := by
  cases agrees with
  | value read => exact congrArg Except.ok read
  | failure failure => rfl

theorem int {word : Int32} (same : word.toInt = number) :
    Agrees (.ok (.int word)) (.ok ⟨.narrow, number⟩) := by
  subst same
  exact .value rfl

theorem long {word : Int64} (same : word.toInt = number) :
    Agrees (.ok (.long word)) (.ok ⟨.wide, number⟩) := by
  subst same
  exact .value rfl

theorem bind {next : Value → Result Value} {further : Whole → Result Whole}
    (first : Agrees result expected)
    (agrees : ∀ value whole, value.whole? = some whole → Agrees (next value) (further whole)) :
    Agrees (result >>= next) (expected >>= further) := by
  cases first with
  | value read => exact agrees _ _ read
  | failure failure => exact .failure failure

theorem mapError {change : Failure → Failure} (agrees : Agrees result expected) :
    Agrees (result.mapError change) (expected.mapError change) := by
  cases agrees with
  | value read => exact .value read
  | failure failure => exact .failure (change failure)

end Agrees

theorem natAbs_tmod_le (dividend divisor : Int) :
    (dividend.tmod divisor).natAbs ≤ dividend.natAbs := by
  rw [Int.natAbs_tmod]
  exact Nat.mod_le _ _

theorem tmod_sign (dividend divisor : Int) :
    (0 ≤ dividend → 0 ≤ dividend.tmod divisor) ∧ (dividend ≤ 0 → dividend.tmod divisor ≤ 0) := by
  constructor
  · exact Int.tmod_nonneg divisor
  · intro negative
    have mirrored := Int.tmod_nonneg divisor (Int.neg_nonneg_of_nonpos negative)
    rw [Int.neg_tmod] at mirrored
    omega

/-- What is left of a dividend when whole divisors are taken away towards zero. -/
structure IsRemainder (dividend divisor rest : Int) : Prop where
  multiple : divisor ∣ dividend - rest
  smaller : rest.natAbs < divisor.natAbs
  sign : (0 ≤ dividend → 0 ≤ rest) ∧ (dividend ≤ 0 → rest ≤ 0)

theorem isRemainder_tmod (dividend : Int) {divisor : Int} (nonzero : divisor ≠ 0) :
    IsRemainder dividend divisor (dividend.tmod divisor) where
  multiple := Int.dvd_self_sub_tmod
  smaller := by
    rw [Int.natAbs_tmod]
    exact Nat.mod_lt _ (Int.natAbs_pos.mpr nonzero)
  sign := tmod_sign dividend divisor

namespace Width

variable {number other : Int}

theorem join_eq_narrow {width another : Width} :
    width.join another = .narrow ↔ width = .narrow ∧ another = .narrow := by
  cases width <;> cases another <;> simp [join]

theorem exists_int32 (held : narrow.Holds number) :
    ∃ word, int32? number = some word ∧ word.toInt = number := by
  have found : int32? number = some (Int32.ofInt number) := if_pos held
  exact ⟨_, found, toInt_of_int32? found⟩

theorem exists_int64 (held : wide.Holds number) :
    ∃ word, int64? number = some word ∧ word.toInt = number := by
  have found : int64? number = some (Int64.ofInt number) := if_pos held
  exact ⟨_, found, toInt_of_int64? found⟩

theorem holds_add (first : narrow.Holds number) (second : narrow.Holds other) :
    wide.Holds (number + other) := by
  simp only [Holds] at first second ⊢
  omega

theorem holds_sub (first : narrow.Holds number) (second : narrow.Holds other) :
    wide.Holds (number - other) := by
  simp only [Holds] at first second ⊢
  omega

theorem holds_mul (first : narrow.Holds number) (second : narrow.Holds other) :
    wide.Holds (number * other) := by
  simp only [Holds] at first second ⊢
  have left : number.natAbs ≤ 0x80000000 := by omega
  have right : other.natAbs ≤ 0x80000000 := by omega
  have product := Nat.mul_le_mul left right
  rw [← Int.natAbs_mul] at product
  omega

theorem holds_tmod {width : Width} (held : width.Holds number) (divisor : Int) :
    width.Holds (number.tmod divisor) := by
  have smaller := natAbs_tmod_le number divisor
  have sign := tmod_sign number divisor
  cases width <;> simp only [Holds] at held ⊢ <;> omega

theorem holds_wide {width : Width} (held : width.Holds number) : wide.Holds number := by
  cases width with
  | narrow =>
      simp only [Holds] at held ⊢
      omega
  | wide => exact held

theorem holds_join {width : Width} (held : width.Holds number) (another : Width) :
    (width.join another).Holds number := by
  cases width with
  | narrow =>
      cases another with
      | narrow => exact held
      | wide => exact holds_wide held
  | wide => exact held

end Width

theorem Whole.fitted_of_holds (operator : String) {width : Width} {result : Int}
    (held : width.Holds result) : fitted operator width result = .ok ⟨width, result⟩ := by
  cases width with
  | narrow => rw [fitted, if_pos held]
  | wide => rw [fitted, if_pos held]

namespace Value

variable {value left right : Value} {whole first second : Whole}

theorem whole?_eq_some :
    value.whole? = some whole ↔
      (∃ number, value = .int number ∧ whole = ⟨.narrow, number.toInt⟩) ∨
        ∃ number, value = .long number ∧ whole = ⟨.wide, number.toInt⟩ := by
  cases value <;> simp [whole?, eq_comm]

theorem holds_of_whole? (read : value.whole? = some whole) : whole.width.Holds whole.number := by
  rcases whole?_eq_some.mp read with ⟨number, rfl, rfl⟩ | ⟨number, rfl, rfl⟩
  · exact ⟨Int32.le_toInt number, Int32.toInt_lt number⟩
  · exact ⟨Int64.le_toInt number, Int64.toInt_lt number⟩

theorem asInteger?_of_whole? (read : value.whole? = some whole) :
    value.asInteger? = some whole.number := by
  rcases whole?_eq_some.mp read with ⟨number, rfl, rfl⟩ | ⟨number, rfl, rfl⟩ <;> rfl

theorem asDouble?_of_whole? (read : value.whole? = some whole) :
    value.asDouble? = some (.ofInt whole.number) := by
  rcases whole?_eq_some.mp read with ⟨number, rfl, rfl⟩ | ⟨number, rfl, rfl⟩ <;> rfl

theorem kind_of_whole? (read : value.whole? = some whole) :
    value.kind = .int32 ↔ whole.width = .narrow := by
  rcases whole?_eq_some.mp read with ⟨number, rfl, rfl⟩ | ⟨number, rfl, rfl⟩ <;> simp [kind]

section

variable (readLeft : left.whole? = some first) (readRight : right.whole? = some second)
include readLeft readRight

theorem doubles_of_whole? (operator : String) :
    doubles operator left right = .ok (.ofInt first.number, .ofInt second.number) := by
  rw [doubles, asDouble?_of_whole? readLeft, asDouble?_of_whole? readRight]

theorem both_narrow :
    (left.kind = .int32 ∧ right.kind = .int32) ↔
      first.width.join second.width = .narrow := by
  rw [kind_of_whole? readLeft, kind_of_whole? readRight, Width.join_eq_narrow]

theorem integerResult_agrees (operator : String) {result : Int}
    (near : first.width.join second.width = .narrow → Width.wide.Holds result) :
    Agrees (integerResult operator left right result)
      (Whole.fitted operator (first.width.join second.width) result) := by
  have narrow := both_narrow readLeft readRight
  simp only [integerResult, narrow]
  cases joined : first.width.join second.width with
  | narrow =>
      by_cases held : Width.narrow.Holds result
      · obtain ⟨word, found, same⟩ := Width.exists_int32 held
        simp only [Whole.fitted, found, if_pos held, if_true]
        exact .int same
      · have missing : int32? result = none := if_neg held
        obtain ⟨word, found, same⟩ := Width.exists_int64 (near joined)
        simp only [Whole.fitted, missing, found, if_neg held, if_true]
        exact .long same
  | wide =>
      by_cases held : Width.wide.Holds result
      · obtain ⟨word, found, same⟩ := Width.exists_int64 held
        simp only [Whole.fitted, found, if_pos held, reduceCtorEq, if_false]
        exact .long same
      · have missing : int64? result = none := if_neg held
        simp only [Whole.fitted, missing, if_neg held, reduceCtorEq, if_false]
        exact .failure _

theorem numeric_agrees (operator : String) (operation : Int → Int → Int)
    (floating : Double → Double → Double)
    (near : Width.narrow.Holds first.number → Width.narrow.Holds second.number →
      Width.wide.Holds (operation first.number second.number)) :
    Agrees (numeric operator operation floating left right)
      (Whole.fitted operator (first.width.join second.width)
        (operation first.number second.number)) := by
  rw [numeric, doubles_of_whole? readLeft readRight, ok_bind, asInteger?_of_whole? readLeft,
    asInteger?_of_whole? readRight]
  apply integerResult_agrees readLeft readRight
  intro narrow
  obtain ⟨narrow_left, narrow_right⟩ := Width.join_eq_narrow.mp narrow
  have held_left := holds_of_whole? readLeft
  have held_right := holds_of_whole? readRight
  rw [narrow_left] at held_left
  rw [narrow_right] at held_right
  exact near held_left held_right

theorem add_agrees : Agrees (add left right) (Whole.Operation.sum.apply first second) := by
  have plain : add left right = numeric "+" (· + ·) Floating.add left right := by
    rcases whole?_eq_some.mp readLeft with ⟨a, rfl, -⟩ | ⟨a, rfl, -⟩ <;>
      rcases whole?_eq_some.mp readRight with ⟨b, rfl, -⟩ | ⟨b, rfl, -⟩ <;> rfl
  rw [plain]
  exact numeric_agrees readLeft readRight "+" (· + ·) Floating.add Width.holds_add

/-- The divisor is compared with zero as a floating-point number, which it is zero as just if it is
zero; and the remainder always fits. -/
theorem modulo_agrees :
    Agrees (modulo left right) (Whole.Operation.remainder.apply first second) := by
  rw [modulo, doubles_of_whole? readLeft readRight, ok_bind, asInteger?_of_whole? readLeft,
    asInteger?_of_whole? readRight]
  simp only [Floating.ofInt_equals_zero (show 0 < Format.double.precision by decide),
    Whole.Operation.apply, decide_eq_true_eq]
  by_cases zero : second.number = 0
  · rw [if_pos zero, if_pos zero]
    exact .failure _
  · rw [if_neg zero, if_neg zero]
    have held := Width.holds_tmod (holds_of_whole? readLeft) second.number
    have exact_result := Whole.fitted_of_holds "%" (Width.holds_join held second.width)
    rw [← exact_result]
    exact integerResult_agrees readLeft readRight "%" fun _ => Width.holds_wide held

end

theorem toInt_neg (number : Int64) :
    (-number).toInt =
      if number.toInt = -0x8000000000000000 then number.toInt else -number.toInt := by
  have low := Int64.le_toInt number
  have high := Int64.toInt_lt number
  rw [Int64.toInt_neg, Int.bmod_def]
  omega

theorem negate_agrees (read : value.whole? = some whole) :
    Agrees (negate value) (.ok whole.negated) := by
  rcases whole?_eq_some.mp read with ⟨number, rfl, rfl⟩ | ⟨number, rfl, rfl⟩
  · by_cases least : number.toInt = -0x80000000
    · simp only [negate, Whole.negated, least, if_true]
      exact .value rfl
    · have held : Width.narrow.Holds (-number.toInt) := by
        have low := Int32.le_toInt number
        have high := Int32.toInt_lt number
        simp only [Width.Holds]
        omega
      obtain ⟨word, found, same⟩ := Width.exists_int32 held
      have negated : Whole.negated ⟨.narrow, number.toInt⟩ = ⟨.narrow, -number.toInt⟩ := by
        simp [Whole.negated, least]
      simp only [negate, found, negated]
      exact .int same
  · have negated : Whole.negated ⟨.wide, number.toInt⟩ = ⟨.wide, (-number).toInt⟩ := by
      rw [toInt_neg]
      by_cases least : number.toInt = -0x8000000000000000 <;> simp [Whole.negated, least]
    rw [negate, negated]
    exact .long rfl

end Value
end Rulebook
