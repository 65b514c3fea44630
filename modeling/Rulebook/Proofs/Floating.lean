import Rulebook.Floating.Arithmetic

namespace Rulebook

namespace Format

variable {format : Format}

theorem spacing_le (precise : 0 < format.precision) {steps : Nat} (positive : steps ≠ 0) :
    format.spacing steps ≤ steps := by
  have exponent : steps.log2 + 1 - format.precision ≤ steps.log2 := by omega
  calc format.spacing steps
    _ ≤ 2 ^ steps.log2 := Nat.pow_le_pow_right Nat.two_pos exponent
    _ ≤ steps := Nat.log2_self_le positive

theorem nearest_one_eq_zero (precise : 0 < format.precision) {steps : Nat} :
    format.nearest steps 1 = 0 ↔ steps = 0 := by
  have apart : 0 < format.spacing steps := Nat.two_pow_pos _
  simp only [nearest, Nat.div_one, Nat.one_mul, Nat.mul_eq_zero]
  constructor
  · intro nothing
    rcases Nat.eq_zero_or_pos steps with zero | positive
    · exact zero
    · have short := spacing_le precise (Nat.ne_of_gt positive)
      have one_below := Nat.div_pos short apart
      split at nothing <;> omega
  · intro zero
    left
    rw [zero] at apart ⊢
    simp [Nat.ne_of_lt apart]

end Format

namespace Floating

variable {format : Format}

theorem finite_equals_zero (negative : Bool) (size : Magnitude format) :
    equals (.finite negative size) (zero false) = decide (size.steps = 0) := by
  have none_counted : signed false (Magnitude.zero format) = 0 := rfl
  have counted : signed negative size = 0 ↔ size.steps = 0 := by
    cases negative <;> simp [signed]
  rw [equals, zero, compare, none_counted, Bool.eq_iff_iff, beq_iff_eq, Option.some_inj,
    Int.compare_eq_eq, counted, decide_eq_true_iff]

theorem infinite_equals_zero (negative : Bool) :
    equals (.infinite negative : Floating format) (zero false) = false := by
  cases negative <;> rfl

/-- Only zero becomes zero as a floating-point number. -/
theorem ofInt_equals_zero (precise : 0 < format.precision) (number : Int) :
    equals (ofInt number : Floating format) (zero false) = decide (number = 0) := by
  have scale : format.one ≠ 0 := Nat.ne_of_gt (Nat.two_pow_pos format.unit)
  have steps : format.nearest (number.natAbs * format.one) 1 = 0 ↔ number = 0 := by
    rw [Format.nearest_one_eq_zero precise, Nat.mul_eq_zero, or_iff_left scale, Int.natAbs_eq_zero]
  by_cases held : format.Holds (format.nearest (number.natAbs * format.one) 1)
  · simp only [ofInt, ofSteps, Magnitude.round?, Magnitude.ofSteps?, dif_pos held]
    rw [finite_equals_zero, decide_eq_decide]
    exact steps
  · -- What lies past the largest number of the format is infinite.
    have nonzero : number ≠ 0 := by
      intro zero
      rw [steps.mpr zero] at held
      exact held (Magnitude.zero format).holds
    simp only [ofInt, ofSteps, Magnitude.round?, Magnitude.ofSteps?, dif_neg held]
    rw [infinite_equals_zero, decide_eq_false nonzero]

end Floating
end Rulebook
