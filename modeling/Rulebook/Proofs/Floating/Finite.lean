import Rulebook.Json.Numeral
import Rulebook.Proofs.Floating.Order

namespace Rulebook

namespace Floating

variable {format : Format} {x y : Floating format} {negative : Bool} {numerator denominator : Nat}

theorem isFinite_iff : x.isFinite = true ↔ ∃ negative size, x = .finite negative size := by
  cases x <;> simp [isFinite]

theorem isFinite_of_isInfinite (number : x.isNaN = false) (bounded : x.isInfinite = false) :
    x.isFinite = true := by
  cases x with
  | nan => contradiction
  | infinite negative => contradiction
  | finite negative size => rfl

theorem isFinite_neg (x : Floating format) : x.neg.isFinite = x.isFinite := by
  cases x <;> rfl

/-- What is no larger than a number of the format is rounded to one. -/
theorem ofSteps_of_le (negative : Bool) (precise : 0 < format.precision)
    (positive : 0 < denominator) (size : Magnitude format)
    (le : numerator ≤ size.steps * denominator) :
    ∃ rounded : Magnitude format, rounded.steps = format.nearest numerator denominator ∧
      ofSteps negative numerator denominator = .finite negative rounded := by
  have rounded := Format.nearest_le precise positive size.spacing_dvd le
  have held : format.Holds (format.nearest numerator denominator) :=
    (Format.holds_nearest precise positive).mpr (Nat.lt_of_le_of_lt rounded size.holds.2)
  refine ⟨⟨_, held⟩, rfl, ?_⟩
  simp only [ofSteps, Magnitude.round?, Magnitude.ofSteps?, dif_pos held]

theorem isFinite_ofSteps (precise : 0 < format.precision) (positive : 0 < denominator)
    (size : Magnitude format) (le : numerator ≤ size.steps * denominator) :
    (ofSteps negative numerator denominator : Floating format).isFinite = true := by
  obtain ⟨rounded, -, same⟩ := ofSteps_of_le negative precise positive size le
  rw [same]
  rfl

/-- Only an infinite dividend and a divisor of zero have no finite remainder. -/
theorem isFinite_rem (precise : 0 < format.precision) (number : (x.rem y).isNaN = false) :
    (x.rem y).isFinite = true := by
  cases x with
  | nan => contradiction
  | infinite p => cases y <;> contradiction
  | finite p a =>
      cases y with
      | nan => contradiction
      | infinite q => rfl
      | finite q b =>
          rw [rem] at number ⊢
          by_cases zero : b.steps = 0
          · rw [if_pos zero] at number
            contradiction
          · rw [if_neg zero]
            apply isFinite_ofSteps precise Nat.zero_lt_one a
            rw [Nat.mul_one]
            exact Nat.mod_le _ _

theorem isFinite_div (precise : 0 < format.precision) (finite : x.isFinite = true)
    {size : Magnitude format} (large : format.one ≤ size.steps) :
    (x.div (.finite negative size)).isFinite = true := by
  obtain ⟨p, a, rfl⟩ := isFinite_iff.mp finite
  have positive : 0 < size.steps := Nat.lt_of_lt_of_le format.one_pos large
  rw [div, if_neg (Nat.ne_of_gt positive)]
  apply isFinite_ofSteps precise positive a
  exact Nat.mul_le_mul_left _ large

end Floating

namespace Double

def largest : Magnitude .double := ⟨(2 ^ 53 - 1) * 2 ^ 2045, by decide +kernel⟩

theorem precise : 0 < Format.double.precision := by decide

theorem isFinite_ofInt {number : Int} (bounded : number.natAbs ≤ 2 ^ 64) :
    (Floating.ofInt number : Double).isFinite = true := by
  apply Floating.isFinite_ofSteps precise Nat.zero_lt_one largest
  have room : 2 ^ 64 * Format.double.one ≤ largest.steps * 1 := by decide +kernel
  exact (Nat.mul_le_mul_right _ bounded).trans room

theorem powerOfTen_eq {exponent : Nat} (le : exponent ≤ JsonNumeral.largestStep) :
    ∃ size : Magnitude .double, JsonNumeral.powerOfTen exponent = .finite false size ∧
      Format.double.one ≤ size.steps := by
  have power : 10 ^ exponent ≤ 10 ^ JsonNumeral.largestStep := Nat.pow_le_pow_right (by decide) le
  have room : 10 ^ JsonNumeral.largestStep * Format.double.one ≤ largest.steps := by
    decide +kernel
  have few : ¬ Format.double.width < exponent := by
    have wide : Format.double.width = 2098 := rfl
    have step : JsonNumeral.largestStep = 308 := rfl
    omega
  have written : JsonNumeral.powerOfTen exponent =
      .ofSteps false (10 ^ exponent * Format.double.one) 1 := by
    rw [JsonNumeral.powerOfTen, Floating.ofDecimal]
    simp only [Nat.one_ne_zero, if_false, if_neg few, Nat.one_mul]
    rfl
  have small : 10 ^ exponent * Format.double.one ≤ largest.steps * 1 := by
    rw [Nat.mul_one]
    exact (Nat.mul_le_mul_right _ power).trans room
  obtain ⟨size, steps, same⟩ :=
    Floating.ofSteps_of_le false precise Nat.zero_lt_one largest small
  refine ⟨size, written.trans same, ?_⟩
  have least : Format.double.nearest Format.double.one 1 = Format.double.one := by
    decide +kernel
  have more : Format.double.one ≤ 10 ^ exponent * Format.double.one :=
    Nat.le_mul_of_pos_left _ (Nat.pow_pos (by decide))
  calc Format.double.one
    _ = Format.double.nearest Format.double.one 1 := least.symm
    _ ≤ Format.double.nearest (10 ^ exponent * Format.double.one) 1 :=
        Format.nearest_mono precise Nat.zero_lt_one more
    _ = size.steps := steps.symm

end Double
end Rulebook
