import Rulebook.Proofs.Floating.Decimal
import Rulebook.Value

namespace Rulebook.Value

variable {format : Format} {size : Magnitude format}

def WrittenOut (size : Magnitude format) : Prop :=
  format.one ∣ size.steps ∧ (size.steps / format.one : Nat) < writtenOutBound

instance (size : Magnitude format) : Decidable (WrittenOut size) :=
  inferInstanceAs (Decidable (_ ∧ _))

theorem floatingText_finite (negative : Bool) (size : Magnitude format) :
    floatingText (.finite negative size) =
      if WrittenOut size then
        (if negative then "-" else "") ++ (size.steps / format.one).repr ++ ".0"
      else (Floating.finite negative size).shortest := by
  rw [floatingText, Floating.whole?]
  by_cases whole : size.steps % format.one = 0
  · have divides : format.one ∣ size.steps := Nat.dvd_of_mod_eq_zero whole
    have natural : (if negative then -((size.steps / format.one : Nat) : Int)
        else (size.steps / format.one : Nat)).natAbs = size.steps / format.one := by
      cases negative <;> simp only [if_true, Bool.false_eq_true, if_false, Int.natAbs_neg,
        Int.natAbs_natCast]
    simp only [whole, if_true, natural, WrittenOut, divides, true_and]
    rfl
  · have apart : ¬ format.one ∣ size.steps := mt Nat.mod_eq_zero_of_dvd whole
    simp only [whole, if_false, WrittenOut, apart, false_and]

/-- A size is written as a decimal number that rounds to it, with a point unless it is too large a
whole number for that. -/
theorem floatingText_written (negative : Bool) (size : Magnitude format) :
    ∃ text coefficient places,
      (floatingText (.finite negative size)).toList = (if negative then '-' :: text else text) ∧
      DecimalText text coefficient places ∧
      format.nearest (coefficient * format.one) (10 ^ places) = size.steps ∧
      places ≤ max 1 format.unit ∧
      (places = 0 ↔ format.one ∣ size.steps ∧ ¬ WrittenOut size) := by
  rw [floatingText_finite]
  by_cases writtenOut : WrittenOut size
  · have whole : size.steps / format.one * format.one = size.steps :=
      Nat.div_mul_cancel writtenOut.1
    have digits := digits_toDigits (size.steps / format.one)
    have zero : Digits ['0'] := by simp [Digits]
    refine ⟨_, _, _, ?_, .pointed digits zero, ?_, ?_, ?_⟩
    · rw [if_pos writtenOut]
      cases negative <;> simp [Nat.repr_eq_ofList_toDigits]
    · have tenfold : digitsValue (Nat.toDigits 10 (size.steps / format.one) ++ ['0']) * format.one =
          size.steps * 10 := by
        rw [digitsValue_append, digitsValue_toDigits]
        calc (size.steps / format.one * 10 + 0) * format.one
          _ = size.steps / format.one * format.one * 10 := Nat.mul_right_comm _ _ _
          _ = size.steps * 10 := by rw [whole]
      rw [tenfold]
      exact Format.nearest_mul (by decide) size.spacing_dvd
    · exact Nat.le_max_left 1 _
    · simp [writtenOut]
  · obtain ⟨text, coefficient, places, signed, written, rounds, reach, whole⟩ :=
      Floating.shortest_written negative size
    rw [if_neg writtenOut]
    refine ⟨text, coefficient, places, signed, written, rounds, ?_, ?_⟩
    · exact reach.trans (Nat.le_max_right 1 _)
    · rw [whole, and_iff_left writtenOut]

theorem ofText?_floatingText (wide : 0 < format.width) (deep : format.unit ≤ format.width)
    (x : Floating format) : Floating.ofText? format (floatingText x).toList = some x := by
  cases x with
  | nan => exact Floating.ofText?_shortest deep .nan
  | infinite negative => exact Floating.ofText?_shortest deep (.infinite negative)
  | finite negative size =>
      obtain ⟨text, coefficient, places, signed, written, rounds, reach, -⟩ :=
        floatingText_written negative size
      rw [signed]
      exact Floating.ofText?_decimal written (by omega) rounds

theorem ofInteger?_ne_double {number : Int} {other : Double} :
    ofInteger? number ≠ some (.double other) := by
  intro narrow
  rw [ofInteger?] at narrow
  cases short : int32? number with
  | some word => simp [short] at narrow
  | none => simp [short] at narrow

end Rulebook.Value

namespace Rulebook.Double

open Rulebook.Value (WrittenOut writtenOutBound)

theorem rank?_writtenOutBound :
    (Floating.ofInt writtenOutBound : Double).rank? = some (10 ^ 16 * Format.double.one : Nat) := by
  decide +kernel

theorem below_bound_iff (size : Magnitude .double) :
    (Floating.finite false size).compare (.ofInt writtenOutBound) = some .lt ↔
      size.steps < 10 ^ 16 * Format.double.one := by
  rw [Floating.compare_of_rank? rfl rank?_writtenOutBound, Option.some_inj, Int.compare_eq_lt]
  exact Int.ofNat_lt

theorem infinite_not_below :
    (Floating.infinite false : Double).compare (.ofInt writtenOutBound) ≠ some .lt := by
  decide +kernel

/-- What is whole and not written out is what is not below the bound. -/
theorem large_whole_iff (size : Magnitude .double) :
    (Format.double.one ∣ size.steps ∧ ¬ WrittenOut size) ↔
      10 ^ 16 * Format.double.one ≤ size.steps := by
  have bound : ((size.steps / Format.double.one : Nat) : Int) < writtenOutBound ↔
      size.steps < 10 ^ 16 * Format.double.one := by
    rw [← Nat.div_lt_iff_lt_mul Format.double.one_pos]
    exact Int.ofNat_lt
  rw [WrittenOut, bound]
  constructor
  · rintro ⟨whole, other⟩
    exact Nat.le_of_not_lt fun small => other ⟨whole, small⟩
  · intro large
    have precise : 2 ^ Format.double.precision * Format.double.one ≤ size.steps :=
      (Nat.mul_le_mul_right _ (by decide)).trans large
    exact ⟨Magnitude.one_dvd_of_large precise, fun other => Nat.not_lt_of_le large other.2⟩

end Rulebook.Double
