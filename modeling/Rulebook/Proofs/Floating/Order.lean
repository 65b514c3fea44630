import Mathlib.Algebra.Order.Ring.Int
import Rulebook.Proofs.Floating

/-! The order of floating-point numbers, and what rounding does to it.

Every number but `nan` has a rank, which is an integer, and numbers compare as their ranks do.
Rounding a count of steps to a multiple of the spacing around it keeps the order: counts of as many
bits are rounded to multiples of one spacing, and between counts of fewer bits and of more there is
a power of two, past which neither is rounded. -/

namespace Rulebook

theorem log2_mono {steps more : Nat} (le : steps ≤ more) : steps.log2 ≤ more.log2 := by
  by_cases none : steps = 0
  · rw [none, Nat.log2_zero]
    exact Nat.zero_le _
  · exact (Nat.le_log2 (by omega)).mpr ((Nat.log2_self_le none).trans le)

namespace Format

variable {format : Format} {steps more unit numerator denominator : Nat}

def roundedQuotient (steps unit : Nat) : Nat :=
  if unit < 2 * (steps % unit) ∨ (2 * (steps % unit) = unit ∧ steps / unit % 2 = 1) then
    steps / unit + 1
  else steps / unit

theorem roundedQuotient_mono (le : steps ≤ more) :
    roundedQuotient steps unit ≤ roundedQuotient more unit := by
  have quotients : steps / unit ≤ more / unit := Nat.div_le_div_right le
  have whole := Nat.div_add_mod steps unit
  have whole_more := Nat.div_add_mod more unit
  rw [roundedQuotient, roundedQuotient]
  rcases Nat.lt_or_eq_of_le quotients with less | same
  · split <;> split <;> omega
  · -- With one quotient it is the rests that are in order, and the larger one is rounded up first.
    rw [← same] at whole_more ⊢
    have rests : steps % unit ≤ more % unit := by omega
    split <;> split <;> omega

theorem roundedQuotient_mul (positive : 0 < unit) (count : Nat) :
    roundedQuotient (count * unit) unit = count := by
  rw [roundedQuotient, Nat.mul_mod_left, Nat.mul_div_cancel count positive]
  apply if_neg
  omega

theorem spacing_pos (format : Format) (steps : Nat) : 0 < format.spacing steps :=
  Nat.two_pow_pos _

theorem one_pos (format : Format) : 0 < format.one :=
  Nat.two_pow_pos _

theorem nearest_eq (format : Format) (numerator denominator : Nat) :
    format.nearest numerator denominator =
      roundedQuotient numerator (denominator * format.spacing (numerator / denominator)) *
        format.spacing (numerator / denominator) := rfl

theorem spacing_eq (format : Format) (steps : Nat) :
    format.spacing steps = 2 ^ (steps.log2 + 1 - format.precision) := rfl

theorem nearest_mul (positive : 0 < denominator) (divides : format.spacing steps ∣ steps) :
    format.nearest (steps * denominator) denominator = steps := by
  have count : steps / format.spacing steps * format.spacing steps = steps :=
    Nat.div_mul_cancel divides
  have split : steps / format.spacing steps * (denominator * format.spacing steps) =
      steps * denominator := by
    rw [Nat.mul_left_comm, count, Nat.mul_comm]
  have rounded := roundedQuotient_mul (Nat.mul_pos positive (format.spacing_pos steps))
    (steps / format.spacing steps)
  rw [split] at rounded
  rw [nearest_eq, Nat.mul_div_cancel steps positive, rounded, count]

/-- No quotient is rounded down past a multiple of its spacing. -/
theorem mul_le_nearest (positive : 0 < denominator) {count : Nat}
    (low : count * format.spacing (numerator / denominator) ≤ numerator / denominator) :
    count * format.spacing (numerator / denominator) ≤ format.nearest numerator denominator := by
  have below : count * (denominator * format.spacing (numerator / denominator)) ≤ numerator := by
    rw [Nat.mul_left_comm, Nat.mul_comm denominator]
    exact (Nat.le_div_iff_mul_le positive).mp low
  have unit_pos := Nat.mul_pos positive (format.spacing_pos (numerator / denominator))
  rw [nearest_eq]
  apply Nat.mul_le_mul_right
  rw [← roundedQuotient_mul unit_pos count]
  exact roundedQuotient_mono below

theorem nearest_le_mul (positive : 0 < denominator) {count : Nat}
    (high : numerator / denominator < count * format.spacing (numerator / denominator)) :
    format.nearest numerator denominator ≤ count * format.spacing (numerator / denominator) := by
  have above : numerator ≤ count * (denominator * format.spacing (numerator / denominator)) := by
    rw [Nat.mul_left_comm, Nat.mul_comm denominator]
    exact Nat.le_of_lt ((Nat.div_lt_iff_lt_mul positive).mp high)
  have unit_pos := Nat.mul_pos positive (format.spacing_pos (numerator / denominator))
  rw [nearest_eq]
  apply Nat.mul_le_mul_right
  rw [← roundedQuotient_mul unit_pos count]
  exact roundedQuotient_mono above

theorem pow_le_nearest (precise : 0 < format.precision) (positive : 0 < denominator)
    (nonzero : numerator / denominator ≠ 0) :
    2 ^ (numerator / denominator).log2 ≤ format.nearest numerator denominator := by
  have exponent : (numerator / denominator).log2 + 1 - format.precision ≤
      (numerator / denominator).log2 := by omega
  have power := Nat.pow_sub_mul_pow 2 exponent
  have low : 2 ^ (numerator / denominator).log2 ≤ numerator / denominator :=
    Nat.log2_self_le nonzero
  rw [← power] at low ⊢
  exact mul_le_nearest positive low

theorem nearest_le_pow (precise : 0 < format.precision) (positive : 0 < denominator) :
    format.nearest numerator denominator ≤ 2 ^ ((numerator / denominator).log2 + 1) := by
  have exponent : (numerator / denominator).log2 + 1 - format.precision ≤
      (numerator / denominator).log2 + 1 := by omega
  have power := Nat.pow_sub_mul_pow 2 exponent
  have high : numerator / denominator < 2 ^ ((numerator / denominator).log2 + 1) :=
    Nat.lt_log2_self
  rw [← power] at high ⊢
  exact nearest_le_mul positive high

theorem nearest_mono (precise : 0 < format.precision) (positive : 0 < denominator)
    (le : numerator ≤ more) :
    format.nearest numerator denominator ≤ format.nearest more denominator := by
  have quotients : numerator / denominator ≤ more / denominator := Nat.div_le_div_right le
  have bits : (numerator / denominator).log2 ≤ (more / denominator).log2 :=
    log2_mono quotients
  rcases Nat.lt_or_eq_of_le bits with fewer | same
  · have some_more : more / denominator ≠ 0 := by
      intro none
      rw [none, Nat.log2_zero] at fewer
      contradiction
    calc format.nearest numerator denominator
      _ ≤ 2 ^ ((numerator / denominator).log2 + 1) := nearest_le_pow precise positive
      _ ≤ 2 ^ (more / denominator).log2 := Nat.pow_le_pow_right Nat.two_pos fewer
      _ ≤ format.nearest more denominator := pow_le_nearest precise positive some_more
  · have one_spacing : format.spacing (numerator / denominator) =
        format.spacing (more / denominator) := by
      rw [spacing_eq, spacing_eq, same]
    rw [nearest_eq, nearest_eq, one_spacing]
    exact Nat.mul_le_mul_right _ (roundedQuotient_mono le)

theorem nearest_le (precise : 0 < format.precision) (positive : 0 < denominator)
    (divides : format.spacing steps ∣ steps) (le : numerator ≤ steps * denominator) :
    format.nearest numerator denominator ≤ steps := by
  have rounded := nearest_mono precise positive le
  rwa [nearest_mul positive divides] at rounded

/-- What a quotient is rounded to is a number of the format, if it is not too large. -/
theorem holds_nearest (precise : 0 < format.precision) (positive : 0 < denominator) :
    format.Holds (format.nearest numerator denominator) ↔
      format.nearest numerator denominator < 2 ^ format.width := by
  suffices divides : format.spacing (format.nearest numerator denominator) ∣
      format.nearest numerator denominator by
    exact and_iff_right (Nat.mod_eq_zero_of_dvd divides)
  have high : format.nearest numerator denominator ≤ 2 ^ ((numerator / denominator).log2 + 1) :=
    nearest_le_pow precise positive
  rcases Nat.lt_or_eq_of_le high with less | power
  · by_cases none : format.nearest numerator denominator = 0
    · rw [none]
      exact Nat.dvd_zero _
    · -- Of no more bits than the quotient, the number has no larger spacing.
      have bits := Nat.lt_succ_iff.mp ((Nat.log2_lt none).mpr less)
      have spacings : format.spacing (format.nearest numerator denominator) ∣
          format.spacing (numerator / denominator) :=
        Nat.pow_dvd_pow 2 (Nat.sub_le_sub_right (Nat.succ_le_succ bits) _)
      exact spacings.trans (Nat.dvd_mul_left _ _)
  · rw [power, spacing_eq, Nat.log2_two_pow]
    exact Nat.pow_dvd_pow 2 (by omega)

/-- A whole number of no more bits than the precision is not rounded, nor is the first of more. -/
theorem nearest_whole (precise : 0 < format.precision) {size : Nat}
    (few : size ≤ 2 ^ format.precision) :
    format.nearest (size * format.one) 1 = size * format.one := by
  have one_eq : format.one = 2 ^ format.unit := rfl
  suffices divides : format.spacing (size * format.one) ∣ size * format.one by
    have exact_quotient := nearest_mul Nat.zero_lt_one divides
    rwa [Nat.mul_one] at exact_quotient
  rw [spacing_eq, one_eq]
  rcases Nat.lt_or_eq_of_le few with fewer | same
  · by_cases none : size = 0
    · rw [none, Nat.zero_mul]
      exact Nat.dvd_zero _
    · have nonzero : size * 2 ^ format.unit ≠ 0 :=
        Nat.mul_ne_zero none (Nat.ne_of_gt (Nat.two_pow_pos _))
      have bits : (size * 2 ^ format.unit).log2 < format.precision + format.unit := by
        rw [Nat.log2_lt nonzero, Nat.pow_add]
        exact Nat.mul_lt_mul_of_pos_right fewer (Nat.two_pow_pos _)
      exact (Nat.pow_dvd_pow 2 (by omega)).trans (Nat.dvd_mul_left _ _)
  · rw [same, ← Nat.pow_add, Nat.log2_two_pow]
    exact Nat.pow_dvd_pow 2 (by omega)

end Format

theorem Magnitude.spacing_dvd {format : Format} (size : Magnitude format) :
    format.spacing size.steps ∣ size.steps :=
  Nat.dvd_of_mod_eq_zero size.holds.1

namespace Floating

variable {format : Format} {x y : Floating format} {a b : Int}

/-- The count of steps of a number, with its sign. An infinite number counts as the first that is
too large for the format. -/
def rank? : Floating format → Option Int
  | .nan => none
  | .infinite negative => some (if negative then -(2 ^ format.width) else 2 ^ format.width)
  | .finite negative size => some (signed negative size)

theorem rank?_eq_none : x.rank? = none ↔ x = .nan := by
  cases x <;> simp [rank?]

theorem ofSteps_ne_nan {negative : Bool} {numerator denominator : Nat} :
    (ofSteps negative numerator denominator : Floating format) ≠ .nan := by
  intro same
  rw [ofSteps] at same
  split at same <;> contradiction

theorem signed_bounds (negative : Bool) (size : Magnitude format) :
    -(2 ^ format.width) < signed negative size ∧ signed negative size < 2 ^ format.width := by
  have small : (size.steps : Int) < 2 ^ format.width := by exact_mod_cast size.holds.2
  rw [signed]
  split <;> omega

theorem compare_eq_none : x.compare y = none ↔ x.rank? = none ∨ y.rank? = none := by
  cases x <;> cases y <;> simp [compare, rank?]

theorem compare_of_rank? (first : x.rank? = some a) (second : y.rank? = some b) :
    x.compare y = some (Ord.compare a b) := by
  have bound : (0 : Int) < 2 ^ format.width := Int.pow_pos (by decide)
  cases x with
  | nan => contradiction
  | infinite p =>
      obtain rfl := Option.some.inj first
      cases y with
      | nan => contradiction
      | infinite q =>
          obtain rfl := Option.some.inj second
          cases p <;> cases q
          · exact congrArg some (Int.compare_eq_eq.mpr rfl).symm
          · exact congrArg some (Int.compare_eq_gt.mpr (by simp)).symm
          · exact congrArg some (Int.compare_eq_lt.mpr (by simp)).symm
          · exact congrArg some (Int.compare_eq_eq.mpr rfl).symm
      | finite q size =>
          obtain rfl := Option.some.inj second
          have bounds := signed_bounds q size
          cases p
          · exact congrArg some (Int.compare_eq_gt.mpr bounds.2).symm
          · exact congrArg some (Int.compare_eq_lt.mpr bounds.1).symm
  | finite p size =>
      obtain rfl := Option.some.inj first
      have bounds := signed_bounds p size
      cases y with
      | nan => contradiction
      | infinite q =>
          obtain rfl := Option.some.inj second
          cases q
          · exact congrArg some (Int.compare_eq_lt.mpr bounds.2).symm
          · exact congrArg some (Int.compare_eq_gt.mpr bounds.1).symm
      | finite q other =>
          obtain rfl := Option.some.inj second
          rfl

theorem equals_of_rank? (first : x.rank? = some a) (second : y.rank? = some b) :
    x.equals y = decide (a = b) := by
  rw [equals, compare_of_rank? first second, Bool.eq_iff_iff, beq_iff_eq, Option.some_inj,
    Int.compare_eq_eq, decide_eq_true_iff]

theorem equals_iff : x.equals y = true ↔ ∃ rank, x.rank? = some rank ∧ y.rank? = some rank := by
  cases first : x.rank? with
  | none => simp [equals, compare_eq_none.mpr (.inl first)]
  | some a =>
      cases second : y.rank? with
      | none => simp [equals, compare_eq_none.mpr (.inr second)]
      | some b => simp [equals_of_rank? first second, eq_comm]

def rankOf (format : Format) (steps : Nat) : Nat := min (format.nearest steps 1) (2 ^ format.width)

theorem rank?_ofSteps (precise : 0 < format.precision) (negative : Bool) (steps : Nat) :
    (ofSteps negative steps 1 : Floating format).rank? =
      some (if negative then -(rankOf format steps : Int) else rankOf format steps) := by
  by_cases held : format.Holds (format.nearest steps 1)
  · have small := (Format.holds_nearest precise Nat.zero_lt_one).mp held
    rw [rankOf, Nat.min_eq_left (Nat.le_of_lt small)]
    simp only [ofSteps, Magnitude.round?, Magnitude.ofSteps?, dif_pos held, rank?, signed]
  · have large := Nat.le_of_not_lt (mt (Format.holds_nearest precise Nat.zero_lt_one).mpr held)
    rw [rankOf, Nat.min_eq_right large]
    simp only [ofSteps, Magnitude.round?, Magnitude.ofSteps?, dif_neg held, rank?]
    norm_cast

theorem rankOf_mono (precise : 0 < format.precision) {steps more : Nat} (le : steps ≤ more) :
    rankOf format steps ≤ rankOf format more := by
  have rounded : format.nearest steps 1 ≤ format.nearest more 1 :=
    Format.nearest_mono precise Nat.zero_lt_one le
  rw [rankOf, rankOf]
  omega

/-- Integers keep their order as floating-point numbers, if not their distance. -/
theorem rank?_ofInt_mono (precise : 0 < format.precision) {number larger : Int}
    (le : number ≤ larger) :
    ∃ a b, (ofInt number : Floating format).rank? = some a ∧
      (ofInt larger : Floating format).rank? = some b ∧ a ≤ b := by
  refine ⟨_, _, rank?_ofSteps precise _ _, rank?_ofSteps precise _ _, ?_⟩
  by_cases negative : larger < 0
  · have both : number < 0 := by omega
    have sizes : larger.natAbs ≤ number.natAbs := by omega
    have ranks := rankOf_mono precise (Nat.mul_le_mul_right format.one sizes)
    simp only [negative, both, decide_true, if_true]
    omega
  · by_cases apart : number < 0
    · simp only [negative, apart, decide_true, decide_false, if_true, Bool.false_eq_true, if_false]
      omega
    · have sizes : number.natAbs ≤ larger.natAbs := by omega
      have ranks := rankOf_mono precise (Nat.mul_le_mul_right format.one sizes)
      simp only [negative, apart, decide_false, Bool.false_eq_true, if_false]
      omega

theorem rank?_ofInt_exact (precise : 0 < format.precision)
    (wide : format.precision + format.unit < format.width) {number : Int}
    (few : number.natAbs ≤ 2 ^ format.precision) :
    (ofInt number : Floating format).rank? = some (number * format.one) := by
  have rounded : rankOf format (number.natAbs * format.one) = number.natAbs * format.one := by
    rw [rankOf, Format.nearest_whole precise few]
    apply Nat.min_eq_left
    calc number.natAbs * format.one
      _ ≤ 2 ^ format.precision * 2 ^ format.unit := Nat.mul_le_mul_right _ few
      _ = 2 ^ (format.precision + format.unit) := (Nat.pow_add _ _ _).symm
      _ ≤ 2 ^ format.width := Nat.pow_le_pow_right Nat.two_pos (Nat.le_of_lt wide)
  rw [ofInt, rank?_ofSteps precise, rounded, Int.natCast_mul]
  by_cases negative : number < 0
  · have size : (number.natAbs : Int) = -number := by omega
    simp only [negative, decide_true, if_true, size, Int.neg_mul, Int.neg_neg]
  · have size : (number.natAbs : Int) = number := by omega
    simp only [negative, decide_false, Bool.false_eq_true, if_false, size]

end Floating
end Rulebook
