import Rulebook.Floating.Decimal
import Rulebook.Proofs.Floating.Order
import Rulebook.Proofs.Text

/-! Decimal texts of floating-point numbers read back.

The digits that a size is written with round to it, whether some grid has them or they are the exact
expansion, and their text is read as the same quotient. A grid is left only for a finer one, and a
whole number is on the grid of the ones: so no digits of it stand behind the point. -/

namespace Rulebook

theorem foldl_digits (digits : List Char) (value : Nat) :
    digits.foldl (fun value digit => value * 10 + (digit.toNat - '0'.toNat)) value =
      value * 10 ^ digits.length + digitsValue digits := by
  induction digits generalizing value with
  | nil => simp [digitsValue]
  | cons digit digits ih =>
      rw [digitsValue, List.foldl_cons, List.foldl_cons, ih, ih (0 * 10 + _), List.length_cons,
        Nat.pow_succ', Nat.zero_mul, Nat.zero_add, Nat.add_mul, Nat.mul_assoc, Nat.add_assoc]

theorem digitsValue_append (front back : List Char) :
    digitsValue (front ++ back) = digitsValue front * 10 ^ back.length + digitsValue back := by
  rw [digitsValue, List.foldl_append, foldl_digits]
  rfl

theorem digitsValue_zeros (count : Nat) : digitsValue (List.replicate count '0') = 0 := by
  induction count with
  | zero => rfl
  | succ count ih => rwa [List.replicate_succ, digitsValue, List.foldl_cons]

inductive DecimalText : List Char → Nat → Nat → Prop where
  | whole {text : List Char} (digits : Digits text) : DecimalText text (digitsValue text) 0
  | pointed {whole fraction : List Char} (digits : Digits whole) (fractional : Digits fraction) :
      DecimalText (whole ++ '.' :: fraction) (digitsValue (whole ++ fraction)) fraction.length

theorem DecimalText.split {digits : List Char} (within : ∀ c ∈ digits, c.isDigit = true)
    {places : Nat} (positive : 0 < places) (room : places < digits.length) :
    DecimalText (digits.take (digits.length - places) ++
      '.' :: digits.drop (digits.length - places)) (digitsValue digits) places := by
  have behind : (digits.drop (digits.length - places)).length = places := by
    rw [List.length_drop]
    omega
  have before : Digits (digits.take (digits.length - places)) := by
    refine ⟨?_, fun c member => within c (List.mem_of_mem_take member)⟩
    rw [← List.length_pos_iff, List.length_take]
    omega
  have after : Digits (digits.drop (digits.length - places)) := by
    refine ⟨?_, fun c member => within c (List.mem_of_mem_drop member)⟩
    rw [← List.length_pos_iff, behind]
    exact positive
  have text := DecimalText.pointed before after
  rwa [List.take_append_drop, behind] at text

namespace Decimal

theorem spanDigits_digits {text : List Char} (digits : Digits text) :
    spanDigits text = (text, []) := by
  rw [spanDigits, List.takeWhile_eq_self_iff.mpr digits.2, List.dropWhile_eq_nil_iff.mpr digits.2]

theorem spanDigits_pointed {whole rest : List Char} (digits : Digits whole) :
    spanDigits (whole ++ '.' :: rest) = (whole, '.' :: rest) := by
  have point : ∀ c ∈ ('.' :: rest).head?, c.isDigit = false := by simp
  rw [spanDigits, takeWhile_append_stop digits.2 point, dropWhile_append_stop digits.2 point]

theorem spanSign_decimal {text : List Char} {coefficient places : Nat}
    (written : DecimalText text coefficient places) : spanSign text = (false, text) := by
  have first : ∃ c rest, text = c :: rest ∧ c.isDigit = true := by
    have front : ∀ {digits : List Char}, Digits digits → ∀ rest : List Char,
        ∃ c others, digits ++ rest = c :: others ∧ c.isDigit = true := by
      intro digits some_digits rest
      cases digits with
      | nil => exact absurd rfl some_digits.1
      | cons c others => exact ⟨c, others ++ rest, rfl, some_digits.2 c List.mem_cons_self⟩
    cases written with
    | whole digits => simpa using front digits []
    | pointed digits => exact front digits _
  obtain ⟨c, rest, rfl, digit⟩ := first
  unfold spanSign
  split <;> simp_all

theorem read?_decimal {text : List Char} {coefficient places : Nat}
    (written : DecimalText text coefficient places) (negative : Bool) :
    read? (if negative then '-' :: text else text) = some ⟨negative, coefficient, -places⟩ := by
  have signed : spanSign (if negative then '-' :: text else text) = (negative, text) := by
    cases negative
    · exact spanSign_decimal written
    · rfl
  rw [read?, signed]
  cases written with
  | whole digits =>
      simp only [spanDigits_digits digits]
      simp [digits.1, readExponent?]
  | pointed digits fractional =>
      simp only [spanDigits_pointed digits, spanDigits_digits fractional]
      simp [digits.1, readExponent?]

end Decimal

namespace Format

variable {format : Format} {numerator : Nat}

theorem nearest_zero (format : Format) {denominator : Nat} (positive : 0 < denominator) :
    format.nearest 0 denominator = 0 := by
  have exact_quotient := nearest_mul positive (Nat.dvd_zero (format.spacing 0))
  rwa [Nat.zero_mul] at exact_quotient

/-- A whole number is rounded to a whole one: between numbers farther apart than by one there is
nothing else, and among closer ones it is a number of the format itself. -/
theorem one_dvd_nearest (whole : format.one ∣ numerator) :
    format.one ∣ format.nearest numerator 1 := by
  have quotient : numerator / 1 = numerator := Nat.div_one numerator
  rcases Nat.le_total format.unit (numerator.log2 + 1 - format.precision) with coarse | fine
  · have spacing : format.one ∣ format.spacing (numerator / 1) := by
      rw [quotient]
      exact Nat.pow_dvd_pow 2 coarse
    exact spacing.trans (Nat.dvd_mul_left _ _)
  · have spacing : format.spacing numerator ∣ format.one := Nat.pow_dvd_pow 2 fine
    have exact_quotient := nearest_mul Nat.zero_lt_one (spacing.trans whole)
    rw [Nat.mul_one] at exact_quotient
    rwa [exact_quotient]

end Format

namespace Magnitude

variable {format : Format} {size : Magnitude format}

theorem ext_steps {other : Magnitude format} (same : size.steps = other.steps) : size = other := by
  rcases size with ⟨steps, holds⟩
  subst same
  rfl

theorem one_dvd_of_large (large : 2 ^ format.precision * format.one ≤ size.steps) :
    format.one ∣ size.steps := by
  have power : 2 ^ (format.precision + format.unit) ≤ size.steps := by
    rwa [Nat.pow_add]
  have nonzero : size.steps ≠ 0 := Nat.ne_of_gt (Nat.lt_of_lt_of_le (Nat.two_pow_pos _) power)
  have bits := (Nat.le_log2 nonzero).mpr power
  have spacing : format.one ∣ format.spacing size.steps := Nat.pow_dvd_pow 2 (by omega)
  exact spacing.trans size.spacing_dvd

def Digits.RoundsTo (decimal : Digits) (size : Magnitude format) : Prop :=
  format.nearest (decimal.digits * (gridUnit format decimal.exponent).1)
    (gridUnit format decimal.exponent).2 = size.steps

theorem gridUnit_neg (places : Nat) :
    gridUnit format (-places) = (format.one, 10 ^ places) := by
  cases places with
  | zero => exact congrArg (·, 1) (Nat.one_mul format.one)
  | succ places => rfl

theorem roundsTo_onGrid {exponent : Int} {digits : Nat}
    (found : size.onGrid? exponent = some digits) :
    Digits.RoundsTo ⟨digits, exponent⟩ size := by
  simp only [onGrid?] at found
  split at found
  · rename_i below above
    rw [beq_iff_eq] at below above
    obtain rfl := Option.some.inj found
    split
    · exact above
    · exact below
  · rename_i below _
    obtain rfl := Option.some.inj found
    exact beq_iff_eq.mp below
  · rename_i above
    obtain rfl := Option.some.inj found
    exact beq_iff_eq.mp above
  · contradiction

theorem roundsTo_expansion (size : Magnitude format) :
    Digits.RoundsTo ⟨size.steps * Nat.pow 5 format.unit, -format.unit⟩ size := by
  have tens : size.steps * Nat.pow 5 format.unit * format.one = size.steps * 10 ^ format.unit :=
    calc size.steps * 5 ^ format.unit * 2 ^ format.unit
      _ = size.steps * (5 ^ format.unit * 2 ^ format.unit) := Nat.mul_assoc _ _ _
      _ = size.steps * 10 ^ format.unit := by rw [← Nat.mul_pow]
  rw [Digits.RoundsTo, gridUnit_neg, tens]
  exact Format.nearest_mul (Nat.pow_pos (by decide)) size.spacing_dvd

theorem onGrid?_ones (whole : format.one ∣ size.steps) : size.onGrid? 0 ≠ none := by
  have ones : gridUnit format 0 = (format.one, 1) := gridUnit_neg 0
  have below : size.steps / format.one * format.one = size.steps := Nat.div_mul_cancel whole
  have rounds : format.nearest size.steps 1 = size.steps := by
    have exact_quotient := Format.nearest_mul Nat.zero_lt_one size.spacing_dvd
    rwa [Nat.mul_one] at exact_quotient
  simp only [onGrid?, ones, Nat.mul_one, below, rounds, beq_self_eq_true]
  split <;> simp_all

/-- Wherever the search for digits starts, what it finds is rounded to the size, and ends where the
exact expansion does or earlier. -/
theorem digitsFrom_spec {grids : Nat} {exponent : Int} (reach : exponent - grids = -format.unit) :
    (size.digitsFrom grids exponent).RoundsTo size ∧
      -(format.unit : Int) ≤ (size.digitsFrom grids exponent).exponent := by
  induction grids generalizing exponent with
  | zero => exact ⟨size.roundsTo_expansion, Int.le_refl _⟩
  | succ grids ih =>
      rw [digitsFrom]
      split
      · rename_i digits found
        refine ⟨roundsTo_onGrid found, ?_⟩
        dsimp only
        omega
      · apply ih
        omega

theorem digitsFrom_whole (whole : format.one ∣ size.steps) {grids : Nat} {exponent : Int}
    (natural : 0 ≤ exponent) (reach : exponent - grids = -format.unit) :
    0 ≤ (size.digitsFrom grids exponent).exponent := by
  induction grids generalizing exponent with
  | zero =>
      have unit : -(format.unit : Int) = exponent := by omega
      exact unit ▸ natural
  | succ grids ih =>
      rw [digitsFrom]
      split
      · exact natural
      · rename_i missing
        have later : exponent ≠ 0 := by
          rintro rfl
          exact onGrid?_ones whole missing
        apply ih <;> omega

theorem shortest_roundsTo (size : Magnitude format) : size.shortest.RoundsTo size :=
  (digitsFrom_spec (by omega)).1

theorem shortest_reach (size : Magnitude format) : -(format.unit : Int) ≤ size.shortest.exponent :=
  (digitsFrom_spec (by omega)).2

/-- The shortest digits end before the point just if the number is whole. -/
theorem shortest_whole_iff : 0 ≤ size.shortest.exponent ↔ format.one ∣ size.steps := by
  constructor
  · intro natural
    obtain ⟨places, exponent⟩ := Int.eq_ofNat_of_zero_le natural
    have rounds := size.shortest_roundsTo
    rw [Digits.RoundsTo, exponent] at rounds
    rw [← rounds]
    exact Format.one_dvd_nearest ((Nat.dvd_mul_left _ _).mul_left _)
  · intro whole
    exact digitsFrom_whole whole (Int.natCast_nonneg _) (by omega)

theorem Digits.written (format : Format) (decimal : Digits) :
    ∃ coefficient places, DecimalText decimal.positional.toList coefficient places ∧
      coefficient * format.one = decimal.digits * (gridUnit format decimal.exponent).1 ∧
      10 ^ places = (gridUnit format decimal.exponent).2 ∧ places = (-decimal.exponent).toNat := by
  rcases decimal with ⟨digits, places | places⟩
  · have zeros : ∀ c ∈ List.replicate places '0', c.isDigit = true := isDigit_replicate rfl places
    have text := DecimalText.whole ((digits_toDigits digits).append zeros)
    refine ⟨_, 0, by simpa [positional] using text, ?_, rfl, by simp⟩
    rw [digitsValue_append, digitsValue_zeros, digitsValue_toDigits, List.length_replicate,
      Nat.add_zero, Nat.mul_assoc]
    rfl
  · -- The zeros in front leave at least one digit before the point.
    let zeros := List.replicate (places + 2 - (Nat.toDigits 10 digits).length) '0'
    have within : ∀ c ∈ zeros ++ Nat.toDigits 10 digits, c.isDigit = true := by
      intro c member
      rcases List.mem_append.mp member with zero | digit
      · exact isDigit_replicate rfl _ c zero
      · exact (digits_toDigits digits).2 c digit
    have value : digitsValue (zeros ++ Nat.toDigits 10 digits) = digits := by
      rw [digitsValue_append, digitsValue_zeros, digitsValue_toDigits, Nat.zero_mul, Nat.zero_add]
    have room : places + 1 < (zeros ++ Nat.toDigits 10 digits).length := by
      rw [List.length_append, List.length_replicate]
      omega
    have text := DecimalText.split within (Nat.succ_pos places) room
    rw [value] at text
    exact ⟨digits, places + 1, by simpa [positional, zeros] using text, rfl, rfl, rfl⟩

end Magnitude

namespace Floating

variable {format : Format} {size : Magnitude format} {negative : Bool} {text : List Char}
  {coefficient places : Nat}

theorem ofSteps_of_nearest {numerator denominator : Nat}
    (rounds : format.nearest numerator denominator = size.steps) :
    ofSteps negative numerator denominator = .finite negative size := by
  rw [ofSteps, Magnitude.round?, rounds, Magnitude.ofSteps?, dif_pos size.holds]

theorem ofDecimal_of_nearest (reach : places ≤ format.width)
    (rounds : format.nearest (coefficient * format.one) (10 ^ places) = size.steps) :
    ofDecimal format ⟨negative, coefficient, -places⟩ = .finite negative size := by
  by_cases none : coefficient = 0
  · rw [none, Nat.zero_mul, format.nearest_zero (Nat.pow_pos (by decide))] at rounds
    have zero : size = Magnitude.zero format := Magnitude.ext_steps rounds.symm
    rw [ofDecimal, if_pos none, zero]
    rfl
  · rw [ofDecimal, if_neg none]
    cases places with
    | zero =>
        have quotient : coefficient * Nat.pow 10 0 * format.one = coefficient * format.one :=
          congrArg (· * format.one) (Nat.mul_one coefficient)
        refine (if_neg (Nat.not_lt_zero _)).trans ?_
        exact (congrArg (ofSteps negative · 1) quotient).trans (ofSteps_of_nearest rounds)
    | succ places =>
        refine (if_neg ?_).trans (ofSteps_of_nearest rounds)
        omega

theorem ofText?_decimal (written : DecimalText text coefficient places)
    (reach : places ≤ format.width)
    (rounds : format.nearest (coefficient * format.one) (10 ^ places) = size.steps) :
    ofText? format (if negative then '-' :: text else text) = some (.finite negative size) := by
  rw [ofText?, Decimal.read?_decimal written]
  exact congrArg some (ofDecimal_of_nearest reach rounds)

theorem ofDecimal_cases (format : Format) (decimal : Decimal) :
    ofDecimal format decimal = .infinite decimal.negative ∨
      ∃ size, ofDecimal format decimal = .finite decimal.negative size := by
  have rounded : ∀ numerator denominator : Nat,
      (ofSteps decimal.negative numerator denominator : Floating format) =
          .infinite decimal.negative ∨
        ∃ size : Magnitude format,
          ofSteps decimal.negative numerator denominator = .finite decimal.negative size := by
    intro numerator denominator
    rw [ofSteps]
    cases Magnitude.round? format numerator denominator with
    | none => exact .inl rfl
    | some size => exact .inr ⟨size, rfl⟩
  rw [ofDecimal]
  split
  · exact .inr ⟨_, rfl⟩
  · split
    · split
      · exact .inl rfl
      · exact rounded _ _
    · split
      · exact .inr ⟨_, rfl⟩
      · exact rounded _ _

theorem ofText?_pointed (format : Format) {whole fraction : List Char} (digits : Digits whole)
    (fractional : Digits fraction) :
    ∃ number : Floating format, ofText? format (whole ++ '.' :: fraction) = some number ∧
      (number = .infinite false ∨ ∃ size, number = .finite false size) := by
  have read := Decimal.read?_decimal (.pointed digits fractional) false
  simp only [Bool.false_eq_true, if_false] at read
  refine ⟨_, ?_, ofDecimal_cases format ⟨false, digitsValue (whole ++ fraction), -fraction.length⟩⟩
  rw [ofText?, read]

theorem shortest_written (negative : Bool) (size : Magnitude format) :
    ∃ text coefficient places,
      (shortest (.finite negative size)).toList = (if negative then '-' :: text else text) ∧
      DecimalText text coefficient places ∧
      format.nearest (coefficient * format.one) (10 ^ places) = size.steps ∧
      places ≤ format.unit ∧ (places = 0 ↔ format.one ∣ size.steps) := by
  by_cases none : size.steps = 0
  · refine ⟨['0'], 0, 0, ?_, .whole (by simp [Digits]), ?_, Nat.zero_le _, ?_⟩
    · cases negative <;> simp [shortest, none]
    · rw [none, Nat.zero_mul]
      exact format.nearest_zero Nat.zero_lt_one
    · simp [none]
  · obtain ⟨coefficient, places, written, numerator, denominator, behind⟩ :=
      size.shortest.written format
    refine ⟨_, coefficient, places, ?_, written, ?_, ?_, ?_⟩
    · cases negative <;> simp [shortest, none]
    · rw [numerator, denominator]
      exact size.shortest_roundsTo
    · have reach := size.shortest_reach
      omega
    · rw [← Magnitude.shortest_whole_iff]
      omega

/-- Every number reads back from its shortest text. -/
theorem ofText?_shortest (deep : format.unit ≤ format.width) (x : Floating format) :
    ofText? format x.shortest.toList = some x := by
  cases x with
  | nan => simp [shortest, ofText?, Decimal.read?, spanSign, spanDigits]
  | infinite negative =>
      cases negative <;> simp [shortest, ofText?, Decimal.read?, spanSign, spanDigits]
  | finite negative size =>
      obtain ⟨text, coefficient, places, signed, written, rounds, reach, -⟩ :=
        shortest_written negative size
      rw [signed]
      exact ofText?_decimal written (reach.trans deep) rounds

end Floating

end Rulebook
