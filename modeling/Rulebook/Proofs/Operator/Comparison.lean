import Rulebook.Operator.Set
import Rulebook.Proofs.Floating.Order
import Rulebook.Proofs.Steps

/-! The six standard comparisons, as one order.

A number of any kind has the rank that it has as a 64-bit floating-point number; `nan` has none.
Numbers compare as their ranks do, and what is left is a fact about integers. A value that is no
number is in no order, and equals just itself. -/

namespace Rulebook

namespace Value

variable {value left right third : Value} {a b : Int}

def IsNaN (value : Value) : Prop := value = .single .nan ∨ value = .double .nan

instance (value : Value) : Decidable value.IsNaN := inferInstanceAs (Decidable (_ ∨ _))

def rank? (value : Value) : Option Int := value.asDouble?.bind Floating.rank?

theorem isSome_asDouble? (value : Value) : value.asDouble?.isSome = value.isNumeric := by
  cases value <;> rfl

theorem asDouble?_eq_none : value.asDouble? = none ↔ value.isNumeric = false := by
  rw [← isSome_asDouble?, Option.isSome_eq_false_iff, Option.isNone_iff_eq_none]

theorem exists_asDouble? (numeric : value.isNumeric) : ∃ number, value.asDouble? = some number := by
  rw [← isSome_asDouble?] at numeric
  exact Option.isSome_iff_exists.mp numeric

theorem asDouble?_eq_nan : value.asDouble? = some .nan ↔ value.IsNaN := by
  have integer (number : Int) : (Floating.ofInt number : Double) ≠ .nan := Floating.ofSteps_ne_nan
  cases value with
  | null | boolean | text => simp [asDouble?, IsNaN]
  | int | long => simp [asDouble?, IsNaN, integer]
  | single number =>
      cases number with
      | nan => simp [asDouble?, IsNaN, Floating.widen, Floating.convert]
      | infinite => simp [asDouble?, IsNaN, Floating.widen, Floating.convert]
      | finite negative size =>
          have widened : Floating.widen (.finite negative size) ≠ .nan := Floating.ofSteps_ne_nan
          simp [asDouble?, IsNaN, widened]
  | double number => simp [asDouble?, IsNaN]

theorem rank?_eq_none : value.rank? = none ↔ value.isNumeric = false ∨ value.IsNaN := by
  rw [rank?, ← asDouble?_eq_none, ← asDouble?_eq_nan]
  cases value.asDouble? with
  | none => simp
  | some number => simp [Floating.rank?_eq_none]

theorem exists_rank? (numeric : value.isNumeric) (number : ¬value.IsNaN) :
    ∃ rank, value.rank? = some rank := by
  apply Option.ne_none_iff_exists'.mp
  intro none_of
  rcases rank?_eq_none.mp none_of with other | nan
  · exact Bool.false_ne_true (other.symm.trans numeric)
  · exact number nan

theorem compare_of_rank? (first : left.rank? = some a) (second : right.rank? = some b)
    (operator : String) (accepts : Ordering → Bool) :
    compare operator accepts left right = .ok (.boolean (accepts (Ord.compare a b))) := by
  rcases Option.bind_eq_some_iff.mp first with ⟨x, read, rank⟩
  rcases Option.bind_eq_some_iff.mp second with ⟨y, read_other, rank_other⟩
  simp only [compare, doubles, read, read_other, ok_bind]
  rw [Floating.compare_of_rank? rank rank_other, Option.any_some]

theorem compare_decides (first : left.rank? = some a) (second : right.rank? = some b)
    {operator : String} {accepts : Ordering → Bool} {holds : Prop} [Decidable holds]
    (accepted : accepts (Ord.compare a b) = true ↔ holds) :
    compare operator accepts left right = .ok (.boolean (decide holds)) := by
  have verdict : accepts (Ord.compare a b) = decide holds := by
    rw [Bool.eq_iff_iff, accepted, decide_eq_true_iff]
  rw [compare_of_rank? first second, verdict]

theorem compare_of_isNaN (numeric : left.isNumeric) (other : right.isNumeric)
    (nan : left.IsNaN ∨ right.IsNaN) (operator : String) (accepts : Ordering → Bool) :
    compare operator accepts left right = .ok (.boolean false) := by
  rcases exists_asDouble? numeric with ⟨x, read⟩
  rcases exists_asDouble? other with ⟨y, read_other⟩
  have unordered : x.compare y = none := by
    rw [Floating.compare_eq_none, Floating.rank?_eq_none, Floating.rank?_eq_none]
    rw [← asDouble?_eq_nan, ← asDouble?_eq_nan, read, read_other] at nan
    exact nan.imp Option.some.inj Option.some.inj
  simp only [compare, doubles, read, read_other, ok_bind]
  rw [unordered, Option.any_none]

theorem compare_succeeds_iff (operator : String) (accepts : Ordering → Bool) (left right : Value) :
    (∃ value, compare operator accepts left right = .ok value) ↔
      left.isNumeric ∧ right.isNumeric := by
  rw [← isSome_asDouble?, ← isSome_asDouble?, compare, doubles]
  cases left.asDouble? <;> cases right.asDouble? <;> simp

theorem equals_of_asDouble? {x y : Double} (read : left.asDouble? = some x)
    (read_other : right.asDouble? = some y) : left.equals right = x.equals y := by
  unfold equals
  split
  · contradiction
  · contradiction
  · contradiction
  · rw [read, read_other]

theorem equals_of_not_numeric (other : left.isNumeric = false ∨ right.isNumeric = false) :
    left.equals right = decide (left = right) := by
  have unread : left.asDouble? = none ∨ right.asDouble? = none := by
    rwa [asDouble?_eq_none, asDouble?_eq_none]
  unfold equals
  split
  · rfl
  · simp [beq_eq_decide]
  · simp [beq_eq_decide]
  · rename_i not_null not_boolean not_text
    have apart : left ≠ right := by
      intro same
      rw [← same, or_self] at other
      cases left with
      | null => exact not_null rfl same.symm
      | boolean flag => exact not_boolean flag flag rfl same.symm
      | text content => exact not_text content content rfl same.symm
      | int | long | single | double => contradiction
    rw [decide_eq_false apart]
    rcases unread with unread | unread
    · rw [unread]
    · rw [unread]
      cases left.asDouble? <;> rfl

/-- Two values are equal if they are one value that is no number, or numbers of one rank. -/
theorem equals_iff : left.equals right = true ↔
    (left = right ∧ left.isNumeric = false) ∨
      ∃ rank, left.rank? = some rank ∧ right.rank? = some rank := by
  by_cases numeric : left.isNumeric ∧ right.isNumeric
  · rcases exists_asDouble? numeric.1 with ⟨x, read⟩
    rcases exists_asDouble? numeric.2 with ⟨y, read_other⟩
    rw [equals_of_asDouble? read read_other, Floating.equals_iff, rank?, rank?, read, read_other]
    simp [numeric.1]
  · have other : left.isNumeric = false ∨ right.isNumeric = false := by
      rwa [not_and_or, Bool.not_eq_true, Bool.not_eq_true] at numeric
    rw [equals_of_not_numeric other, decide_eq_true_iff]
    constructor
    · intro same
      rw [← same, or_self] at other
      exact .inl ⟨same, other⟩
    · rintro (⟨same, -⟩ | ⟨rank, first, second⟩)
      · exact same
      · rcases other with other | other
        · rw [rank?_eq_none.mpr (.inl other)] at first
          contradiction
        · rw [rank?_eq_none.mpr (.inl other)] at second
          contradiction

theorem equals_of_rank? (first : left.rank? = some a) (second : right.rank? = some b) :
    left.equals right = decide (a = b) := by
  rw [Bool.eq_iff_iff, equals_iff, decide_eq_true_iff]
  constructor
  · rintro (⟨-, other⟩ | ⟨rank, rank_left, rank_right⟩)
    · rw [rank?_eq_none.mpr (.inl other)] at first
      contradiction
    · rw [rank_left] at first
      rw [rank_right] at second
      exact (Option.some.inj first).symm.trans (Option.some.inj second)
  · rintro rfl
    exact .inr ⟨a, first, second⟩

theorem equals_symm (same : left.equals right = true) : right.equals left = true := by
  rw [equals_iff] at same ⊢
  rcases same with ⟨rfl, other⟩ | ⟨rank, first, second⟩
  · exact .inl ⟨rfl, other⟩
  · exact .inr ⟨rank, second, first⟩

theorem equals_comm (left right : Value) : left.equals right = right.equals left :=
  Bool.eq_iff_iff.mpr ⟨equals_symm, equals_symm⟩

theorem equals_trans (first : left.equals right = true) (second : right.equals third = true) :
    left.equals third = true := by
  rcases equals_iff.mp first with ⟨rfl, -⟩ | ⟨rank, rank_left, rank_right⟩
  · exact second
  · rcases equals_iff.mp second with ⟨rfl, -⟩ | ⟨other, rank_right', rank_third⟩
    · exact first
    · rw [rank_right] at rank_right'
      obtain rfl := Option.some.inj rank_right'
      exact equals_iff.mpr (.inr ⟨rank, rank_left, rank_third⟩)

theorem equals_self_iff : value.equals value = true ↔ ¬value.IsNaN := by
  rw [equals_iff]
  constructor
  · rintro (⟨-, other⟩ | ⟨rank, held, -⟩) nan
    · rw [← asDouble?_eq_none, asDouble?_eq_nan.mpr nan] at other
      contradiction
    · rw [rank?_eq_none.mpr (.inr nan)] at held
      contradiction
  · intro number
    by_cases numeric : value.isNumeric
    · rcases exists_rank? numeric number with ⟨rank, held⟩
      exact .inr ⟨rank, held, held⟩
    · exact .inl ⟨rfl, Bool.eq_false_of_not_eq_true numeric⟩

theorem equals_of_isNaN (nan : left.IsNaN ∨ right.IsNaN) : left.equals right = false := by
  -- What is equal to anything is equal to itself.
  rcases nan with nan | nan
  · refine Bool.eq_false_of_not_eq_true fun same => ?_
    exact equals_self_iff.mp (equals_trans same (equals_symm same)) nan
  · refine Bool.eq_false_of_not_eq_true fun same => ?_
    exact equals_self_iff.mp (equals_trans (equals_symm same) same) nan

theorem rank?_of_asInteger? {number : Int} (read : value.asInteger? = some number) :
    value.rank? = (Floating.ofInt number : Double).rank? := by
  have double : value.asDouble? = some (.ofInt number) := by
    cases value with
    | int | long => rw [← Option.some.inj read, asDouble?]
    | null | boolean | single | double | text => contradiction
  rw [rank?, double, Option.bind_some]

end Value

namespace Comparison

def compared (symbol : String) (left right : Value) : Result Value := do
  let operator ← OperatorSet.standard.lookup symbol .binary
  operator.applyBinary left right

def Says (symbol : String) (left right : Value) (verdict : Bool) : Prop :=
  compared symbol left right = .ok (.boolean verdict)

instance (symbol : String) (left right : Value) (verdict : Bool) :
    Decidable (Says symbol left right verdict) :=
  inferInstanceAs (Decidable (_ = _))

section

variable {left right : Value} {verdict : Bool}

theorem says_equal (left right : Value) : Says "==" left right (left.equals right) := rfl

theorem says_unequal (left right : Value) : Says "!=" left right (!left.equals right) := rfl

theorem says_equal_iff : Says "==" left right verdict ↔ left.equals right = verdict := by
  rw [Says, says_equal, Except.ok.injEq, Value.boolean.injEq]

def orderSymbols : List String := ["<", "<=", ">", ">="]

theorem exists_accepts {symbol : String} (member : symbol ∈ orderSymbols) :
    ∃ accepts, compared symbol = Value.compare symbol accepts := by
  simp only [orderSymbols, List.mem_cons, List.not_mem_nil, or_false] at member
  rcases member with rfl | rfl | rfl | rfl
  · exact ⟨Ordering.isLT, rfl⟩
  · exact ⟨Ordering.isLE, rfl⟩
  · exact ⟨Ordering.isGT, rfl⟩
  · exact ⟨Ordering.isGE, rfl⟩

structure SaysAs (left right : Value) (a b : Int) : Prop where
  less : Says "<" left right (decide (a < b))
  less_equal : Says "<=" left right (decide (a ≤ b))
  greater : Says ">" left right (decide (b < a))
  greater_equal : Says ">=" left right (decide (b ≤ a))
  equal : Says "==" left right (decide (a = b))
  unequal : Says "!=" left right (decide (a ≠ b))

theorem saysAs_rank {a b : Int} (first : left.rank? = some a) (second : right.rank? = some b) :
    SaysAs left right a b := by
  have same : left.equals right = decide (a = b) := Value.equals_of_rank? first second
  exact {
    less := Value.compare_decides first second <| by
      rw [Ordering.isLT_iff_eq_lt, Int.compare_eq_lt]
    less_equal := Value.compare_decides first second Int.isLE_compare
    greater := Value.compare_decides first second <| by
      rw [Ordering.isGT_iff_eq_gt, Int.compare_eq_gt]
    greater_equal := Value.compare_decides first second Int.isGE_compare
    equal := says_equal_iff.mpr same
    unequal := by rw [decide_not, ← same]; exact says_unequal left right }

theorem SaysAs.unscaled {a b scale : Int} (positive : 0 < scale)
    (verdicts : SaysAs left right (a * scale) (b * scale)) : SaysAs left right a b := by
  have less (x y : Int) : decide (x * scale < y * scale) = decide (x < y) :=
    decide_eq_decide.mpr (Int.mul_lt_mul_right positive)
  have at_most (x y : Int) : decide (x * scale ≤ y * scale) = decide (x ≤ y) :=
    decide_eq_decide.mpr (Int.mul_le_mul_right positive)
  have same : decide (a * scale = b * scale) = decide (a = b) :=
    decide_eq_decide.mpr (Int.mul_eq_mul_right_iff (Int.ne_of_gt positive))
  exact {
    less := less a b ▸ verdicts.less
    less_equal := at_most a b ▸ verdicts.less_equal
    greater := less b a ▸ verdicts.greater
    greater_equal := at_most b a ▸ verdicts.greater_equal
    equal := same ▸ verdicts.equal
    unequal := by
      have apart := verdicts.unequal
      rwa [decide_not, same, ← decide_not] at apart }

def OneOfThree (left right : Value) : Prop :=
  ∃ less equal greater, [less, equal, greater].count true = 1 ∧
    Says "<" left right less ∧ Says "==" left right equal ∧ Says ">" left right greater ∧
    Says "<=" left right (less || equal) ∧ Says ">=" left right (greater || equal) ∧
    Says ">" right left less ∧ Says "<" right left greater

theorem SaysAs.oneOfThree {a b : Int} (verdicts : SaysAs left right a b)
    (swapped : SaysAs right left b a) : OneOfThree left right := by
  have at_most : decide (a ≤ b) = (decide (a < b) || decide (a = b)) := by
    simp [Int.le_iff_lt_or_eq]
  have at_least : decide (b ≤ a) = (decide (b < a) || decide (a = b)) := by
    simp [Int.le_iff_lt_or_eq, eq_comm]
  refine ⟨_, _, _, ?_, verdicts.less, verdicts.equal, verdicts.greater,
    at_most ▸ verdicts.less_equal, at_least ▸ verdicts.greater_equal, swapped.greater,
    swapped.less⟩
  rcases Int.lt_trichotomy a b with less | rfl | greater
  · simp [less, Int.ne_of_lt less, Int.le_of_lt less]
  · simp
  · simp [greater, Int.ne_of_gt greater, Int.le_of_lt greater]

theorem says_of_isNaN (nan : left.IsNaN ∨ right.IsNaN) (numeric : left.isNumeric)
    (other : right.isNumeric) {symbol : String} (member : symbol ∈ orderSymbols) :
    Says symbol left right false := by
  rcases exists_accepts member with ⟨accepts, same⟩
  rw [Says, same]
  exact Value.compare_of_isNaN numeric other nan symbol accepts

section

variable {x y : Int} (read : left.asInteger? = some x) (read_other : right.asInteger? = some y)
include read read_other

theorem saysAs_asInteger (few : x.natAbs ≤ 2 ^ 53) (few_other : y.natAbs ≤ 2 ^ 53) :
    SaysAs left right x y := by
  have first := Value.rank?_of_asInteger? read
  have second := Value.rank?_of_asInteger? read_other
  rw [Floating.rank?_ofInt_exact (by decide) (by decide) few] at first
  rw [Floating.rank?_ofInt_exact (by decide) (by decide) few_other] at second
  exact (saysAs_rank first second).unscaled (Int.natCast_pos.mpr (Format.one_pos _))

theorem says_of_lt (less : x < y) : Says "<=" left right true ∧ Says ">" left right false := by
  have ordered : ∃ a b, (Floating.ofInt x : Double).rank? = some a ∧
      (Floating.ofInt y : Double).rank? = some b ∧ a ≤ b :=
    Floating.rank?_ofInt_mono (by decide) (Int.le_of_lt less)
  rcases ordered with ⟨a, b, rank, rank_other, le⟩
  rw [← Value.rank?_of_asInteger? read] at rank
  rw [← Value.rank?_of_asInteger? read_other] at rank_other
  have verdicts := saysAs_rank rank rank_other
  have at_most := verdicts.less_equal
  have not_above := verdicts.greater
  rw [decide_eq_true le] at at_most
  rw [decide_eq_false (Int.not_lt.mpr le)] at not_above
  exact ⟨at_most, not_above⟩

end

end

/-- The comparisons of two values belong to one order. -/
structure Coherent (left right : Value) : Prop where
  /-- Numbers are asked for their order, and nothing else is. -/
  ordered : ∀ symbol ∈ orderSymbols,
    (∃ value, compared symbol left right = .ok value) ↔ left.isNumeric ∧ right.isNumeric
  /-- All values are asked whether they are equal, and being unequal is the contrary. -/
  unequal : ∃ equal, Says "==" left right equal ∧ Says "!=" left right (!equal)
  numbers : left.isNumeric → right.isNumeric → ¬left.IsNaN → ¬right.IsNaN → OneOfThree left right
  /-- With `nan` all is denied but being unequal. -/
  nan : left.IsNaN ∨ right.IsNaN →
    Says "==" left right false ∧ Says "!=" left right true ∧
      (left.isNumeric → right.isNumeric → ∀ symbol ∈ orderSymbols, Says symbol left right false)
  symmetric : ∀ equal, Says "==" left right equal ↔ Says "==" right left equal
  transitive : ∀ third, Says "==" left right true → Says "==" right third true →
    Says "==" left third true
  reflexive : Says "==" left left true ↔ ¬left.IsNaN
  /-- Integers of few enough bits are compared exactly. -/
  integers : ∀ x y, left.asInteger? = some x → right.asInteger? = some y →
    x.natAbs ≤ 2 ^ 53 → y.natAbs ≤ 2 ^ 53 → SaysAs left right x y
  /-- Other integers can be taken for equal, but are not put in the contrary order. -/
  integers_apart : ∀ x y, left.asInteger? = some x → right.asInteger? = some y →
    x < y → Says "<=" left right true ∧ Says ">" left right false

theorem operators_coherent (left right : Value) : Coherent left right where
  ordered := by
    intro symbol member
    rcases exists_accepts member with ⟨accepts, same⟩
    rw [same]
    exact Value.compare_succeeds_iff symbol accepts left right
  unequal := ⟨_, says_equal left right, says_unequal left right⟩
  numbers := by
    intro numeric other number other_number
    rcases Value.exists_rank? numeric number with ⟨a, first⟩
    rcases Value.exists_rank? other other_number with ⟨b, second⟩
    exact (saysAs_rank first second).oneOfThree (saysAs_rank second first)
  nan := by
    intro nan
    have apart : left.equals right = false := Value.equals_of_isNaN nan
    have denied := says_unequal left right
    rw [apart] at denied
    exact ⟨says_equal_iff.mpr apart, denied,
      fun numeric other _ member => says_of_isNaN nan numeric other member⟩
  symmetric := by
    intro equal
    rw [says_equal_iff, says_equal_iff, Value.equals_comm]
  transitive := by
    intro third
    simp only [says_equal_iff]
    exact Value.equals_trans
  reflexive := says_equal_iff.trans Value.equals_self_iff
  integers := fun _ _ read read_other => saysAs_asInteger read read_other
  integers_apart := fun _ _ read read_other => says_of_lt read read_other

/-- The first integer that is no 64-bit floating-point number is taken for the one before. -/
example :
    Says "==" (.long 9007199254740992) (.long 9007199254740993) true ∧
      Says "<" (.long 9007199254740992) (.long 9007199254740993) false := by
  decide +kernel

end Rulebook.Comparison
