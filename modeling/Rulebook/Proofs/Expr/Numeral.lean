import Rulebook.Expr.Parser
import Rulebook.Proofs.Text

namespace Rulebook

theorem int32?_toInt (number : Int32) : int32? number.toInt = some number := by
  have low := Int32.le_toInt number
  have high := Int32.toInt_lt number
  rw [int32?, if_pos (by omega), Int32.ofInt_toInt]

theorem int64?_toInt (number : Int64) : int64? number.toInt = some number := by
  have low := Int64.le_toInt number
  have high := Int64.toInt_lt number
  rw [int64?, if_pos (by omega), Int64.ofInt_toInt]

theorem int32?_of_wide {number : Int} (wide : 0x7fffffff < number) : int32? number = none := by
  rw [int32?, if_neg (by omega)]

theorem Parser.numberValue?_digits {text : List Char} (digits : Digits text) :
    numberValue? (String.ofList text) = Value.ofInteger? (digitsValue text) := by
  have no_point : '.' ∉ text := by
    intro point
    have digit := digits.2 '.' point
    contradiction
  rw [numberValue?, String.toList_ofList, if_neg (mt List.contains_iff_mem.mp no_point),
    readInt?_eq_some.mpr (.unsigned digits), Option.bind_some]

namespace Value

def Natural (value : Value) : Prop :=
  ∃ number : Nat, value.render = String.ofList (Nat.toDigits 10 number) ∧
    ofInteger? number = some value

theorem natural_int {number : Int32} (natural : 0 ≤ number.toInt) : (int number).Natural := by
  obtain ⟨digits, same⟩ := Int.eq_ofNat_of_zero_le natural
  refine ⟨digits, ?_, ?_⟩
  · rw [render, same]
    rfl
  · rw [← same, ofInteger?, int32?_toInt]
    rfl

theorem natural_long {number : Int64} (wide : 0x7fffffff < number.toInt) :
    (long number).Natural := by
  have natural : 0 ≤ number.toInt := by omega
  obtain ⟨digits, same⟩ := Int.eq_ofNat_of_zero_le natural
  refine ⟨digits, ?_, ?_⟩
  · rw [render, same]
    rfl
  · rw [← same, ofInteger?, int32?_of_wide wide, int64?_toInt]
    rfl

theorem Natural.isDigit {value : Value} (natural : value.Natural) :
    ∀ c ∈ value.render.toList, c.isDigit = true := by
  rcases natural with ⟨number, text, -⟩
  rw [text, String.toList_ofList]
  exact (digits_toDigits number).2

theorem Natural.render_ne_empty {value : Value} (natural : value.Natural) : value.render ≠ "" := by
  rcases natural with ⟨number, text, -⟩
  rw [text, ne_eq, ← String.toList_eq_nil_iff, String.toList_ofList]
  exact Nat.toDigits_ne_nil

theorem Natural.read {value : Value} (natural : value.Natural) :
    Parser.numberValue? value.render = some value := by
  rcases natural with ⟨number, text, narrowest⟩
  rw [text, Parser.numberValue?_digits (digits_toDigits number), digitsValue_toDigits, narrowest]

end Value

end Rulebook
