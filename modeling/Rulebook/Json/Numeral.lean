import Rulebook.Json
import Rulebook.Text

/-!
The numbers of JSON texts.

An integer that fits 64 bits is taken exactly. Of any other number the leading digits are taken
whose value stays below `2 ^ 64`; the rest count as zeros before the point and are dropped after
it. The power of ten is then applied by one rounded multiplication or division, or, for very small
numbers, by several divisions.
-/

namespace Rulebook

structure JsonNumeral where
  negative : Bool
  whole : List Char
  fraction : List Char
  exponent : Option Int
  deriving DecidableEq, Repr

namespace JsonNumeral

def significandBound : Nat := 0x10000000000000000

/-- Takes digits from the front of a run while their value stays in bounds. Gives the value and how
many digits are left over. -/
def takeDigits (significand : Nat) : List Char → Nat × Nat
  | [] => (significand, 0)
  | digit :: rest =>
    let grown := significand * 10 + (digit.toNat - '0'.toNat)
    if grown < significandBound then takeDigits grown rest else (significand, rest.length + 1)

def largestStep : Nat := 308

def powerOfTen (exponent : Nat) : Double :=
  .ofDecimal .double ⟨false, 1, exponent⟩

def shrink (number : Double) (places : Nat) : Double :=
  if places ≤ largestStep then number.div (powerOfTen places)
  else if number.equals (.zero false) then number
  else shrink (number.div (powerOfTen largestStep)) (places - largestStep)
  termination_by places
  decreasing_by
    unfold largestStep at *
    omega

def scale? (number : Double) : Int → Option Double
  | .negSucc places => some (shrink number (places + 1))
  | .ofNat places =>
    if number.equals (.zero false) then some number
    else if places ≤ largestStep then
      let scaled := number.mul (powerOfTen places)
      if scaled.isFinite then some scaled else none
    else none

def real? (numeral : JsonNumeral) : Option Double :=
  let (whole, dropped) := takeDigits 0 numeral.whole
  let (significand, left) := takeDigits whole numeral.fraction
  let places : Int := (dropped : Int) - (numeral.fraction.length - left : Nat)
  (scale? (.ofInt significand) (places + numeral.exponent.getD 0)).map fun number =>
    if numeral.negative then number.neg else number

/-- The number as an exact integer, if it is written as one and fits 64 bits: positive numbers
without a sign, negative ones with it. Minus zero is no integer. -/
def integer? (numeral : JsonNumeral) : Option Int :=
  let size := digitsValue numeral.whole
  if !numeral.fraction.isEmpty || numeral.exponent.isSome then none
  else if numeral.negative then
    if 0 < size ∧ size ≤ 0x8000000000000000 then some (-(size : Int)) else none
  else if size < 0x10000000000000000 then some size
  else none

def value? (numeral : JsonNumeral) : Option Json :=
  match numeral.integer? with
  | some number => some (.integer number)
  | none => numeral.real?.map .real

end JsonNumeral
end Rulebook
