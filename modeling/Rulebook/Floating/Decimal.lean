import Rulebook.Floating
import Rulebook.Text

/-!
Decimal numbers and floating-point ones. Reading takes the nearest number. Writing takes the fewest
digits that read back as the same number, so that what is written is never ambiguous.
-/

namespace Rulebook.Floating

variable {format : Format}

/-- The number nearest to a decimal one. The two early answers keep the powers of ten small: past
`width` places the result is infinite, and that far below the last digit it is zero. -/
def ofDecimal (format : Format) (decimal : Decimal) : Floating format :=
  let coefficient := decimal.coefficient
  if coefficient = 0 then zero decimal.negative
  else match decimal.exponent with
    | .ofNat places =>
      if format.width < places then .infinite decimal.negative
      else ofSteps decimal.negative (coefficient * Nat.pow 10 places * format.one) 1
    | .negSucc places =>
      if format.width + coefficient.log2 < places then zero decimal.negative
      else ofSteps decimal.negative (coefficient * format.one) (Nat.pow 10 (places + 1))

def ofText? (format : Format) (text : List Char) : Option (Floating format) :=
  match Decimal.read? text with
  | some decimal => some (ofDecimal format decimal)
  | none =>
    let (negative, word) := spanSign text
    match String.ofList (word.map Char.toLower) with
    | "inf" | "infinity" => some (.infinite negative)
    | "nan" => some .nan
    | _ => none

end Rulebook.Floating

namespace Rulebook.Magnitude

variable {format : Format}

structure Digits where
  digits : Nat
  exponent : Int
  deriving DecidableEq, Repr

def gridUnit (format : Format) : Int → Nat × Nat
  | .ofNat places => (Nat.pow 10 places * format.one, 1)
  | .negSucc places => (format.one, Nat.pow 10 (places + 1))

/-- Of the two neighbours of a size on a decimal grid, one that reads back as that size: the nearer
one if both do, and of two equally near ones the larger. -/
def onGrid? (size : Magnitude format) (exponent : Int) : Option Nat :=
  let (numerator, denominator) := gridUnit format exponent
  let readsBack (digits : Nat) : Bool :=
    format.nearest (digits * numerator) denominator == size.steps
  let below := size.steps * denominator / numerator
  let upper := (2 * below + 1) * numerator ≤ 2 * size.steps * denominator
  match readsBack below, readsBack (below + 1) with
  | true, true => some (if upper then below + 1 else below)
  | true, false => some below
  | false, true => some (below + 1)
  | false, false => none

/-- The digits of a size on the coarsest grid, from `exponent` down, that has some. The last resort
is the exact expansion, which ends `unit` places after the point. -/
def digitsFrom (size : Magnitude format) : (grids : Nat) → (exponent : Int) → Digits
  | 0, _ => ⟨size.steps * Nat.pow 5 format.unit, -format.unit⟩
  | grids + 1, exponent =>
    match size.onGrid? exponent with
    | some digits => ⟨digits, exponent⟩
    | none => size.digitsFrom grids (exponent - 1)

def shortest (size : Magnitude format) : Digits :=
  let places := (Nat.toDigits 10 (size.steps / format.one)).length
  size.digitsFrom (places + format.unit) places

end Rulebook.Magnitude

namespace Rulebook.Magnitude.Digits

def positional (decimal : Digits) : String :=
  let digits := Nat.toDigits 10 decimal.digits
  match decimal.exponent with
  | .ofNat places => String.ofList (digits ++ List.replicate places '0')
  | .negSucc places =>
    let padded := List.replicate (places + 2 - digits.length) '0' ++ digits
    let whole := padded.length - (places + 1)
    String.ofList (padded.take whole ++ '.' :: padded.drop whole)

end Rulebook.Magnitude.Digits

namespace Rulebook.Floating

variable {format : Format}

def shortest : Floating format → String
  | .nan => "NaN"
  | .infinite negative => if negative then "-inf" else "inf"
  | .finite negative size =>
    let digits := if size.steps = 0 then "0" else size.shortest.positional
    if negative then "-" ++ digits else digits

end Rulebook.Floating
