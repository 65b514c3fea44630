import Rulebook.Floating

namespace Rulebook

def Format.exponentCodes (format : Format) : Nat :=
  format.width + 3 - format.precision

def Format.fractions (format : Format) : Nat := Nat.pow 2 (format.precision - 1)

namespace Floating

variable {format : Format}

/-- Reads a word. Exponent code zero counts single steps; each further code doubles the spacing. -/
def ofBits (format : Format) (word : Nat) : Floating format :=
  let fraction := word % format.fractions
  let rest := word / format.fractions
  let exponent := rest % format.exponentCodes
  let negative := rest / format.exponentCodes % 2 = 1
  if exponent + 1 = format.exponentCodes then
    if fraction = 0 then .infinite negative else .nan
  else if exponent = 0 then ofSteps negative fraction 1
  else ofSteps negative ((format.fractions + fraction) * Nat.pow 2 (exponent - 1)) 1

def sizeBits (size : Magnitude format) : Nat :=
  if size.steps < format.fractions then size.steps
  else
    let shift := size.steps.log2 + 1 - format.precision
    shift * format.fractions + size.steps / Nat.pow 2 shift

def toBits? (x : Floating format) : Option Nat :=
  let signBit (negative : Bool) := if negative then format.exponentCodes * format.fractions else 0
  match x with
  | .nan => none
  | .infinite negative => some (signBit negative + (format.exponentCodes - 1) * format.fractions)
  | .finite negative size => some (signBit negative + sizeBits size)

end Floating
end Rulebook
