/-!
Binary floating-point numbers, exactly.

Every finite number of a format is a whole number of its smallest step, so a finite number is held
as that count and no exponent is stored. An operation works out the exact quotient it stands for
and rounds once, to the nearest number of the format, a tie going to the even one.
-/

namespace Rulebook

/-- A format: how many significant bits a number has, below how many bits its count of steps
stays, and how many doublings of the step make one. -/
structure Format where
  precision : Nat
  width : Nat
  unit : Nat
  deriving DecidableEq, Repr

namespace Format

def double : Format := ⟨53, 2098, 1074⟩

def single : Format := ⟨24, 277, 149⟩

def one (format : Format) : Nat := Nat.pow 2 format.unit

/-- The distance between neighbouring numbers of the format around `steps`. -/
def spacing (format : Format) (steps : Nat) : Nat :=
  Nat.pow 2 (steps.log2 + 1 - format.precision)

def Holds (format : Format) (steps : Nat) : Prop :=
  steps % format.spacing steps = 0 ∧ steps < Nat.pow 2 format.width

instance (format : Format) (steps : Nat) : Decidable (format.Holds steps) :=
  inferInstanceAs (Decidable (_ ∧ _))

/-- The multiple of the local spacing nearest to `numerator / denominator`, the even one of two
that are equally near. It can reach past the largest number of the format. -/
def nearest (format : Format) (numerator denominator : Nat) : Nat :=
  let spacing := format.spacing (numerator / denominator)
  let divisor := denominator * spacing
  let below := numerator / divisor
  let beyond := numerator % divisor
  let up := divisor < 2 * beyond ∨ (2 * beyond = divisor ∧ below % 2 = 1)
  (if up then below + 1 else below) * spacing

end Format

structure Magnitude (format : Format) where
  steps : Nat
  holds : format.Holds steps
  deriving DecidableEq

namespace Magnitude

def zero (format : Format) : Magnitude format :=
  ⟨0, Nat.zero_mod _, Nat.two_pow_pos _⟩

instance (format : Format) : Inhabited (Magnitude format) := ⟨zero format⟩

def ofSteps? (format : Format) (steps : Nat) : Option (Magnitude format) :=
  if holds : format.Holds steps then some ⟨steps, holds⟩ else none

def round? (format : Format) (numerator denominator : Nat) : Option (Magnitude format) :=
  ofSteps? format (format.nearest numerator denominator)

end Magnitude

/-- A floating-point number. Zero has both signs; there is one number that is not a number. -/
inductive Floating (format : Format) where
  | nan
  | infinite (negative : Bool)
  | finite (negative : Bool) (size : Magnitude format)
  deriving DecidableEq

abbrev Double := Floating Format.double

abbrev Single := Floating Format.single

namespace Floating

variable {format : Format}

def zero (negative : Bool) : Floating format := .finite negative (.zero format)

instance : Inhabited (Floating format) := ⟨zero false⟩

def isNaN : Floating format → Bool
  | .nan => true
  | _ => false

def isFinite : Floating format → Bool
  | .finite .. => true
  | _ => false

def isInfinite : Floating format → Bool
  | .infinite _ => true
  | _ => false

def ofSteps (negative : Bool) (numerator denominator : Nat) : Floating format :=
  match Magnitude.round? format numerator denominator with
  | some size => .finite negative size
  | none => .infinite negative

def signed (negative : Bool) (size : Magnitude format) : Int :=
  if negative then -(size.steps : Int) else size.steps

/-- Numbers compare as the counts they hold, so the two zeros are equal; `nan` compares with
nothing. -/
def compare : Floating format → Floating format → Option Ordering
  | .nan, _ | _, .nan => none
  | .infinite a, .infinite b => some (Ord.compare b a)
  | .infinite negative, .finite .. => some (if negative then .lt else .gt)
  | .finite .., .infinite negative => some (if negative then .gt else .lt)
  | .finite p a, .finite q b => some (Ord.compare (signed p a) (signed q b))

def equals (x y : Floating format) : Bool := x.compare y == some .eq

def whole? : Floating format → Option Int
  | .finite negative size =>
    if size.steps % format.one = 0 then
      let whole : Int := ↑(size.steps / format.one)
      some (if negative then -whole else whole)
    else none
  | _ => none

end Floating
end Rulebook
