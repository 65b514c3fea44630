import Rulebook.Floating.Arithmetic
import Rulebook.Floating.Decimal
import Rulebook.Text

namespace Rulebook

inductive Scalar where
  | flag (isOn : Bool)
  | integer (number : Int64)
  | real (number : Double)
  | text (content : String)
  deriving DecidableEq

namespace Scalar

def toText : Scalar → String
  | .flag isOn => if isOn then "true" else "false"
  | .integer number => toString number.toInt
  | .real number => number.shortest
  | .text content => content

def word? (content : String) : Option Bool :=
  match content.toLower with
  | "true" | "on" | "yes" => some true
  | "false" | "off" | "no" => some false
  | _ => none

def toFlag? : Scalar → Option Bool
  | .flag isOn => some isOn
  | .integer number => some (number.toInt ≠ 0)
  | .real number => some (!number.equals (.zero false))
  | .text content =>
    match content with
    | "1" => some true
    | "0" => some false
    | _ => word? content

/-- The whole number nearest to a number, a half going up, within 64 bits. -/
def roundToNat : Double → Nat
  | .nan | .infinite true | .finite true _ => 0
  | .infinite false => 0xffffffffffffffff
  | .finite false size =>
    min 0xffffffffffffffff ((2 * size.steps + Format.double.one) / (2 * Format.double.one))

def natural? (content : String) : Option Nat :=
  match content.toList with
  | '-' :: _ => none
  | digits => (readInt? digits).bind fun number =>
    if number < 0x10000000000000000 then some number.toNat else none

def toNat? : Scalar → Option Nat
  | .flag isOn => some isOn.toNat
  | .integer number => if 0 ≤ number.toInt then some number.toInt.toNat else none
  | .real number => some (roundToNat number)
  | .text content =>
    match word? content with
    | some isOn => some isOn.toNat
    | none => natural? content

def ofText (content : String) : Scalar :=
  match content.toLower with
  | "true" => .flag true
  | "false" => .flag false
  | _ =>
    match (readInt? content.toList).bind int64? with
    | some number => .integer number
    | none =>
      match Floating.ofText? .double content.toList with
      | some number => .real number
      | none => .text content

end Scalar

end Rulebook
