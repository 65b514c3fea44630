import Rulebook.Floating.Decimal
import Rulebook.Text
import Rulebook.Toml

namespace Rulebook.Toml

def digits? (base : Nat) : List Char → Option (List Char)
  | [] => none
  | [c] => if isDigitOf base c then some [c] else none
  | c :: '_' :: rest => if isDigitOf base c then (digits? base rest).map (c :: ·) else none
  | c :: rest => if isDigitOf base c then (digits? base rest).map (c :: ·) else none

def wholeDigits? (text : List Char) : Option (List Char) := do
  let digits ← digits? 10 text
  if digits.head? = some '0' ∧ digits ≠ ['0'] then none else some digits

def base? : Char → Option Nat
  | 'x' => some 16
  | 'o' => some 8
  | 'b' => some 2
  | _ => none

def signedInteger? (text : List Char) : Option Int64 := do
  let (negative, unsigned) := spanSign text
  let size : Int := digitsValue (← wholeDigits? unsigned)
  int64? (if negative then -size else size)

/-- Reads an integer: a decimal one with an optional sign, or one of another base without. -/
def integer? : List Char → Option Int64
  | '0' :: letter :: rest =>
    match base? letter with
    | some base => do int64? (← readBased? base (← digits? base rest))
    | none => signedInteger? ('0' :: letter :: rest)
  | text => signedInteger? text

def isDigitPart (c : Char) : Bool := c.isDigit || c = '_'

def fraction? : List Char → Option (List Char × List Char)
  | '.' :: rest => do return (← digits? 10 (rest.takeWhile isDigitPart), rest.dropWhile isDigitPart)
  | text => some ([], text)

def exponent? : List Char → Option Int
  | [] => some 0
  | letter :: rest => do
    let (negative, unsigned) := spanSign rest
    let size : Int := digitsValue (← digits? 10 unsigned)
    if letter = 'e' ∨ letter = 'E' then some (if negative then -size else size) else none

def real? (text : List Char) : Option Double :=
  let (negative, unsigned) := spanSign text
  if unsigned = ['i', 'n', 'f'] then some (.infinite negative)
  else if unsigned = ['n', 'a', 'n'] then some .nan
  else do
    let whole ← wholeDigits? (unsigned.takeWhile isDigitPart)
    let afterWhole := unsigned.dropWhile isDigitPart
    let (fraction, afterFraction) ← fraction? afterWhole
    let exponent ← exponent? afterFraction
    let number : Double := .ofDecimal .double
      ⟨negative, digitsValue (whole ++ fraction), exponent - fraction.length⟩
    if afterWhole.isEmpty || number.isInfinite then none else some number

end Rulebook.Toml
