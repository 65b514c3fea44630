import Rulebook.Text

namespace Rulebook.Toml

structure Date where
  year : Nat
  month : Nat
  day : Nat
  deriving DecidableEq, Repr

/-- A time of day, without seconds if they are not given. The digits are those of the fraction of a
second. -/
structure Clock where
  hour : Nat
  minute : Nat
  second : Option Nat
  digits : List Char
  deriving DecidableEq, Repr

def padded (width number : Nat) : String :=
  let digits := Nat.toDigits 10 number
  String.ofList (List.replicate (width - digits.length) '0' ++ digits)

namespace Date

def isLeap (year : Nat) : Bool :=
  year % 4 = 0 && (year % 100 ≠ 0 || year % 400 = 0)

def days (year : Nat) : (month : Nat) → Nat
  | 2 => if isLeap year then 29 else 28
  | 4 | 6 | 9 | 11 => 30
  | _ => 31

def span? : List Char → Option (Date × List Char)
  | a :: b :: c :: d :: '-' :: e :: f :: '-' :: g :: h :: rest => do
    let date : Date := ⟨← readNat? [a, b, c, d], ← readNat? [e, f], ← readNat? [g, h]⟩
    if 1 ≤ date.month ∧ date.month ≤ 12 ∧ 1 ≤ date.day ∧ date.day ≤ days date.year date.month then
      some (date, rest)
    else none
  | _ => none

def toText (date : Date) : String :=
  padded 4 date.year ++ "-" ++ padded 2 date.month ++ "-" ++ padded 2 date.day

end Date

namespace Clock

def seconds? : List Char → Option ((Option Nat × List Char) × List Char)
  | ':' :: a :: b :: rest => do
    let second ← readNat? [a, b]
    match rest with
    | '.' :: rest =>
      let (digits, rest) := spanDigits rest
      if digits.isEmpty then none else some ((some second, digits), rest)
    | rest => some ((some second, []), rest)
  | rest => some ((none, []), rest)

def span? : List Char → Option (Clock × List Char)
  | a :: b :: ':' :: c :: d :: rest => do
    let ((second, digits), rest) ← seconds? rest
    let clock : Clock := ⟨← readNat? [a, b], ← readNat? [c, d], second, digits⟩
    if clock.hour < 24 ∧ clock.minute < 60 ∧ clock.second.getD 0 ≤ 60 then some (clock, rest) else none
  | _ => none

/-- The digits of a fraction that count: nine at most, without zeros after the last other one. A
fraction of nothing but zeros keeps one. -/
def precise (digits : List Char) : List Char :=
  let counting := ((digits.take 9).reverse.dropWhile (· = '0')).reverse
  if counting.isEmpty then ['0'] else counting

def toText (clock : Clock) : String :=
  padded 2 clock.hour ++ ":" ++ padded 2 clock.minute ++
    (match clock.second with
      | some second => ":" ++ padded 2 second
      | none => "") ++
    (if clock.digits.isEmpty then "" else "." ++ String.ofList (precise clock.digits))

end Clock

def zone? : List Char → Option String
  | [] => some ""
  | ['Z'] | ['z'] => some "Z"
  | [sign, a, b, ':', c, d] => do
    let hours ← readNat? [a, b]
    let minutes ← readNat? [c, d]
    if (sign = '+' ∨ sign = '-') ∧ hours < 24 ∧ minutes < 60 then
      let sign := if sign = '-' ∧ hours + minutes ≠ 0 then "-" else "+"
      some (sign ++ padded 2 hours ++ ":" ++ padded 2 minutes)
    else none
  | _ => none

def moment? (text : List Char) : Option String :=
  match Date.span? text with
  | some (date, []) => some date.toText
  | some (date, mark :: rest) => do
    let (clock, rest) ← Clock.span? rest
    let zone ← zone? rest
    if mark = 'T' ∨ mark = 't' ∨ mark = ' ' then
      some (date.toText ++ "T" ++ clock.toText ++ zone)
    else none
  | none =>
    match Clock.span? text with
    | some (clock, []) => some clock.toText
    | _ => none

end Rulebook.Toml
