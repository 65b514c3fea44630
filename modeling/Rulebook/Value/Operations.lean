import Rulebook.Failure
import Rulebook.Value

/-!
Arithmetic on values, comparing them, and joining truth values. Two 32-bit integers give a 32-bit
one, or a 64-bit one where that is too narrow; integers of which one has 64 bits give a 64-bit one or
overflow; with a floating-point operand the result is a 64-bit floating-point number. Numbers of all
kinds compare as 64-bit floating-point numbers; nothing is ever taken for a truth value but a boolean.
-/

namespace Rulebook.Value

def describePair (left right : Value) : String :=
  left.kind.name ++ " 和 " ++ right.kind.name

def doubles (operator : String) (left right : Value) : Result (Double × Double) :=
  match left.asDouble?, right.asDouble? with
  | some a, some b => .ok (a, b)
  | _, _ => .error (.typeMismatch operator .numeric (describePair left right))

def integerResult (operator : String) (left right : Value) (result : Int) : Result Value :=
  let narrow := if left.kind = .int32 ∧ right.kind = .int32 then int32? result else none
  match narrow, int64? result with
  | some number, _ => .ok (.int number)
  | none, some number => .ok (.long number)
  | none, none => .error (.overflow operator)

def numeric (operator : String) (whole : Int → Int → Int) (floating : Double → Double → Double)
    (left right : Value) : Result Value := do
  let (a, b) ← doubles operator left right
  match left.asInteger?, right.asInteger? with
  | some x, some y => integerResult operator left right (whole x y)
  | _, _ => .ok (.double (floating a b))

def add (left right : Value) : Result Value :=
  if left.isNull || right.isNull then
    .error (.typeMismatch "+" .numericOrText (describePair left right))
  else if left.isText || right.isText then .ok (.text (left.render ++ right.render))
  else numeric "+" (· + ·) Floating.add left right

def subtract (left right : Value) : Result Value := numeric "-" (· - ·) Floating.sub left right

def multiply (left right : Value) : Result Value := numeric "*" (· * ·) Floating.mul left right

def divide (left right : Value) : Result Value := do
  let (a, b) ← doubles "/" left right
  if b.equals (.zero false) then .error (.arithmetic "/" .zeroDivisor)
  else
    let quotient := a.div b
    if quotient.isNaN then .error (.arithmetic "/" .notANumber)
    else if quotient.isInfinite then .error (.arithmetic "/" .infinite)
    else .ok (.double quotient)

/-- Remainder, with the sign of the dividend. Of integers it is exact, and fits because it is no
larger than the dividend. -/
def modulo (left right : Value) : Result Value := do
  let (a, b) ← doubles "%" left right
  if b.equals (.zero false) then .error (.arithmetic "%" .zeroDivisor)
  else
    match left.asInteger?, right.asInteger? with
    | some x, some y => integerResult "%" left right (x.tmod y)
    | _, _ =>
      let rest := a.rem b
      if rest.isNaN then .error (.arithmetic "%" .notANumber) else .ok (.double rest)

/-- The number with the other sign. The least 32-bit integer gives a 64-bit one; the least 64-bit
integer has no counterpart and stays itself. -/
def negate : Value → Result Value
  | .int number =>
    match int32? (-number.toInt) with
    | some negated => .ok (.int negated)
    | none => .ok (.long (Int64.ofInt (-number.toInt)))
  | .long number => .ok (.long (-number))
  | .single number => .ok (.single number.neg)
  | .double number => .ok (.double number.neg)
  | other => .error (.typeMismatch "-" .numeric other.kind.name)

/-- Null equals null alone, numbers equal numbers of any kind by size, and otherwise equal values
have one kind and one content. -/
def equals : Value → Value → Bool
  | .null, .null => true
  | .boolean a, .boolean b => a == b
  | .text a, .text b => a == b
  | left, right =>
    match left.asDouble?, right.asDouble? with
    | some a, some b => a.equals b
    | _, _ => false

def compare (operator : String) (accepts : Ordering → Bool) (left right : Value) : Result Value := do
  let (a, b) ← doubles operator left right
  .ok (.boolean ((a.compare b).any accepts))

def less : Value → Value → Result Value := compare "<" Ordering.isLT
def lessEqual : Value → Value → Result Value := compare "<=" Ordering.isLE
def greater : Value → Value → Result Value := compare ">" Ordering.isGT
def greaterEqual : Value → Value → Result Value := compare ">=" Ordering.isGE

def logical (operator : String) (join : Bool → Bool → Bool) (left right : Value) : Result Value :=
  match left, right with
  | .boolean a, .boolean b => .ok (.boolean (join a b))
  | _, _ => .error (.typeMismatch operator .boolean (describePair left right))

def conjunction : Value → Value → Result Value := logical "&&" and
def disjunction : Value → Value → Result Value := logical "||" or

def negation : Value → Result Value
  | .boolean flag => .ok (.boolean (!flag))
  | other => .error (.typeMismatch "!" .boolean other.kind.name)

end Rulebook.Value
