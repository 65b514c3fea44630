import Rulebook.Value.Operations

namespace Rulebook

inductive Arity where
  | unary | binary
  deriving DecidableEq, Repr

def Arity.name : Arity → String
  | .unary => "unary"
  | .binary => "binary"

inductive Category where
  | arithmetic | comparison | logical | unary
  deriving DecidableEq, Repr

inductive Operation where
  | unary (run : Value → Result Value)
  | binary (run : Value → Value → Result Value)

/-- An operator. The larger its precedence, the closer it binds. -/
structure Operator where
  symbol : String
  precedence : Nat
  category : Category
  operation : Operation

namespace Precedence

def disjunction : Nat := 1
def conjunction : Nat := 2
def equality : Nat := 3
def comparison : Nat := 4
def addition : Nat := 5
def multiplication : Nat := 6
def unary : Nat := 7

end Precedence

namespace Operator

def ofUnary (symbol : String) (precedence : Nat) (run : Value → Result Value) : Operator :=
  ⟨symbol, precedence, .unary, .unary run⟩

def ofBinary (symbol : String) (precedence : Nat) (category : Category)
    (run : Value → Value → Result Value) : Operator :=
  ⟨symbol, precedence, category, .binary run⟩

def arity (operator : Operator) : Arity :=
  match operator.operation with
  | .unary _ => .unary
  | .binary _ => .binary

/-- What tells operators apart: `-` is two of them. -/
def key (operator : Operator) : String × Arity := (operator.symbol, operator.arity)

def applyUnary (operator : Operator) (operand : Value) : Result Value :=
  match operator.operation with
  | .unary run => run operand
  | .binary _ => .error (.unsupportedOperator operator.symbol Arity.unary.name)

def applyBinary (operator : Operator) (left right : Value) : Result Value :=
  match operator.operation with
  | .binary run => run left right
  | .unary _ => .error (.unsupportedOperator operator.symbol Arity.binary.name)

def arithmeticOperators : List Operator :=
  [ofBinary "+" Precedence.addition .arithmetic Value.add,
    ofBinary "-" Precedence.addition .arithmetic Value.subtract,
    ofBinary "*" Precedence.multiplication .arithmetic Value.multiply,
    ofBinary "/" Precedence.multiplication .arithmetic Value.divide,
    ofBinary "%" Precedence.multiplication .arithmetic Value.modulo]

def comparisonOperators : List Operator :=
  [ofBinary "<" Precedence.comparison .comparison Value.less,
    ofBinary "<=" Precedence.comparison .comparison Value.lessEqual,
    ofBinary ">" Precedence.comparison .comparison Value.greater,
    ofBinary ">=" Precedence.comparison .comparison Value.greaterEqual,
    ofBinary "==" Precedence.equality .comparison fun left right =>
      .ok (.boolean (left.equals right)),
    ofBinary "!=" Precedence.equality .comparison fun left right =>
      .ok (.boolean (!left.equals right))]

def logicalOperators : List Operator :=
  [ofBinary "&&" Precedence.conjunction .logical Value.conjunction,
    ofBinary "||" Precedence.disjunction .logical Value.disjunction]

def unaryOperators : List Operator :=
  [ofUnary "!" Precedence.unary Value.negation, ofUnary "-" Precedence.unary Value.negate]

def standard : List Operator :=
  arithmeticOperators ++ comparisonOperators ++ logicalOperators ++ unaryOperators

end Operator
end Rulebook
