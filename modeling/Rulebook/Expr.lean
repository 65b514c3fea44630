import Rulebook.Value

namespace Rulebook

inductive LiteralForm where
  | number | text | boolean
  deriving DecidableEq, Repr

/-- An expression. A `name` is a rule or a feature at the top level; a `feature` is a path into the
feature data, kept as it is written. Operators are held by symbol, so a tree may use one that is
nowhere defined. -/
inductive Expr where
  | literal (value : Value) (kind : LiteralForm)
  | name (id : String)
  | feature (path : String)
  | unary (operator : String) (operand : Expr)
  | binary (left : Expr) (operator : String) (right : Expr)
  deriving DecidableEq

namespace Expr

instance : Inhabited Expr := ⟨.literal .null .number⟩

def render : Expr → String
  | .literal value .text => "\"" ++ value.render ++ "\""
  | .literal value _ => value.render
  | .name id => id
  | .feature path => path
  | .unary operator operand => operator ++ operand.render
  | .binary left operator right =>
    "(" ++ left.render ++ " " ++ operator ++ " " ++ right.render ++ ")"

def height : Expr → Nat
  | .literal .. | .name _ | .feature _ => 1
  | .unary _ operand => operand.height + 1
  | .binary left _ right => max left.height right.height + 1

def names : Expr → List String
  | .literal .. | .feature _ => []
  | .name id => [id]
  | .unary _ operand => operand.names
  | .binary left _ right => left.names ++ right.names

def paths : Expr → List String
  | .literal .. | .name _ => []
  | .feature path => [path]
  | .unary _ operand => operand.paths
  | .binary left _ right => left.paths ++ right.paths

end Expr
end Rulebook
