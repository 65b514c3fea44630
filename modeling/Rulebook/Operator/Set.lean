import Rulebook.Operator
import Rulebook.Roster

namespace Rulebook

abbrev OperatorSet := Roster Operator.key

namespace OperatorSet

def empty : OperatorSet := Roster.empty Operator.key

def standard : OperatorSet := Roster.ofList Operator.key Operator.standard

/-- Adds an operator. It replaces the one with its symbol and its number of operands. -/
def register (operators : OperatorSet) (operator : Operator) : OperatorSet :=
  Roster.put operators operator

def lookup? (operators : OperatorSet) (symbol : String) (arity : Arity) : Option Operator :=
  Roster.get? operators (symbol, arity)

def lookup (operators : OperatorSet) (symbol : String) (arity : Arity) : Result Operator :=
  match operators.lookup? symbol arity with
  | some operator => .ok operator
  | none => .error (.unsupportedOperator symbol arity.name)

def knows (operators : OperatorSet) (symbol : String) : Bool :=
  (operators.lookup? symbol .unary).isSome || (operators.lookup? symbol .binary).isSome

def symbols (operators : OperatorSet) : List String :=
  sortedNames (operators.items.map Operator.symbol)

/-- The operators of a category by ascending symbol; under one symbol the one of two operands comes
first. -/
def ofCategory (operators : OperatorSet) (category : Category) : List Operator :=
  let ofArity (arity : Arity) := operators.items.filter fun operator => operator.arity = arity
  ((ofArity .binary ++ ofArity .unary).filter fun operator => operator.category = category).mergeSort
    fun a b => a.symbol ≤ b.symbol

end OperatorSet
end Rulebook
