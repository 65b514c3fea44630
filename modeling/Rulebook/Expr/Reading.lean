import Rulebook.Failure
import Rulebook.Expr

namespace Rulebook.Expr

structure Measured where
  tree : Expr
  height : Nat
  height_eq : height = tree.height

namespace Measured

def literal (value : Value) (kind : LiteralForm) : Measured := ⟨.literal value kind, 1, rfl⟩
def name (id : String) : Measured := ⟨.name id, 1, rfl⟩
def feature (path : String) : Measured := ⟨.feature path, 1, rfl⟩

def unary (sign : OperatorSign) (operand : Measured) : Measured :=
  ⟨.unary sign.symbol operand.tree, operand.height + 1, by rw [operand.height_eq]; rfl⟩

def binary (left : Measured) (sign : OperatorSign) (right : Measured) : Measured :=
  ⟨.binary left.tree sign.symbol right.tree, max left.height right.height + 1, by
    rw [left.height_eq, right.height_eq]; rfl⟩

end Measured

/-- What was read, the position of the last token read, and the tokens after it. -/
structure Reading (α : Type) (bound : Nat) where
  item : α
  last : Nat
  rest : List Token
  shorter : rest.length < bound

namespace Reading

variable {α β : Type} {bound wider : Nat}

def map (f : α → β) (reading : Reading α bound) : Reading β bound :=
  ⟨f reading.item, reading.last, reading.rest, reading.shorter⟩

def widen (reading : Reading α bound) (h : bound ≤ wider) : Reading α wider :=
  ⟨reading.item, reading.last, reading.rest, Nat.lt_of_lt_of_le reading.shorter h⟩

end Reading

abbrev Reader (α : Type) := (tokens : List Token) → Except SyntaxError (Reading α tokens.length)

end Rulebook.Expr
