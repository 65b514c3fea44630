namespace Rulebook

inductive OperatorSign where
  | plus | minus | star | slash | percent
  | less | lessEqual | greater | greaterEqual | equal | notEqual
  | and | or | not
  deriving DecidableEq, Repr

namespace OperatorSign

def symbol : OperatorSign → String
  | .plus => "+"
  | .minus => "-"
  | .star => "*"
  | .slash => "/"
  | .percent => "%"
  | .less => "<"
  | .lessEqual => "<="
  | .greater => ">"
  | .greaterEqual => ">="
  | .equal => "=="
  | .notEqual => "!="
  | .and => "&&"
  | .or => "||"
  | .not => "!"

def isUnary : OperatorSign → Bool
  | .not | .minus => true
  | _ => false

end OperatorSign

inductive Token.Kind where
  | number | text | boolean | identifier
  | operator (sign : OperatorSign)
  | leftParen | rightParen | leftBracket | rightBracket | dot
  | ending | invalid
  deriving DecidableEq, Repr

/-- A token stands `position` bytes into the text. Its lexeme is what is written there, for a text
literal without the quotes. -/
structure Token where
  kind : Token.Kind
  lexeme : String
  position : Nat
  deriving DecidableEq, Repr

namespace Token

def endingAt (position : Nat) : Token := ⟨.ending, "", position⟩

def sign? (token : Token) : Option OperatorSign :=
  match token.kind with
  | .operator sign => some sign
  | _ => none

def symbol? (token : Token) : Option String := token.sign?.map OperatorSign.symbol

def isOperator (token : Token) : Bool := token.sign?.isSome

def isUnaryOperator (token : Token) : Bool := token.sign?.any OperatorSign.isUnary

def isLiteral (token : Token) : Bool :=
  token.kind = .number || token.kind = .text || token.kind = .boolean

def render (token : Token) : String :=
  if token.kind = .ending then "输入结束" else "'" ++ token.lexeme ++ "'"

end Token
end Rulebook
