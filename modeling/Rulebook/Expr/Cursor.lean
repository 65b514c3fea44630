import Rulebook.Expr.Parser

/-!
Reading an expression with a cursor over its tokens.

An index into one list of tokens moves on, and a count of the groups and signs that are open goes up
and down. Tokens are looked up with and without a check whether there is one, and an open level is
counted down by hand. What goes wrong there is a crash. Calls and loops go as far as a budget lasts.
-/

namespace Rulebook

structure Cursor where
  current : Nat
  nesting : Nat
  deriving DecidableEq, Repr

namespace Cursor

structure Tape where
  tokens : List Token
  limit : Nat

def Tape.ofTokens (depth : Nat) (tokens : List Token) : Tape :=
  ⟨tokens.filter fun token => token.kind ≠ .invalid, max 1 depth⟩

/-- A token is looked up where none is, or a level is counted down from zero. -/
inductive Crash where
  | noToken | noLevel
  deriving DecidableEq, Repr

inductive Outcome (α : Type) where
  | done (item : α) (cursor : Cursor)
  | fault (error : SyntaxError) (cursor : Cursor)
  | crash (cause : Crash)
  | exhausted

def Parse (α : Type) := Tape → Cursor → Outcome α

instance : Monad Parse where
  pure item := fun _ cursor => .done item cursor
  bind first next := fun tape cursor =>
    match first tape cursor with
    | .done item after => next item tape after
    | .fault error after => .fault error after
    | .crash cause => .crash cause
    | .exhausted => .exhausted

namespace Parse

open Rulebook.Expr (Measured)

variable {α : Type}

def exhausted : Parse α := fun _ _ => .exhausted

def fail (fault : SyntaxFault) (position : Nat) : Parse α := fun _ cursor =>
  .fault ⟨fault, position⟩ cursor

def tooDeep (position : Nat) : Parse α := fun tape => fail (.tooDeep tape.limit) position tape

def next? : Parse (Option Token) := fun tape cursor => .done tape.tokens[cursor.current]? cursor

def tokenAt (index : Nat) : Parse Token := fun tape cursor =>
  match tape.tokens[index]? with
  | some token => .done token cursor
  | none => .crash .noToken

def index : Parse Nat := fun _ cursor => .done cursor.current cursor

def moveOn : Parse Unit := fun _ cursor => .done () { cursor with current := cursor.current + 1 }

def isAtEnd : Parse Bool := do
  return (← next?).all fun token => token.kind = .ending

def check (kind : Token.Kind) : Parse Bool := do
  if ← isAtEnd then return false
  else
    let token ← tokenAt (← index)
    return token.kind = kind

def advance : Parse Token := do
  let token ← tokenAt (← index)
  if ← isAtEnd then return token
  else
    moveOn
    return token

def peekPosition : Parse Nat := fun tape cursor =>
  let token := tape.tokens[cursor.current]? <|> tape.tokens.getLast?
  .done ((token.map Token.position).getD 0) cursor

def peekToken : Parse Token := do
  match ← next? with
  | some token => return token
  | none => return .endingAt (← peekPosition)

def previous : Parse Token := do tokenAt ((← index) - 1)

def previousPosition : Parse Nat := fun tape cursor =>
  .done ((tape.tokens[cursor.current - 1]?.map Token.position).getD 0) cursor

def reject (fault : Token → SyntaxFault) : Parse α := do
  let token ← peekToken
  fail (fault token) token.position

def matchKind (kind : Token.Kind) : Parse Bool := do
  if ← check kind then
    let _ ← advance
    return true
  else return false

def matchOperator (signs : List OperatorSign) : Parse (Option OperatorSign) := do
  if ← signs.anyM fun sign => check (.operator sign) then
    match (← peekToken).sign? with
    | some sign =>
      let _ ← advance
      return some sign
    | none => return none
  else return none

def consume (kind : Token.Kind) (fault : Token → SyntaxFault) : Parse Token := do
  if ← check kind then advance else reject fault

def enter (position : Nat) : Parse Unit := fun tape cursor =>
  if tape.limit ≤ cursor.nesting then tooDeep position tape cursor
  else .done () { cursor with nesting := cursor.nesting + 1 }

def leave : Parse Unit := fun _ cursor =>
  match cursor.nesting with
  | 0 => .crash .noLevel
  | nesting + 1 => .done () { cursor with nesting }

/-- Goes through `inner` and then, whether that read something or failed, through `last`. -/
def andThen (inner : Parse α) (last : Parse Unit) : Parse α := fun tape cursor =>
  match inner tape cursor with
  | .done item after => (do last; return item : Parse α) tape after
  | .fault error after => (do last; fail error.fault error.position : Parse α) tape after
  | .crash cause => .crash cause
  | .exhausted => .exhausted

def nested (position : Nat) (inner : Parse α) : Parse α := do
  enter position
  andThen inner leave

def checkHeight (tree : Measured) (position : Nat) : Parse Measured := fun tape cursor =>
  if tape.limit < tree.height then tooDeep position tape cursor else .done tree cursor

def combine (left : Measured) (sign : OperatorSign) (right : Measured) : Parse Measured := do
  checkHeight (left.binary sign right) (← previousPosition)

def signs : Tier → List OperatorSign
  | .disjunction => [.or]
  | .conjunction => [.and]
  | .equality => [.equal, .notEqual]
  | .comparison => [.less, .lessEqual, .greater, .greaterEqual]
  | .sum => [.plus, .minus]
  | .product => [.star, .slash, .percent]

def chain (tier : Tier) (operand : Parse Measured) : (budget : Nat) → Measured → Parse Measured
  | 0, _ => exhausted
  | budget + 1, left => do
    match ← matchOperator (signs tier) with
    | none => return left
    | some sign =>
      let right ← operand
      let joined ← combine left sign right
      chain tier operand budget joined

def level (budget : Nat) (tier : Tier) (operand : Parse Measured) : Parse Measured := do
  let left ← operand
  chain tier operand budget left

def numberLiteral : Parse Measured := do
  let token ← previous
  match Parser.numberValue? token.lexeme with
  | some value => return .literal value .number
  | none => fail (.badNumber token.lexeme) token.position

def subscript : (budget : Nat) → String → Parse String
  | 0, _ => exhausted
  | budget + 1, path => do
    if ← isAtEnd then fail .unclosedIndex (← peekPosition)
    else
      let token ← advance
      if token.kind = .rightBracket then return path
      else subscript budget (path ++ token.lexeme)

def subscripts : (budget : Nat) → String → Parse String
  | 0, _ => exhausted
  | budget + 1, path => do
    if ← matchKind .leftBracket then
      let inner ← subscript budget (path ++ "[")
      subscripts budget (inner ++ "]")
    else return path

def featurePath : (budget : Nat) → String → Parse String
  | 0, _ => exhausted
  | budget + 1, path => do
    if ← matchKind .dot then
      let name ← consume .identifier .expectedName
      let segment ← subscripts budget (path ++ "." ++ name.lexeme)
      featurePath budget segment
    else return path

def named (budget : Nat) : Parse Measured := do
  let name ← previous
  if name.lexeme = featureRoot && (← check .dot) then
    return .feature (← featurePath budget name.lexeme)
  else return .name name.lexeme

def group (inner : Parse Measured) : Parse Measured := do
  let opening ← previous
  let tree ← nested opening.position inner
  let _ ← consume .rightParen .expectedClosing
  return tree

def primaryWith (budget : Nat) (operand : Parse Measured) : Parse Measured := do
  if ← matchKind .number then numberLiteral
  else if ← matchKind .text then
    return .literal (.text (← previous).lexeme) .text
  else if ← matchKind .boolean then
    return .literal (.boolean ((← previous).lexeme = "true")) .boolean
  else if ← matchKind .leftParen then group (Tier.all.foldr (level budget) operand)
  else if ← matchKind .identifier then named budget
  else reject .unexpected

def unaryWith (budget : Nat) (operand : Parse Measured) : Parse Measured := do
  match ← matchOperator [.not, .minus] with
  | some sign =>
    let token ← previous
    let inner ← nested token.position operand
    checkHeight (inner.unary sign) token.position
  | none => primaryWith budget operand

def unary : (budget : Nat) → Parse Measured
  | 0 => exhausted
  | budget + 1 => unaryWith budget (unary budget)

def primary : (budget : Nat) → Parse Measured
  | 0 => exhausted
  | budget + 1 => primaryWith budget (unary budget)

def tiered (budget : Nat) (tiers : List Tier) : Parse Measured :=
  tiers.foldr (level budget) (unary budget)

def whole (budget : Nat) : Parse Expr := do
  if ← isAtEnd then fail .empty (← peekPosition)
  else
    let parsed ← tiered budget Tier.all
    if ← isAtEnd then return parsed.tree else reject .trailing

end Parse

def parse (depth budget : Nat) (tokens : List Token) : Outcome Expr :=
  Parse.whole budget (.ofTokens depth tokens) ⟨0, 0⟩

end Cursor
end Rulebook
