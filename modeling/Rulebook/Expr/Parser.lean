import Rulebook.Expr.Reading
import Rulebook.Roster
import Rulebook.Text
import Rulebook.Token.Lexer

/-!
Reading an expression from its tokens.

Binary operators come in six tiers, the loosest first; each tier groups to the left and takes its
operands from the next one. An operand is a literal, a name, a path, an expression in parentheses,
or an operand after `!` or `-`. Parentheses and those operators nest only as far as a limit goes,
and no tree grows higher than it, so that reading and evaluating a tree need bounded room.
-/

namespace Rulebook

inductive Tier where
  | disjunction | conjunction | equality | comparison | sum | product
  deriving DecidableEq, Repr

def OperatorSign.tier? : OperatorSign → Option Tier
  | .or => some .disjunction
  | .and => some .conjunction
  | .equal | .notEqual => some .equality
  | .less | .lessEqual | .greater | .greaterEqual => some .comparison
  | .plus | .minus => some .sum
  | .star | .slash | .percent => some .product
  | .not => none

def Tier.all : List Tier := [.disjunction, .conjunction, .equality, .comparison, .sum, .product]

def featureRoot : String := "featureMap"

structure Tokens where
  body : List Token
  ending : Nat

namespace Tokens

/-- Leaves out the invalid tokens, and everything from the ending on. Without an ending the tokens
end where the last one stands. -/
def ofList (tokens : List Token) : Tokens :=
  let valid := tokens.filter fun token => token.kind ≠ .invalid
  let isBody (token : Token) : Bool := token.kind ≠ .ending
  let stop := (valid.find? fun token => token.kind = .ending) <|> valid.getLast?
  ⟨valid.takeWhile isBody, (stop.map Token.position).getD 0⟩

end Tokens

structure Parser where
  limit : Nat
  ending : Nat

namespace Parser

open Rulebook.Expr (Measured Reader)

variable (parser : Parser)

def next (tokens : List Token) : Token :=
  (tokens.head?).getD (.endingAt parser.ending)

def reject {α : Type} (fault : Token → SyntaxFault) (tokens : List Token) : Except SyntaxError α :=
  .error ⟨fault (parser.next tokens), (parser.next tokens).position⟩

def tooDeep {α : Type} (position : Nat) : Except SyntaxError α :=
  .error ⟨.tooDeep parser.limit, position⟩

def limitHeight (tree : Measured) (position : Nat) : Except SyntaxError Measured :=
  if parser.limit < tree.height then parser.tooDeep position else .ok tree

/-- Reads further operators of a tier with their operands, and groups what is read to the left. The
height of a group is checked at the last token of its right operand. -/
def chain (tier : Tier) (operand : Reader Measured) (left : Measured) (last : Nat) :
    (tokens : List Token) → Except SyntaxError (Expr.Reading Measured (tokens.length + 1))
  | [] => .ok ⟨left, last, [], Nat.zero_lt_one⟩
  | token :: rest =>
    match token.sign? with
    | none => .ok ⟨left, last, token :: rest, Nat.lt_succ_self _⟩
    | some sign =>
      if sign.tier? = some tier then do
        let right ← operand rest
        let joined ← parser.limitHeight (left.binary sign right.item) right.last
        have := right.shorter
        let whole ← chain tier operand joined right.last right.rest
        return whole.widen (by simp only [List.length_cons]; omega)
      else .ok ⟨left, last, token :: rest, Nat.lt_succ_self _⟩
  termination_by tokens => tokens.length
  decreasing_by simp only [List.length_cons]; omega

def level (tier : Tier) (operand : Reader Measured) : Reader Measured := fun tokens => do
  let first ← operand tokens
  let whole ← parser.chain tier operand first.item first.last first.rest
  return whole.widen first.shorter

def expression (operand : Reader Measured) : Reader Measured :=
  Tier.all.foldr parser.level operand

/-- The value of a number token: with a point a 64-bit floating-point number, without one the
narrower integer that holds it. -/
def numberValue? (lexeme : String) : Option Value :=
  if lexeme.toList.contains '.' then (Floating.ofText? .double lexeme.toList).map .double
  else (readInt? lexeme.toList).bind Value.ofInteger?

/-- Reads the inside of a subscript, up to its closing bracket. Whatever stands there is kept as it
is written. -/
def subscript (text : String) : (tokens : List Token) → Option (Expr.Reading String tokens.length)
  | [] => none
  | token :: rest =>
    if token.kind = .rightBracket then some ⟨text, token.position, rest, Nat.lt_succ_self _⟩
    else (subscript (text ++ token.lexeme) rest).map fun inner => inner.widen (Nat.le_succ _)

def featurePath (path : String) (last : Nat) :
    (tokens : List Token) → Except SyntaxError (Expr.Reading String (tokens.length + 1))
  | [] => .ok ⟨path, last, [], Nat.zero_lt_one⟩
  | token :: rest =>
    if token.kind = .dot then
      match rest with
      | name :: rest =>
        if name.kind = .identifier then do
          let whole ← featurePath (path ++ "." ++ name.lexeme) name.position rest
          return whole.widen (by simp only [List.length_cons]; omega)
        else parser.reject .expectedName (name :: rest)
      | [] => parser.reject .expectedName []
    else if token.kind = .leftBracket then
      match subscript (path ++ "[") rest with
      | none => .error ⟨.unclosedIndex, parser.ending⟩
      | some inner => do
        have := inner.shorter
        let whole ← featurePath (inner.item ++ "]") inner.last inner.rest
        return whole.widen (by simp only [List.length_cons]; omega)
    else .ok ⟨path, last, token :: rest, Nat.lt_succ_self _⟩
  termination_by tokens => tokens.length
  decreasing_by all_goals (simp only [List.length_cons]; omega)

def named (token : Token) (rest : List Token) :
    Except SyntaxError (Expr.Reading Measured (rest.length + 1)) :=
  if token.lexeme = featureRoot ∧ (rest.head?.map Token.kind) = some .dot then do
    let path ← parser.featurePath token.lexeme token.position rest
    return path.map .feature
  else .ok ⟨.name token.lexeme, token.position, rest, Nat.lt_succ_self _⟩

def operandWith (nested : Option (Reader Measured)) : Reader Measured
  | [] => parser.reject .unexpected []
  | token :: rest =>
    let leaf (tree : Measured) : Except SyntaxError (Expr.Reading Measured (rest.length + 1)) :=
      .ok ⟨tree, token.position, rest, Nat.lt_succ_self _⟩
    match token.kind with
    | .number =>
      match numberValue? token.lexeme with
      | some value => leaf (.literal value .number)
      | none => .error ⟨.badNumber token.lexeme, token.position⟩
    | .text => leaf (.literal (.text token.lexeme) .text)
    | .boolean => leaf (.literal (.boolean (token.lexeme = "true")) .boolean)
    | .identifier => parser.named token rest
    | .leftParen =>
      match nested with
      | none => parser.tooDeep token.position
      | some operand => do
        let inner ← parser.expression operand rest
        match inner with
        | ⟨tree, _, close :: after, shorter⟩ =>
          if close.kind = .rightParen then
            return ⟨tree, close.position, after, by
              simp only [List.length_cons] at shorter ⊢; omega⟩
          else parser.reject .expectedClosing (close :: after)
        | ⟨_, _, [], _⟩ => parser.reject .expectedClosing []
    | .operator sign =>
      if sign.isUnary then
        match nested with
        | none => parser.tooDeep token.position
        | some operand => do
          let inner ← operand rest
          let tree ← parser.limitHeight (inner.item.unary sign) token.position
          return ⟨tree, inner.last, inner.rest, Nat.lt_succ_of_lt inner.shorter⟩
      else parser.reject .unexpected (token :: rest)
    | _ => parser.reject .unexpected (token :: rest)

def operand : (room : Nat) → Reader Measured
  | 0 => parser.operandWith none
  | room + 1 => parser.operandWith (some (operand room))

def run (tokens : List Token) : Except SyntaxError Expr :=
  if tokens.isEmpty then .error ⟨.empty, parser.ending⟩
  else do
    let whole ← parser.expression (parser.operand parser.limit) tokens
    if whole.rest.isEmpty then return whole.item.tree
    else parser.reject .trailing whole.rest

end Parser

namespace Expr

def defaultDepth : Nat := 256

/-- Reads tokens as an expression that nests no deeper than `depth`, which counts as at least 1. -/
def ofTokens (depth : Nat) (tokens : List Token) : Except SyntaxError Expr :=
  let source := Tokens.ofList tokens
  Parser.run ⟨max 1 depth, source.ending⟩ source.body

end Expr

structure CompiledExpr where
  source : String
  tree : Expr
  paths : List String
  names : List String
  deriving DecidableEq

namespace CompiledExpr

def ofTree (source : String) (tree : Expr) : CompiledExpr :=
  ⟨source, tree, sortedNames tree.paths, sortedNames tree.names⟩

def compile (depth : Nat) (source : String) : Result CompiledExpr :=
  match Expr.ofTokens depth (Token.scan source) with
  | .ok tree => .ok (ofTree source tree)
  | .error error => .error (.malformed error)

def references (compiled : CompiledExpr) (name : String) : Bool := compiled.names.contains name

end CompiledExpr

end Rulebook
