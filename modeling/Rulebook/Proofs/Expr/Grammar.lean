import Rulebook.Expr.Parser

/-! The grammar of expressions, as derivations over token lists.

A derivation says how a token list begins: `Derives tiers tokens rest tree nesting` reads off the
front of `tokens` an expression that uses binary operators of `tiers` at its outermost level, up to
where `rest` begins. The left operand of an operator may use the same tier and the right one only
the tighter ones, so that every tier groups to the left. `nesting` counts the parentheses and signs
that stand around the innermost operand. -/

namespace Rulebook.Grammar

def lexemes (tokens : List Token) : String := String.join (tokens.map Token.lexeme)

/-- Any number of subscripts, each with any tokens up to the first closing bracket. -/
inductive Subscripts : (tokens rest : List Token) → (text : String) → Prop where
  | none {rest : List Token} : Subscripts rest rest ""
  | more {opening closing : Token} {inner tokens rest : List Token} {text : String}
      (opens : opening.kind = .leftBracket)
      (open_inside : ∀ token ∈ inner, token.kind ≠ .rightBracket)
      (closes : closing.kind = .rightBracket)
      (further : Subscripts tokens rest text) :
      Subscripts (opening :: (inner ++ closing :: tokens)) rest
        ("[" ++ lexemes inner ++ "]" ++ text)

inductive Segments : (tokens rest : List Token) → (text : String) → Prop where
  | last {point name : Token} {tokens rest : List Token} {text : String}
      (at_point : point.kind = .dot) (at_name : name.kind = .identifier)
      (subscripts : Subscripts tokens rest text) :
      Segments (point :: name :: tokens) rest ("." ++ name.lexeme ++ text)
  | more {point name : Token} {tokens middle rest : List Token} {text further : String}
      (at_point : point.kind = .dot) (at_name : name.kind = .identifier)
      (subscripts : Subscripts tokens middle text) (segments : Segments middle rest further) :
      Segments (point :: name :: tokens) rest ("." ++ name.lexeme ++ text ++ further)

/-- Expressions by the tiers of their binary operators, the loosest first; without a tier an
operand. The name of the feature root with a point behind it begins a path and nothing else. -/
inductive Derives :
    List Tier → (tokens rest : List Token) → (tree : Expr) → (nesting : Nat) → Prop where
  | tighter {tier : Tier} {tiers : List Tier} {tokens rest : List Token} {tree : Expr}
      {nesting : Nat} (inner : Derives tiers tokens rest tree nesting) :
      Derives (tier :: tiers) tokens rest tree nesting
  | binary {tier : Tier} {tiers : List Tier} {operator : Token} {sign : OperatorSign}
      {tokens middle rest : List Token} {left right : Expr} {leftNesting rightNesting : Nat}
      (first : Derives (tier :: tiers) tokens (operator :: middle) left leftNesting)
      (at_operator : operator.kind = .operator sign) (of_tier : sign.tier? = some tier)
      (second : Derives tiers middle rest right rightNesting) :
      Derives (tier :: tiers) tokens rest (.binary left sign.symbol right)
        (max leftNesting rightNesting)
  | sign {operator : Token} {sign : OperatorSign} {tokens rest : List Token} {operand : Expr}
      {nesting : Nat} (at_operator : operator.kind = .operator sign)
      (unary : sign.isUnary = true) (inner : Derives [] tokens rest operand nesting) :
      Derives [] (operator :: tokens) rest (.unary sign.symbol operand) (nesting + 1)
  | group {opening closing : Token} {tokens rest : List Token} {tree : Expr} {nesting : Nat}
      (opens : opening.kind = .leftParen)
      (inner : Derives Tier.all tokens (closing :: rest) tree nesting)
      (closes : closing.kind = .rightParen) :
      Derives [] (opening :: tokens) rest tree (nesting + 1)
  | number {token : Token} {rest : List Token} {value : Value} (at_number : token.kind = .number)
      (readable : Parser.numberValue? token.lexeme = some value) :
      Derives [] (token :: rest) rest (.literal value .number) 0
  | text {token : Token} {rest : List Token} (at_text : token.kind = .text) :
      Derives [] (token :: rest) rest (.literal (.text token.lexeme) .text) 0
  | boolean {token : Token} {rest : List Token} (at_boolean : token.kind = .boolean) :
      Derives [] (token :: rest) rest (.literal (.boolean (token.lexeme = "true")) .boolean) 0
  | name {token : Token} {rest : List Token} (at_name : token.kind = .identifier)
      (no_path : ¬ (token.lexeme = featureRoot ∧ rest.head?.map Token.kind = some .dot)) :
      Derives [] (token :: rest) rest (.name token.lexeme) 0
  | path {root : Token} {tokens rest : List Token} {text : String}
      (at_name : root.kind = .identifier) (at_root : root.lexeme = featureRoot)
      (segments : Segments tokens rest text) :
      Derives [] (root :: tokens) rest (.feature (featureRoot ++ text)) 0

/-- Whether no expression that uses `tiers` can go on at `rest`: neither a path nor an operation. -/
def Stops (tiers : List Tier) (rest : List Token) : Prop :=
  ∀ token, rest.head? = some token → token.kind ≠ .dot ∧ token.kind ≠ .leftBracket ∧
    ∀ sign tier, token.kind = .operator sign → sign.tier? = some tier → tier ∉ tiers

theorem stops_nil (tiers : List Tier) : Stops tiers [] := by
  intro token present
  cases present

theorem Stops.tail {tiers : List Tier} {rest : List Token} (stops : Stops tiers rest) :
    Stops tiers.tail rest := by
  intro token present
  rcases stops token present with ⟨no_dot, no_bracket, no_operator⟩
  refine ⟨no_dot, no_bracket, ?_⟩
  intro sign tier at_operator of_tier member
  exact no_operator sign tier at_operator of_tier (List.mem_of_mem_tail member)

theorem stops_operator {tier : Tier} {tiers : List Tier} {operator : Token} {sign : OperatorSign}
    (at_operator : operator.kind = .operator sign) (of_tier : sign.tier? = some tier)
    (looser : tier ∉ tiers) (rest : List Token) : Stops tiers (operator :: rest) := by
  intro token present
  obtain rfl : operator = token := by simpa using present
  refine ⟨by simp [at_operator], by simp [at_operator], ?_⟩
  intro other otherTier at_other of_other member
  obtain rfl : sign = other := by simpa [at_operator] using at_other
  obtain rfl : tier = otherTier := by simpa [of_tier] using of_other
  exact looser member

theorem stops_closing (tiers : List Tier) {closing : Token} (closes : closing.kind = .rightParen)
    (rest : List Token) : Stops tiers (closing :: rest) := by
  intro token present
  obtain rfl : closing = token := by simpa using present
  simp [closes]

theorem Segments.head_dot {tokens rest : List Token} {text : String}
    (segments : Segments tokens rest text) : tokens.head?.map Token.kind = some .dot := by
  cases segments with
  | last at_point | more at_point => simp [at_point]

theorem Derives.ne_nil {tiers : List Tier} {tokens rest : List Token} {tree : Expr} {nesting : Nat}
    (derives : Derives tiers tokens rest tree nesting) : tokens ≠ [] := by
  induction derives with
  | tighter _ ih => exact ih
  | binary _ _ _ _ ih _ => exact ih
  | _ => exact List.cons_ne_nil _ _

end Rulebook.Grammar
