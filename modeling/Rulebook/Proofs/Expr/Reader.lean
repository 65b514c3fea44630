import Rulebook.Expr.Parser
import Rulebook.Proofs.Steps

/-! What the readers of expressions come to, one equation for each reader.

A reading carries a bound on the tokens that it leaves over. The bound depends on the token list, so
that readings of different lists cannot be compared. The equations forget it and keep the rest: the
item, the position of the last token read, and the tokens left over. -/

namespace Rulebook.Expr

variable {α β : Type} {bound wider : Nat}

def Reading.parts (reading : Reading α bound) : α × Nat × List Token :=
  (reading.item, reading.last, reading.rest)

def parts (result : Except SyntaxError (Reading α bound)) :
    Except SyntaxError (α × Nat × List Token) :=
  result.map Reading.parts

@[simp] theorem parts_ok (reading : Reading α bound) :
    parts (.ok reading) = .ok (reading.item, reading.last, reading.rest) := rfl

theorem parts_bind {first : Except SyntaxError (Reading α bound)}
    {next : Reading α bound → Except SyntaxError (Reading β wider)}
    {plain : α × Nat × List Token → Except SyntaxError (β × Nat × List Token)}
    (same : ∀ reading, parts (next reading) = plain reading.parts) :
    parts (first >>= next) = parts first >>= plain := by
  cases first with
  | error error => rfl
  | ok reading => exact same reading

theorem parts_widen (result : Except SyntaxError (Reading α bound)) (h : bound ≤ wider) :
    parts (result >>= fun reading => pure (reading.widen h)) = parts result := by
  cases result <;> rfl

theorem shorter_of_parts {result : Except SyntaxError (Reading α bound)} {item : α} {last : Nat}
    {rest : List Token} (read : parts result = .ok (item, last, rest)) : rest.length < bound := by
  cases result with
  | error error => cases read
  | ok reading =>
      simp only [parts_ok, Except.ok.injEq, Prod.mk.injEq] at read
      rcases read with ⟨-, -, rfl⟩
      exact reading.shorter

def Measured.ofTree (tree : Expr) : Measured := ⟨tree, tree.height, rfl⟩

end Rulebook.Expr

namespace Rulebook.Parser

open Rulebook.Expr (Measured Reader parts parts_bind parts_ok parts_widen)

variable (parser : Parser)

theorem parts_chain_nil (tier : Tier) (operand : Reader Measured) (left : Measured) (last : Nat) :
    parts (parser.chain tier operand left last []) = .ok (left, last, []) := by
  rw [chain]
  rfl

theorem parts_chain_stop {tier : Tier} {token : Token}
    (stop : ∀ sign, token.kind = .operator sign → sign.tier? ≠ some tier)
    (operand : Reader Measured) (left : Measured) (last : Nat) (rest : List Token) :
    parts (parser.chain tier operand left last (token :: rest)) =
      .ok (left, last, token :: rest) := by
  rw [chain]
  split
  · rfl
  · rename_i sign found
    rw [if_neg]
    · rfl
    · apply stop
      cases kind_eq : token.kind <;> simp_all [Token.sign?]

theorem parts_chain_operator {tier : Tier} {token : Token} {sign : OperatorSign}
    (at_operator : token.kind = .operator sign) (of_tier : sign.tier? = some tier)
    (operand : Reader Measured) (left : Measured) (last : Nat) (rest : List Token) :
    parts (parser.chain tier operand left last (token :: rest)) =
      parts (operand rest) >>= fun (right, position, after) =>
        parser.limitHeight (left.binary sign right) position >>= fun joined =>
          parts (parser.chain tier operand joined position after) := by
  rw [chain]
  have found : token.sign? = some sign := by rw [Token.sign?, at_operator]
  split
  · rename_i none_found
    rw [found] at none_found
    cases none_found
  · rename_i other other_found
    obtain rfl : sign = other := by simpa [found] using other_found
    rw [if_pos of_tier]
    apply parts_bind
    intro right
    simp only [Expr.Reading.parts]
    cases parser.limitHeight (left.binary sign right.item) right.last with
    | error error => rfl
    | ok joined => exact parts_widen _ _

theorem parts_level (tier : Tier) (operand : Reader Measured) (tokens : List Token) :
    parts (parser.level tier operand tokens) =
      parts (operand tokens) >>= fun (first, last, rest) =>
        parts (parser.chain tier operand first last rest) := by
  apply parts_bind
  intro first
  exact parts_widen _ _

theorem parts_featurePath_name {point name : Token} (at_point : point.kind = .dot)
    (at_name : name.kind = .identifier) (path : String) (last : Nat) (rest : List Token) :
    parts (parser.featurePath path last (point :: name :: rest)) =
      parts (parser.featurePath (path ++ "." ++ name.lexeme) name.position rest) := by
  rw [featurePath.eq_def]
  simp only
  rw [if_pos at_point]
  simp only [at_name, if_true]
  exact parts_widen _ _

theorem parts_featurePath_point {point : Token} (at_point : point.kind = .dot) (path : String)
    (last : Nat) {rest : List Token} (no_name : ∀ name, rest.head? = some name →
      name.kind ≠ .identifier) :
    parts (parser.featurePath path last (point :: rest)) = parser.reject .expectedName rest := by
  rw [featurePath.eq_def]
  simp only
  rw [if_pos at_point]
  split
  · rename_i name after
    rw [if_neg (no_name name rfl)]
    rfl
  · rfl

theorem parts_featurePath_subscript {opening : Token} (opens : opening.kind = .leftBracket)
    (path : String) (last : Nat) (rest : List Token) :
    parts (parser.featurePath path last (opening :: rest)) =
      match (subscript (path ++ "[") rest).map Expr.Reading.parts with
      | none => .error ⟨.unclosedIndex, parser.ending⟩
      | some (text, position, after) =>
        parts (parser.featurePath (text ++ "]") position after) := by
  rw [featurePath.eq_def]
  simp only
  rw [if_neg (by simp [opens]), if_pos opens]
  split
  · rename_i absent
    rw [absent]
    rfl
  · rename_i inner present
    rw [present]
    exact parts_widen _ _

theorem parts_featurePath_stop {tokens : List Token}
    (stop : ∀ token, tokens.head? = some token → token.kind ≠ .dot ∧ token.kind ≠ .leftBracket)
    (path : String) (last : Nat) :
    parts (parser.featurePath path last tokens) = .ok (path, last, tokens) := by
  rw [featurePath.eq_def]
  cases tokens with
  | nil => rfl
  | cons token rest =>
      rcases stop token rfl with ⟨no_point, no_bracket⟩
      simp only
      rw [if_neg no_point, if_neg no_bracket]
      rfl

theorem parts_named (token : Token) (rest : List Token) :
    parts (parser.named token rest) =
      if token.lexeme = featureRoot ∧ rest.head?.map Token.kind = some .dot then
        parts (parser.featurePath token.lexeme token.position rest) >>= fun (path, last, after) =>
          .ok (.feature path, last, after)
      else .ok (.name token.lexeme, token.position, rest) := by
  rw [named]
  split
  · apply parts_bind
    intro path
    rfl
  · rfl

def closeGroup : Measured × Nat × List Token → Except SyntaxError (Measured × Nat × List Token)
  | (tree, _, closing :: after) =>
    if closing.kind = .rightParen then .ok (tree, closing.position, after)
    else parser.reject .expectedClosing (closing :: after)
  | (_, _, []) => parser.reject .expectedClosing []

theorem parts_operandWith_nil (nested : Option (Reader Measured)) :
    parts (parser.operandWith nested []) = parser.reject .unexpected [] := rfl

theorem parts_operandWith (nested : Option (Reader Measured)) (token : Token) (rest : List Token) :
    parts (parser.operandWith nested (token :: rest)) =
      match token.kind with
      | .number =>
        match numberValue? token.lexeme with
        | some value => .ok (.literal value .number, token.position, rest)
        | none => .error ⟨.badNumber token.lexeme, token.position⟩
      | .text => .ok (.literal (.text token.lexeme) .text, token.position, rest)
      | .boolean => .ok (.literal (.boolean (token.lexeme = "true")) .boolean, token.position, rest)
      | .identifier => parts (parser.named token rest)
      | .leftParen =>
        match nested with
        | none => parser.tooDeep token.position
        | some operand => parts (parser.expression operand rest) >>= parser.closeGroup
      | .operator sign =>
        if sign.isUnary then
          match nested with
          | none => parser.tooDeep token.position
          | some operand =>
            parts (operand rest) >>= fun (inner, last, after) =>
              parser.limitHeight (inner.unary sign) token.position >>= fun tree =>
                .ok (tree, last, after)
        else parser.reject .unexpected (token :: rest)
      | _ => parser.reject .unexpected (token :: rest) := by
  rcases token with ⟨kind, lexeme, position⟩
  rw [operandWith.eq_def]
  cases kind with
  | number =>
      simp only
      cases numberValue? lexeme <;> rfl
  | leftParen =>
      cases nested with
      | none => rfl
      | some operand =>
          apply parts_bind
          intro inner
          rcases inner with ⟨tree, last, after, shorter⟩
          cases after with
          | nil => rfl
          | cons closing after =>
              simp only [Expr.Reading.parts, closeGroup]
              split <;> rfl
  | operator sign =>
      simp only
      split
      · cases nested with
        | none => rfl
        | some operand =>
            apply parts_bind
            intro inner
            simp only [Expr.Reading.parts]
            cases parser.limitHeight (inner.item.unary sign) position <;> rfl
      · rfl
  | _ => rfl

theorem run_eq (tokens : List Token) :
    parser.run tokens =
      if tokens.isEmpty then .error ⟨.empty, parser.ending⟩
      else parts (parser.expression (parser.operand parser.limit) tokens) >>= fun (item, _, rest) =>
        if rest.isEmpty then .ok item.tree else parser.reject .trailing rest := by
  rw [run]
  split
  · rfl
  · cases parser.expression (parser.operand parser.limit) tokens with
    | error error => rfl
    | ok whole =>
        simp only [ok_bind, parts_ok]
        split <;> rfl

end Rulebook.Parser
