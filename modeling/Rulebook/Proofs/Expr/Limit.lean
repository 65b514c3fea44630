import Rulebook.Proofs.Expr.Reader

/-! What the limit of a parser changes.

Parsers that differ in their limits alone read the same tokens in the same way, up to where the
narrower limit is exceeded. `SameOrDeep` says so of two results. Going on behind what was read keeps
it, so that it passes from operands to chains of them, and from there to whole expressions. -/

namespace Rulebook.Parser

open Rulebook.Expr (Measured Reader parts shorter_of_parts)

variable {α β : Type} {limit : Nat}

/-- A result is the one under a wider limit, or else the fault of its own limit. -/
def SameOrDeep (limit : Nat) (result wider : Except SyntaxError α) : Prop :=
  result = wider ∨ ∃ position, result = .error ⟨.tooDeep limit, position⟩

theorem SameOrDeep.same (result : Except SyntaxError α) : SameOrDeep limit result result :=
  .inl rfl

theorem SameOrDeep.bind {first firstWider : Except SyntaxError α}
    {next nextWider : α → Except SyntaxError β} (reads : SameOrDeep limit first firstWider)
    (further : ∀ item, first = .ok item → SameOrDeep limit (next item) (nextWider item)) :
    SameOrDeep limit (first >>= next) (firstWider >>= nextWider) := by
  rcases reads with rfl | ⟨position, rfl⟩
  · cases first with
    | error error => exact .same _
    | ok item => exact further item rfl
  · exact .inr ⟨position, rfl⟩

def Parallel (limit : Nat) (read readWider : Reader Measured) : Prop :=
  ∀ tokens, SameOrDeep limit (parts (read tokens)) (parts (readWider tokens))

structure Narrower (narrow wide : Parser) : Prop where
  limit : narrow.limit ≤ wide.limit
  ending : narrow.ending = wide.ending

namespace Narrower

variable {narrow wide : Parser} (narrower : narrow.Narrower wide)
include narrower

theorem reject (fault : Token → SyntaxFault) (tokens : List Token) :
    (narrow.reject fault tokens : Except SyntaxError α) = wide.reject fault tokens := by
  simp only [Parser.reject, next, narrower.ending]

theorem limitHeight (tree : Measured) (position : Nat) :
    SameOrDeep narrow.limit (narrow.limitHeight tree position) (wide.limitHeight tree position) := by
  have bounds := narrower.limit
  rw [Parser.limitHeight, Parser.limitHeight]
  split
  · exact .inr ⟨position, rfl⟩
  · rw [if_neg (by omega)]
    exact .same _

/-- The induction is on the number of tokens, of which each right operand leaves fewer. -/
theorem chain {read readWider : Reader Measured} (reads : Parallel narrow.limit read readWider)
    (tier : Tier) (left : Measured) (last : Nat) (tokens : List Token) :
    SameOrDeep narrow.limit (parts (narrow.chain tier read left last tokens))
      (parts (wide.chain tier readWider left last tokens)) := by
  induction tokens using (measure List.length).wf.induction generalizing left last with
  | h tokens ih =>
      by_cases goes : ∃ token after sign, tokens = token :: after ∧ token.kind = .operator sign ∧
          sign.tier? = some tier
      · rcases goes with ⟨token, after, sign, rfl, at_operator, of_tier⟩
        rw [parts_chain_operator narrow at_operator of_tier,
          parts_chain_operator wide at_operator of_tier]
        refine (reads after).bind ?_
        rintro ⟨right, position, further⟩ read
        refine (narrower.limitHeight _ position).bind ?_
        intro joined _
        have fewer : further.length < (token :: after).length :=
          Nat.lt_succ_of_lt (shorter_of_parts read)
        exact ih further fewer joined position
      · have stops : ∀ (parser : Parser) (operand : Reader Measured),
            parts (parser.chain tier operand left last tokens) = .ok (left, last, tokens) := by
          intro parser operand
          cases tokens with
          | nil => exact parser.parts_chain_nil tier operand left last
          | cons token after =>
              apply parser.parts_chain_stop
              intro sign at_operator of_tier
              exact goes ⟨token, after, sign, rfl, at_operator, of_tier⟩
        rw [stops narrow read, stops wide readWider]
        exact .same _

theorem expression {read readWider : Reader Measured}
    (reads : Parallel narrow.limit read readWider) :
    Parallel narrow.limit (narrow.expression read) (wide.expression readWider) := by
  have tiers : ∀ tiers : List Tier,
      Parallel narrow.limit (tiers.foldr narrow.level read) (tiers.foldr wide.level readWider) := by
    intro tiers
    induction tiers with
    | nil => exact reads
    | cons tier tiers ih =>
        intro tokens
        rw [List.foldr_cons, List.foldr_cons, parts_level, parts_level]
        refine (ih tokens).bind ?_
        rintro ⟨first, last, rest⟩ -
        exact narrower.chain ih tier first last rest
  exact tiers Tier.all

theorem featurePath (path : String) (last : Nat) (tokens : List Token) :
    parts (narrow.featurePath path last tokens) = parts (wide.featurePath path last tokens) := by
  induction tokens using (measure List.length).wf.induction generalizing path last with
  | h tokens ih =>
      cases tokens with
      | nil =>
          have stop : ∀ token, ([] : List Token).head? = some token →
              token.kind ≠ .dot ∧ token.kind ≠ .leftBracket := by simp
          rw [parts_featurePath_stop narrow stop, parts_featurePath_stop wide stop]
      | cons token rest =>
          by_cases at_point : token.kind = .dot
          · by_cases at_name : ∃ name further, rest = name :: further ∧ name.kind = .identifier
            · rcases at_name with ⟨name, further, rfl, at_name⟩
              rw [parts_featurePath_name narrow at_point at_name,
                parts_featurePath_name wide at_point at_name]
              have fewer : further.length < (token :: name :: further).length := by
                simp only [List.length_cons]
                omega
              exact ih further fewer _ _
            · have no_name : ∀ name, rest.head? = some name → name.kind ≠ .identifier := by
                intro name found named
                rcases List.head?_eq_some_iff.mp found with ⟨further, rfl⟩
                exact at_name ⟨name, further, rfl, named⟩
              rw [parts_featurePath_point narrow at_point path last no_name,
                parts_featurePath_point wide at_point path last no_name, narrower.reject]
          · by_cases opens : token.kind = .leftBracket
            · rw [parts_featurePath_subscript narrow opens, parts_featurePath_subscript wide opens,
                narrower.ending]
              cases subscript (path ++ "[") rest with
              | none => rfl
              | some inner =>
                  have fewer : inner.rest.length < (token :: rest).length :=
                    Nat.lt_succ_of_lt inner.shorter
                  exact ih inner.rest fewer _ _
            · have stop : ∀ other, (token :: rest).head? = some other →
                  other.kind ≠ .dot ∧ other.kind ≠ .leftBracket := by
                intro other found
                cases found
                exact ⟨at_point, opens⟩
              rw [parts_featurePath_stop narrow stop, parts_featurePath_stop wide stop]

theorem named (token : Token) (rest : List Token) :
    parts (narrow.named token rest) = parts (wide.named token rest) := by
  rw [parts_named, parts_named, narrower.featurePath]

theorem closeGroup : narrow.closeGroup = wide.closeGroup := by
  funext read
  rcases read with ⟨tree, last, rest⟩
  cases rest with
  | nil => exact narrower.reject _ _
  | cons closing after => simp only [Parser.closeGroup, narrower.reject]

theorem operandWith {nested nestedWider : Option (Reader Measured)}
    (reads : ∀ read, nested = some read →
      ∃ readWider, nestedWider = some readWider ∧ Parallel narrow.limit read readWider) :
    Parallel narrow.limit (narrow.operandWith nested) (wide.operandWith nestedWider) := by
  intro tokens
  cases tokens with
  | nil =>
      rw [parts_operandWith_nil, parts_operandWith_nil, narrower.reject]
      exact .same _
  | cons token rest =>
      rw [parts_operandWith, parts_operandWith]
      cases token.kind with
      | number =>
          dsimp only
          exact .same _
      | text | boolean => exact .same _
      | identifier =>
          dsimp only
          rw [narrower.named]
          exact .same _
      | leftParen =>
          cases nested with
          | none => exact .inr ⟨token.position, rfl⟩
          | some read =>
              rcases reads read rfl with ⟨readWider, rfl, parallel⟩
              refine (narrower.expression parallel rest).bind ?_
              intro inner _
              rw [narrower.closeGroup]
              exact .same _
      | operator sign =>
          dsimp only
          split
          · cases nested with
            | none => exact .inr ⟨token.position, rfl⟩
            | some read =>
                rcases reads read rfl with ⟨readWider, rfl, parallel⟩
                refine (parallel rest).bind ?_
                rintro ⟨inner, last, after⟩ -
                exact (narrower.limitHeight _ token.position).bind fun tree _ => .same _
          · rw [narrower.reject]
            exact .same _
      | _ =>
          dsimp only
          rw [narrower.reject]
          exact .same _

theorem operand {room roomWider : Nat} (less : room ≤ roomWider) :
    Parallel narrow.limit (narrow.operand room) (wide.operand roomWider) := by
  induction room generalizing roomWider with
  | zero => cases roomWider <;> exact narrower.operandWith nofun
  | succ room ih =>
      obtain ⟨wider, rfl⟩ : ∃ wider, roomWider = wider + 1 := ⟨roomWider - 1, by omega⟩
      apply narrower.operandWith
      intro read same
      cases same
      exact ⟨_, rfl, ih (Nat.le_of_succ_le_succ less)⟩

theorem run (tokens : List Token) :
    SameOrDeep narrow.limit (narrow.run tokens) (wide.run tokens) := by
  rw [run_eq, run_eq, narrower.ending]
  split
  · exact .same _
  · refine (narrower.expression (narrower.operand narrower.limit) tokens).bind ?_
    rintro ⟨item, last, rest⟩ -
    dsimp only
    rw [narrower.reject]
    exact .same _

end Narrower
end Rulebook.Parser

namespace Rulebook.Expr

/-- Under a narrower limit tokens read as they do under a wider one, or are refused for that limit.
So a wider limit accepts what a narrower one does, as the same tree, and leaves every other error as
it is. -/
theorem ofTokens_narrower {depth wider : Nat} (narrower : depth ≤ wider) (tokens : List Token) :
    (ofTokens depth tokens = ofTokens wider tokens ∨
      ∃ position, ofTokens depth tokens = .error ⟨.tooDeep (max 1 depth), position⟩) ∧
    (∀ tree, ofTokens depth tokens = .ok tree → ofTokens wider tokens = .ok tree) ∧
    ∀ error, ofTokens depth tokens = .error error → (∀ limit, error.fault ≠ .tooDeep limit) →
      ofTokens wider tokens = .error error := by
  let source := Tokens.ofList tokens
  have limits : max 1 depth ≤ max 1 wider := by omega
  have parsers : Parser.Narrower ⟨max 1 depth, source.ending⟩ ⟨max 1 wider, source.ending⟩ :=
    ⟨limits, rfl⟩
  have either : Parser.SameOrDeep (max 1 depth) (ofTokens depth tokens) (ofTokens wider tokens) :=
    parsers.run source.body
  refine ⟨either, ?_, ?_⟩
  · intro tree read
    rcases either with same | ⟨position, deep⟩
    · rw [← same, read]
    · rw [deep] at read
      contradiction
  · intro error refused not_deep
    rcases either with same | ⟨position, deep⟩
    · rw [← same, refused]
    · rw [deep] at refused
      obtain rfl := Except.error.inj refused
      exact absurd rfl (not_deep _)

/-- Deep enough, a sum in parentheses under a sign reads the same at any depth, and so does the fault
of one that is cut off. -/
theorem signedSum_narrower :
    let whole := Token.scan "-(1 + 2)"
    let cut := Token.scan "-(1 + "
    let tree := Expr.unary "-" (.binary (.literal (.int 1) .number) "+" (.literal (.int 2) .number))
    let missing : SyntaxError := ⟨.unexpected (.endingAt 6), 6⟩
    1 ≤ 3 ∧ 3 ≤ 256 ∧ ofTokens 1 whole = .error ⟨.tooDeep 1, 1⟩ ∧
      (ofTokens 1 whole = ofTokens 3 whole ∨
        ∃ position, ofTokens 1 whole = .error ⟨.tooDeep 1, position⟩) ∧
      ofTokens 3 whole = .ok tree ∧ ofTokens 256 whole = .ok tree ∧
      ofTokens 3 cut = .error missing ∧ ofTokens 256 cut = .error missing := by
  intro whole cut tree missing
  have accepted : ofTokens 3 whole = .ok tree := by decide +kernel
  have refused : ofTokens 3 cut = .error missing := by decide +kernel
  refine ⟨by decide, by decide, by decide +kernel, ?_, accepted, ?_, refused, ?_⟩
  · exact (ofTokens_narrower (by decide) whole).1
  · exact (ofTokens_narrower (by decide) whole).2.1 tree accepted
  · exact (ofTokens_narrower (by decide) cut).2.2 missing refused nofun

end Rulebook.Expr
