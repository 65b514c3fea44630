import Rulebook.Proofs.Expr.Refusal
import Rulebook.Proofs.Expr.Rewriting

namespace Rulebook.Grammar

open State (Leads)

theorem State.advance_blocked {state stuck : State} {front behind : List Token} {token : Token}
    (reached : state.advance front = some stuck) (no_step : stuck.step token = none) :
    state.advance (front ++ token :: behind) = none := by
  rw [State.advance_append, reached, Option.bind_some, State.advance, List.foldlM_cons, no_step]
  rfl

/-- Tokens that lead to where an expression may end are one. A parser whose limit is their number
reads them, since it refuses them neither for a token nor for its limit. -/
theorem complete_of_accepts {tokens : List Token} {final : State}
    (advanced : State.start.advance tokens = some final) (accepts : final.Accepts) :
    Complete tokens := by
  let parser : Parser := ⟨max 1 tokens.length, 0⟩
  have positive : 0 < parser.limit :=
    Nat.lt_of_lt_of_le Nat.zero_lt_one (Nat.le_max_left 1 tokens.length)
  have wide : tokens.length ≤ parser.limit := Nat.le_max_right 1 tokens.length
  cases read : parser.run tokens with
  | ok tree =>
      rcases (parser.run_eq_ok positive).mp read with ⟨nesting, derives, -, -⟩
      exact ⟨tree, nesting, derives⟩
  | error error =>
      cases Parser.run_refuses read with
      | blocked leads no_step =>
          rcases leads with ⟨front, rfl, reached⟩
          rw [State.advance_blocked reached no_step] at advanced
          cases advanced
      | unfinished leads no_end =>
          rcases leads with ⟨front, rfl, reached⟩
          rw [List.append_nil, reached] at advanced
          cases advanced
          exact absurd accepts no_end
      | deep exceeds => omega

theorem complete_iff {tokens : List Token} :
    Complete tokens ↔ ∃ final, State.start.advance tokens = some final ∧ final.Accepts := by
  constructor
  · exact Complete.accepts
  · intro accepted
    rcases accepted with ⟨final, advanced, accepts⟩
    exact complete_of_accepts advanced accepts

theorem viable_iff {tokens : List Token} :
    Viable tokens ↔ ∃ state, State.start.advance tokens = some state := by
  constructor
  · exact Viable.advances
  · intro advances
    rcases advances with ⟨state, advanced⟩
    rcases state.exists_completion with ⟨further, final, count, onward, accepts⟩
    refine ⟨further, count, complete_of_accepts ?_ accepts⟩
    rw [State.advance_append, advanced, Option.bind_some, onward]

theorem Viable.of_append {tokens behind : List Token} (viable : Viable (tokens ++ behind)) :
    Viable tokens := by
  rcases viable with ⟨further, count, complete⟩
  rw [List.append_assoc] at complete
  rcases complete.accepts with ⟨final, advanced, -⟩
  rcases State.advance_of_append advanced with ⟨state, reached, -⟩
  exact viable_iff.mpr ⟨state, reached⟩

/-- Whether no expression has the tokens `before` and then this one in front; of the ending, whether
the tokens before it are no expression. -/
def Impossible (before : List Token) (token : Token) : Prop :=
  if token.kind = .ending then ¬ Complete before else ¬ Viable (before ++ [token])

theorem impossible_ending (before : List Token) (position : Nat) :
    Impossible before (.endingAt position) ↔ ¬ Complete before := by
  have at_end : (Token.endingAt position).kind = .ending := rfl
  rw [Impossible, if_pos at_end]

theorem impossible_iff {token : Token} (count : token.Counts) (before : List Token) :
    Impossible before token ↔ ¬ Viable (before ++ [token]) := by
  rw [Impossible, if_neg count.2]

theorem Viable.not_impossible {before earlier later : List Token} {other : Token}
    (viable : Viable before) (counts : ∀ token ∈ before, token.Counts)
    (split : before = earlier ++ other :: later) : ¬ Impossible earlier other := by
  subst split
  have count := counts other (List.mem_append_right _ List.mem_cons_self)
  rw [impossible_iff count, not_not]
  rw [List.append_cons] at viable
  exact viable.of_append

end Rulebook.Grammar

namespace Rulebook.Expr

open Grammar

/-- A text that is refused, and not for its depth, is refused at the first token that is impossible
behind those before it. Invalid tokens do not count, and the ending stands behind the last byte. -/
theorem refused_at_first_impossible {text : String} {depth : Nat} {error : SyntaxError}
    (refused : ofTokens depth (Token.scan text) = .error error)
    (not_deep : ∀ limit, error.fault ≠ .tooDeep limit) :
    ∃ before token after,
      ((Token.scan text).filter fun token => token.kind ≠ .invalid) = before ++ token :: after ∧
      error.position = token.position ∧
      (token.kind = .ending → token.position = text.utf8ByteSize) ∧
      Impossible before token ∧
      (∀ earlier other later, before = earlier ++ other :: later → ¬ Impossible earlier other) ∧
      Viable before := by
  rcases ofList_scan text with ⟨body, valid, tokens, written⟩
  have counts : ∀ token ∈ body, token.Counts := fun token member => (written token member).1
  rw [ofTokens, tokens] at refused
  cases Parser.run_refuses refused with
  | @blocked stuck token behind fault leads no_step =>
      rcases leads with ⟨before, rfl, reached⟩
      have count := counts token (List.mem_append_right _ List.mem_cons_self)
      have viable : Viable before := viable_iff.mpr ⟨stuck, reached⟩
      refine ⟨before, token, behind ++ [.endingAt text.utf8ByteSize], ?_, rfl, ?_, ?_, ?_, viable⟩
      · rw [valid, List.append_assoc, List.cons_append]
      · exact fun at_end => absurd at_end count.2
      · rw [impossible_iff count, viable_iff, State.advance_blocked reached no_step]
        intro advances
        rcases advances with ⟨state, advanced⟩
        cases advanced
      · intro earlier other later
        exact viable.not_impossible fun token member => counts token (List.mem_append_left _ member)
  | @unfinished final fault leads no_end =>
      rcases leads with ⟨before, rfl, reached⟩
      rw [List.append_nil] at valid counts
      have viable : Viable before := viable_iff.mpr ⟨final, reached⟩
      refine ⟨before, .endingAt text.utf8ByteSize, [], valid, rfl, fun _ => rfl, ?_, ?_, viable⟩
      · rw [impossible_ending, complete_iff]
        intro accepted
        rcases accepted with ⟨other, advanced, accepts⟩
        rw [reached] at advanced
        cases advanced
        exact no_end accepts
      · intro earlier other later
        exact viable.not_impossible counts
  | deep exceeds => exact absurd rfl (not_deep _)

/-- An operand is missing before the parenthesis. What stands there does not count. -/
theorem missingOperand_refused :
    ofTokens 8 (Token.scan "(featureMap.a[0] * @ )") =
        .error ⟨.unexpected ⟨.rightParen, ")", 21⟩, 21⟩ ∧
      ∃ before token after,
        ((Token.scan "(featureMap.a[0] * @ )").filter fun token => token.kind ≠ .invalid) =
          before ++ token :: after ∧
        21 = token.position ∧
        (token.kind = .ending →
          token.position = ("(featureMap.a[0] * @ )" : String).utf8ByteSize) ∧
        Impossible before token ∧
        (∀ earlier other later, before = earlier ++ other :: later → ¬ Impossible earlier other) ∧
        Viable before := by
  have refused : ofTokens 8 (Token.scan "(featureMap.a[0] * @ )") =
      .error ⟨.unexpected ⟨.rightParen, ")", 21⟩, 21⟩ := by
    decide +kernel
  exact ⟨refused, refused_at_first_impossible refused nofun⟩

end Rulebook.Expr
