import Rulebook.Proofs.Expr.CursorLoops

/-! A parse with a cursor neither crashes nor goes on for ever.

Each grammar function goes as a reader, from any cursor that is not past the first ending and at any
level. Calls go by induction on the budget, which is smaller a level deeper. That the cursor has
moved on where something was read is what readers say of the tokens that they leave over. -/

namespace Rulebook.Cursor

open Rulebook.Expr (Measured Reader parts shorter_of_parts)

variable {α : Type} {tape : Tape} {start cursor : Cursor} {token : Token} {budget room : Nat}

namespace Tape

theorem nested_goes {inner : Parse α} {result : Except SyntaxError (α × Nat × List Token)}
    (position : Nat) (open_level : cursor.nesting < tape.limit)
    (goes : tape.Goes ⟨cursor.current, cursor.nesting + 1⟩
      (inner tape ⟨cursor.current, cursor.nesting + 1⟩) result) :
    tape.Goes cursor (Parse.nested position inner tape cursor) result := by
  have entered : Parse.enter position tape cursor =
      .done () ⟨cursor.current, cursor.nesting + 1⟩ := if_neg (Nat.not_le_of_lt open_level)
  rw [Parse.nested, bind_done entered, Parse.andThen]
  cases result with
  | ok reading =>
      obtain ⟨item, last, rest⟩ := reading
      obtain ⟨⟨current, nesting⟩, comes, onward, behind, ahead⟩ := goes
      obtain rfl : nesting = cursor.nesting + 1 := onward.nesting
      rw [comes]
      exact ⟨⟨current, cursor.nesting⟩, rfl, ⟨rfl, onward.forward, onward.within⟩, behind, ahead⟩
  | error error =>
      obtain ⟨reported, ⟨current, nesting⟩, comes, onward, report⟩ := goes
      obtain rfl : nesting = cursor.nesting + 1 := onward.nesting
      rw [comes]
      exact ⟨reported, ⟨current, cursor.nesting⟩, rfl, ⟨rfl, onward.forward, onward.within⟩, report⟩

theorem nested_tooDeep {inner : Parse α} {position : Nat} (full : tape.limit ≤ cursor.nesting) :
    Parse.nested position inner tape cursor = .fault ⟨.tooDeep tape.limit, position⟩ cursor := by
  have too_deep : Parse.enter position tape cursor =
      .fault ⟨.tooDeep tape.limit, position⟩ cursor := if_pos full
  rw [Parse.nested, bind_apply, too_deep]

theorem numberLiteral_goes (stands : tape.Stands cursor token) :
    tape.Goes cursor.after (Parse.numberLiteral tape cursor.after)
      (match Parser.numberValue? token.lexeme with
        | some value => .ok (.literal value .number, token.position, tape.ahead cursor.after)
        | none => .error ⟨.badNumber token.lexeme, token.position⟩) := by
  rw [Parse.numberLiteral, bind_done stands.previous, ← stands.behind_after]
  cases Parser.numberValue? token.lexeme with
  | some value => exact .done stands.onward.within
  | none =>
      rw [stands.behind_after]
      exact .fault stands.onward.within

theorem primaryWith_other (budget : Nat) (operand : Parse Measured)
    (within : cursor.current ≤ tape.stop)
    (other : ∀ token, (tape.ahead cursor).head? = some token →
      token.kind ∉ [.number, .text, .boolean, .leftParen, .identifier]) :
    tape.Goes cursor (Parse.primaryWith budget operand tape cursor)
      (tape.parser.reject .unexpected (tape.ahead cursor)) := by
  have pass : ∀ kind ∈ [Token.Kind.number, .text, .boolean, .leftParen, .identifier],
      ∀ taken others : Parse Measured,
        (do if ← Parse.matchKind kind then taken else others : Parse Measured) tape cursor =
          others tape cursor := by
    intro kind listed
    apply skip within
    rintro token first rfl
    exact other token first listed
  rw [Parse.primaryWith, pass _ (by decide), pass _ (by decide), pass _ (by decide),
    pass _ (by decide), pass _ (by decide)]
  exact reject_goes (.of_opening fun _ => rfl) within

section

variable {operand : Parse Measured}
  (runs : ∀ less, room = less + 1 → tape.Runs budget less operand (tape.parser.operand less))

include runs

theorem deeper_goes (tiers : List Tier) (position : Nat) {next : Measured → Parse Measured}
    {further : Measured × Nat × List Token → Except SyntaxError (Measured × Nat × List Token)}
    (ready : tape.Ready budget cursor) (level : tape.limit - cursor.nesting = room)
    (goes : ∀ item after, tape.Onward cursor after → tape.Goes after (next item tape after)
      (further (item, tape.behind after, tape.ahead after))) :
    tape.Goes cursor
      ((Parse.nested position (tiers.foldr (Parse.level budget) operand) >>= next) tape cursor)
      (match tape.parser.within room with
        | none => tape.parser.tooDeep position
        | some reader =>
          parts (tiers.foldr tape.parser.level reader (tape.ahead cursor)) >>= further) := by
  cases room with
  | zero =>
      apply Goes.fails
      rw [nested_tooDeep (Nat.le_of_sub_eq_zero level)]
      exact .fault ready.within
  | succ less =>
      refine Goes.bind (nested_goes position (by omega) ?_) goes
      refine foldr_runs (runs less rfl) tiers ⟨cursor.current, cursor.nesting + 1⟩
        ⟨ready.within, ready.enough⟩ ?_
      change tape.limit - (cursor.nesting + 1) = less
      omega

theorem group_goes (stands : tape.Stands cursor token) (ready : tape.Ready budget cursor.after)
    (level : tape.limit - cursor.nesting = room) :
    tape.Goes cursor.after
      (Parse.group (Tier.all.foldr (Parse.level budget) operand) tape cursor.after)
      (match tape.parser.within room with
        | none => tape.parser.tooDeep token.position
        | some reader => parts (tape.parser.expression reader (tape.ahead cursor.after)) >>=
            tape.parser.closeGroup) := by
  rw [Parse.group, bind_done stands.previous]
  refine deeper_goes runs Tier.all token.position ready level ?_
  intro tree after onward
  by_cases closed : ∃ closing, tape.Stands after closing ∧ closing.kind = .rightParen
  · obtain ⟨closing, next, closes⟩ := closed
    rw [bind_done (next.consume closes _), next.ahead_eq, Parser.closeGroup, if_pos closes,
      ← next.behind_after]
    exact Goes.behind (.done next.onward.within) next.onward
  · have unclosed : ∀ closing, (tape.ahead after).head? = some closing →
        closing.kind ≠ .rightParen := by
      intro closing first closes
      exact closed ⟨closing, stands_of_head? onward.within first, closes⟩
    have rejects : tape.parser.closeGroup (tree, tape.behind after, tape.ahead after) =
        tape.parser.reject .expectedClosing (tape.ahead after) := by
      cases tokens : tape.ahead after with
      | nil => rfl
      | cons closing rest =>
          rw [tokens] at unclosed
          exact if_neg (unclosed closing rfl)
    rw [rejects]
    exact Goes.fails (consume_other (.of_opening fun _ => rfl) onward.within unclosed) _

theorem primaryWith_goes (ready : tape.Ready (budget + 1) cursor)
    (level : tape.limit - cursor.nesting = room)
    (unsigned : ∀ token, tape.Stands cursor token →
      ∀ sign, token.kind = .operator sign → sign.isUnary = false) :
    tape.Goes cursor (Parse.primaryWith budget operand tape cursor)
      (parts (tape.parser.operandWith (tape.parser.within room) (tape.ahead cursor))) := by
  rcases stands_or_ended ready.within with ⟨token, stands⟩ | ended
  · have within := stands.onward.within
    have next := ready.after stands
    have pass : ∀ kind, token.kind ≠ kind → ∀ taken others : Parse Measured,
        (do if ← Parse.matchKind kind then taken else others : Parse Measured) tape cursor =
          others tape cursor := by
      intro kind other
      apply skip ready.within
      rw [stands.ahead_eq]
      rintro _ ⟨⟩
      exact other
    have rejects : token.kind ∉ [.number, .text, .boolean, .leftParen, .identifier] →
        tape.Goes cursor (Parse.primaryWith budget operand tape cursor)
          (tape.parser.reject .unexpected (token :: tape.ahead cursor.after)) := by
      intro other
      rw [← stands.ahead_eq]
      apply primaryWith_other budget operand ready.within
      rw [stands.ahead_eq]
      rintro _ ⟨⟩
      exact other
    rw [stands.ahead_eq, Parser.parts_operandWith]
    cases kind_eq : token.kind with
    | number =>
        rw [Parse.primaryWith, stands.take kind_eq]
        exact (numberLiteral_goes stands).behind stands.onward
    | text =>
        rw [Parse.primaryWith, pass _ (by simp [kind_eq]), stands.take kind_eq,
          bind_done stands.previous, ← stands.behind_after]
        exact Goes.behind (.done within) stands.onward
    | boolean =>
        rw [Parse.primaryWith, pass _ (by simp [kind_eq]), pass _ (by simp [kind_eq]),
          stands.take kind_eq, bind_done stands.previous, ← stands.behind_after]
        exact Goes.behind (.done within) stands.onward
    | leftParen =>
        rw [Parse.primaryWith, pass _ (by simp [kind_eq]), pass _ (by simp [kind_eq]),
          pass _ (by simp [kind_eq]), stands.take kind_eq]
        exact (group_goes runs stands next level).behind stands.onward
    | identifier =>
        rw [Parse.primaryWith, pass _ (by simp [kind_eq]), pass _ (by simp [kind_eq]),
          pass _ (by simp [kind_eq]), pass _ (by simp [kind_eq]), stands.take kind_eq]
        exact (named_goes stands next).behind stands.onward
    | operator sign =>
        simp only [unsigned token stands sign kind_eq]
        exact rejects (by simp [kind_eq])
    | rightParen | leftBracket | rightBracket | dot | ending | invalid =>
        exact rejects (by simp [kind_eq])
  · have rejects := primaryWith_other budget operand ready.within (by simp [ended.nothing])
    rw [ended.nothing] at rejects ⊢
    exact rejects

theorem unaryWith_goes (ready : tape.Ready (budget + 1) cursor)
    (level : tape.limit - cursor.nesting = room) :
    tape.Goes cursor (Parse.unaryWith budget operand tape cursor)
      (parts (tape.parser.operandWith (tape.parser.within room) (tape.ahead cursor))) := by
  have signs : ∀ sign : OperatorSign, sign ∈ [OperatorSign.not, .minus] ↔ sign.isUnary = true := by
    intro sign
    cases sign <;> decide
  rw [Parse.unaryWith]
  by_cases signed : ∃ token sign, tape.Stands cursor token ∧ token.kind = .operator sign ∧
      sign.isUnary = true
  · obtain ⟨token, sign, stands, at_sign, unary⟩ := signed
    rw [bind_done (stands.matchOperator at_sign ((signs sign).mpr unary)), stands.ahead_eq,
      Parser.parts_operandWith, at_sign]
    simp only [unary, if_true]
    rw [bind_done stands.previous]
    refine Goes.behind (deeper_goes runs [] token.position (ready.after stands) level ?_)
      stands.onward
    intro inner after onward
    rw [← bind_pure (Parse.checkHeight _ _)]
    exact checkHeight_goes _ _ onward.within fun tree => .done onward.within
  · rw [bind_done (matchOperator_other ready.within ?_)]
    · apply primaryWith_goes runs ready level
      intro token stands sign at_sign
      exact Bool.eq_false_iff.mpr fun unary => signed ⟨token, sign, stands, at_sign, unary⟩
    · intro token first sign listed at_sign
      have stands := stands_of_head? ready.within first
      exact signed ⟨token, sign, stands, at_sign, (signs sign).mp listed⟩

end

theorem operand_eq (parser : Parser) (room : Nat) (tokens : List Token) :
    parts (parser.operand room tokens) =
      parts (parser.operandWith (parser.within room) tokens) := by
  cases room <;> rfl

/-- Operands go as their reader. The induction is on the budget: a level deeper it is smaller. -/
theorem unary_runs (tape : Tape) (budget room : Nat) :
    tape.Runs budget room (Parse.unary budget) (tape.parser.operand room) := by
  induction budget generalizing room with
  | zero => exact fun cursor ready => absurd ready.enough (Nat.not_lt_zero _)
  | succ budget ih =>
      intro cursor ready level
      rw [operand_eq]
      exact unaryWith_goes (fun less _ => ih less) ready level

theorem tiered_runs (tape : Tape) (budget room : Nat) (tiers : List Tier) :
    tape.Runs budget room (Parse.tiered budget tiers) (tape.parser.reader room tiers) :=
  foldr_runs (tape.unary_runs budget room) tiers

/-- A call comes back with the level as it was and the cursor neither behind where it was nor past
the first ending. If it has read something, the cursor has moved on. -/
inductive Returns (tape : Tape) (start : Cursor) : Outcome α → Prop where
  | done {item : α} {after : Cursor} (onward : tape.Onward start after)
      (moved : start.current < after.current) : Returns tape start (.done item after)
  | fault {error : SyntaxError} {after : Cursor} (onward : tape.Onward start after) :
      Returns tape start (.fault error after)

theorem Goes.returns_fault {outcome : Outcome α} {error : SyntaxError}
    (goes : tape.Goes start outcome (.error error)) : tape.Returns start outcome := by
  obtain ⟨reported, after, rfl, onward, -⟩ := goes
  exact .fault onward

/-- What goes as a reader returns, since a reader leaves fewer tokens over. -/
theorem Goes.returns {outcome : Outcome α} {bound : Nat}
    {result : Except SyntaxError (Expr.Reading α bound)}
    (goes : tape.Goes start outcome (parts result)) (fewer : bound ≤ (tape.ahead start).length) :
    tape.Returns start outcome := by
  cases read : parts result with
  | ok reading =>
      obtain ⟨item, last, rest⟩ := reading
      rw [read] at goes
      obtain ⟨after, rfl, onward, -, rfl⟩ := goes
      have shorter := Nat.lt_of_lt_of_le (shorter_of_parts read) fewer
      rw [length_ahead, length_ahead] at shorter
      exact .done onward (by omega)
  | error error =>
      rw [read] at goes
      exact goes.returns_fault

theorem tiered_returns (ready : tape.Ready budget start) (tiers : List Tier) :
    tape.Returns start (Parse.tiered budget tiers tape start) :=
  (tape.tiered_runs budget _ tiers start ready rfl).returns (Nat.le_refl _)

theorem primary_returns (ready : tape.Ready budget start) :
    tape.Returns start (Parse.primary budget tape start) := by
  cases budget with
  | zero => exact absurd ready.enough (Nat.not_lt_zero _)
  | succ budget =>
      rw [Parse.primary]
      by_cases signed : ∃ token sign, tape.Stands start token ∧ token.kind = .operator sign
      · obtain ⟨token, sign, stands, at_sign⟩ := signed
        exact (primaryWith_other budget (Parse.unary budget) ready.within
          (by simp [stands.ahead_eq, at_sign])).returns_fault
      · have goes := primaryWith_goes (fun less _ => tape.unary_runs budget less) ready rfl
          fun token stands sign at_sign => absurd ⟨token, sign, stands, at_sign⟩ signed
        rw [← operand_eq] at goes
        exact goes.returns (Nat.le_refl _)

theorem featurePath_returns (path : String) (ready : tape.Ready budget start)
    (points : (tape.ahead start).head?.map Token.kind = some .dot) :
    tape.Returns start (Parse.featurePath budget path tape start) := by
  obtain ⟨point, first, at_point⟩ := Option.map_eq_some_iff.mp points
  have stands := stands_of_head? ready.within first
  have goes := featurePath_goes path ready (by simp [Unbracketed, first, at_point])
  rw [stands.ahead_eq] at goes
  by_cases named : ∃ name rest, tape.ahead start.after = name :: rest ∧ name.kind = .identifier
  · obtain ⟨name, rest, ahead, at_name⟩ := named
    rw [ahead, Parser.parts_featurePath_name _ at_point at_name] at goes
    apply goes.returns
    rw [stands.ahead_eq, ahead]
    exact Nat.le_succ _
  · rw [Parser.parts_featurePath_point _ at_point path] at goes
    · exact goes.returns_fault
    · intro name first at_name
      obtain ⟨rest, ahead⟩ := List.head?_eq_some_iff.mp first
      exact named ⟨name, rest, ahead, at_name⟩

theorem featurePath_stays (path : String) (ready : tape.Ready budget start)
    (no_point : (tape.ahead start).head?.map Token.kind ≠ some .dot) :
    Parse.featurePath budget path tape start = .done path start := by
  cases budget with
  | zero => exact absurd ready.enough (Nat.not_lt_zero _)
  | succ budget =>
      rw [Parse.featurePath, skip ready.within]
      · rfl
      · intro token first at_point
        exact no_point (Option.map_eq_some_iff.mpr ⟨token, first, at_point⟩)

end Tape

def Outcome.Agrees (outcome : Outcome α) : Except SyntaxError α → Prop
  | .ok item => ∃ after, outcome = .done item after
  | .error error =>
    ∃ reported after, outcome = .fault reported after ∧ reported.report = error.report

theorem parse_agrees (depth : Nat) {budget : Nat} {tokens : List Token}
    (enough : tokens.length < budget) :
    (parse depth budget tokens).Agrees (Expr.ofTokens depth tokens) := by
  let tape := Tape.ofTokens depth tokens
  have ready : tape.Ready budget ⟨0, 0⟩ := by
    have kept : tape.tokens.length ≤ tokens.length := List.length_filter_le _ _
    have stop := tape.stop_le_length
    exact ⟨Nat.zero_le _, by omega⟩
  have reader : Expr.ofTokens depth tokens = tape.parser.run (tape.ahead ⟨0, 0⟩) := rfl
  have goes := tape.tiered_runs budget tape.limit Tier.all ⟨0, 0⟩ ready rfl
  rw [← Parser.expression_eq] at goes
  change (Parse.whole budget tape ⟨0, 0⟩).Agrees _
  rw [reader, Parser.run_eq, Parse.whole]
  rcases Tape.stands_or_ended ready.within with ⟨token, stands⟩ | ended
  · rw [bind_done stands.isAtEnd, if_neg Bool.false_ne_true, if_neg (by simp [stands.ahead_eq])]
    change Tape.Goes tape _ _ (parts (tape.parser.expression
      (tape.parser.operand tape.parser.limit) (tape.ahead ⟨0, 0⟩))) at goes
    cases read : parts (tape.parser.expression (tape.parser.operand tape.parser.limit)
        (tape.ahead ⟨0, 0⟩)) with
    | error error =>
        rw [read] at goes
        obtain ⟨reported, after, failed, -, report⟩ := goes
        rw [bind_apply, failed]
        exact ⟨reported, after, rfl, report⟩
    | ok reading =>
        obtain ⟨item, last, rest⟩ := reading
        rw [read] at goes
        obtain ⟨after, comes, onward, -, rfl⟩ := goes
        rw [bind_done comes, ok_bind]
        dsimp only
        rcases Tape.stands_or_ended onward.within with ⟨trailing, next⟩ | ended
        · rw [bind_done next.isAtEnd, if_neg Bool.false_ne_true, if_neg (by simp [next.ahead_eq])]
          have rejects : tape.Goes after ((Parse.reject .trailing : Parse Expr) tape after) _ :=
            Tape.reject_goes (.of_opening fun _ => rfl) onward.within
          obtain ⟨reported, final, failed, -, report⟩ := rejects
          exact ⟨reported, final, failed, report⟩
        · rw [bind_done ended.isAtEnd, if_pos rfl, ended.nothing]
          exact ⟨after, rfl⟩
  · rw [bind_done ended.isAtEnd, if_pos rfl, bind_done ended.peekPosition, ended.nothing]
    exact ⟨_, _, rfl, rfl⟩

/-- From any cursor that is not past the first ending each call returns, and comes to what the
reader of its tiers comes to. A path is taken from a point on, and from there its call returns too.
No list of tokens crashes a parse or keeps it going. -/
theorem cursor_disciplined :
    (∀ (tape : Tape) (start : Cursor) (budget : Nat), start.current ≤ tape.stop →
      tape.stop - start.current < budget →
      (∀ tiers, tape.Returns start (Parse.tiered budget tiers tape start) ∧
        tape.Goes start (Parse.tiered budget tiers tape start)
          (parts (tape.parser.reader (tape.limit - start.nesting) tiers (tape.ahead start)))) ∧
      tape.Returns start (Parse.primary budget tape start) ∧
      ∀ path, if (tape.ahead start).head?.map Token.kind = some .dot then
          tape.Returns start (Parse.featurePath budget path tape start)
        else Parse.featurePath budget path tape start = .done path start) ∧
    ∀ (depth budget : Nat) (tokens : List Token), tokens.length < budget →
      (parse depth budget tokens).Agrees (Expr.ofTokens depth tokens) := by
  constructor
  · intro tape start budget within enough
    have ready : tape.Ready budget start := ⟨within, enough⟩
    refine ⟨?_, Tape.primary_returns ready, ?_⟩
    · intro tiers
      exact ⟨Tape.tiered_returns ready tiers, tape.tiered_runs budget _ tiers start ready rfl⟩
    · intro path
      split
      · exact Tape.featurePath_returns path ready ‹_›
      · exact Tape.featurePath_stays path ready ‹_›
  · intro depth budget tokens enough
    exact parse_agrees depth enough

def signedOne : List Token :=
  [⟨.operator .minus, "-", 0⟩, ⟨.number, "1", 1⟩, .endingAt 2, ⟨.rightParen, ")", 2⟩]

theorem signedOne_disciplined :
    (0 ≤ (Tape.ofTokens 256 signedOne).stop ∧ (Tape.ofTokens 256 signedOne).stop - 0 < 3 ∧
      (Tape.ofTokens 256 signedOne).Returns ⟨0, 7⟩
        (Parse.tiered 3 Tier.all (Tape.ofTokens 256 signedOne) ⟨0, 7⟩)) ∧
    signedOne.length < 5 ∧ (parse 256 5 signedOne).Agrees (Expr.ofTokens 256 signedOne) := by
  have within : 0 ≤ (Tape.ofTokens 256 signedOne).stop := Nat.zero_le _
  have enough : (Tape.ofTokens 256 signedOne).stop - 0 < 3 := by decide
  have short : signedOne.length < 5 := by decide
  have calls := cursor_disciplined.1 (Tape.ofTokens 256 signedOne) ⟨0, 7⟩ 3 within enough
  exact ⟨⟨within, enough, (calls.1 Tier.all).1⟩, short,
    cursor_disciplined.2 256 5 signedOne short⟩

end Rulebook.Cursor
