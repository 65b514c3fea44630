import Mathlib.Data.List.TakeWhile
import Rulebook.Expr.Cursor
import Rulebook.Proofs.Expr.Recognition

/-! What stands next for a cursor, and how a stretch of a parse compares with a reader.

Up to the first ending a token stands next, and there the parse has ended: that settles what every
helper of a parse comes to. `Goes` compares a stretch of a parse with the reader of the tokens ahead
of the cursor. The level is as it was, the cursor has not moved back and is not past the first ending,
and what is read, or reported, is the same. One stretch behind another keeps this. -/

namespace Rulebook

/-- What a syntax error tells: its message and its position. -/
def SyntaxError.report (error : SyntaxError) : String × Nat :=
  (error.fault.message, error.position)

namespace Cursor

open Rulebook.Expr (Measured)

variable {α β : Type} {tape : Tape} {start middle cursor : Cursor} {token : Token}

theorem bind_apply (first : Parse α) (next : α → Parse β) :
    (first >>= next) tape cursor =
      match first tape cursor with
      | .done item after => next item tape after
      | .fault error after => .fault error after
      | .crash cause => .crash cause
      | .exhausted => .exhausted := rfl

theorem pure_apply (item : α) : (pure item : Parse α) tape cursor = .done item cursor := rfl

theorem bind_done {first : Parse α} {item : α} (done : first tape start = .done item cursor)
    (next : α → Parse β) : (first >>= next) tape start = next item tape cursor := by
  rw [bind_apply, done]

theorem bind_same {first other : Parse α} (same : first tape start = other tape cursor)
    (next : α → Parse β) : (first >>= next) tape start = (other >>= next) tape cursor := by
  rw [bind_apply, same]
  rfl

theorem bind_pure (first : Parse α) : first >>= pure = first := by
  funext tape cursor
  rw [bind_apply]
  cases first tape cursor <;> rfl

theorem bind_bind {γ : Type} (first : Parse α) (next : α → Parse β) (further : β → Parse γ) :
    (first >>= next) >>= further = first >>= fun item => next item >>= further := by
  funext tape cursor
  simp only [bind_apply]
  cases first tape cursor <;> rfl

def after (cursor : Cursor) : Cursor := { cursor with current := cursor.current + 1 }

namespace Tape

def stop (tape : Tape) : Nat := tape.tokens.findIdx fun token => token.kind = .ending

def ahead (tape : Tape) (cursor : Cursor) : List Token :=
  (tape.tokens.takeWhile fun token => token.kind ≠ .ending).drop cursor.current

def ending (tape : Tape) : Nat :=
  (((tape.tokens.find? fun token => token.kind = .ending) <|> tape.tokens.getLast?).map
    Token.position).getD 0

def behind (tape : Tape) (cursor : Cursor) : Nat :=
  (tape.tokens[cursor.current - 1]?.map Token.position).getD 0

def parser (tape : Tape) : Parser := ⟨tape.limit, tape.ending⟩

theorem ahead_eq_take (tape : Tape) (cursor : Cursor) :
    tape.ahead cursor = (tape.tokens.take tape.stop).drop cursor.current := by
  simp [ahead, stop, List.takeWhile_eq_take_findIdx_not]

theorem stop_le_length (tape : Tape) : tape.stop ≤ tape.tokens.length := List.findIdx_le_length

theorem length_ahead (tape : Tape) (cursor : Cursor) :
    (tape.ahead cursor).length = tape.stop - cursor.current := by
  rw [ahead_eq_take, List.length_drop, List.length_take, Nat.min_eq_left tape.stop_le_length]

structure Onward (tape : Tape) (start after : Cursor) : Prop where
  nesting : after.nesting = start.nesting
  forward : start.current ≤ after.current
  within : after.current ≤ tape.stop

theorem Onward.refl (within : cursor.current ≤ tape.stop) : tape.Onward cursor cursor :=
  ⟨rfl, Nat.le_refl _, within⟩

theorem Onward.trans {after : Cursor} (first : tape.Onward start middle)
    (second : tape.Onward middle after) : tape.Onward start after where
  nesting := second.nesting.trans first.nesting
  forward := first.forward.trans second.forward
  within := second.within

structure Stands (tape : Tape) (cursor : Cursor) (token : Token) : Prop where
  held : tape.tokens[cursor.current]? = some token
  before : cursor.current < tape.stop

structure Ended (tape : Tape) (cursor : Cursor) : Prop where
  nothing : tape.ahead cursor = []
  ends : ∀ token, tape.tokens[cursor.current]? = some token → token.kind = .ending
  position : ((tape.tokens[cursor.current]? <|> tape.tokens.getLast?).map Token.position).getD 0 =
    tape.ending

theorem ended_of_eq (at_stop : cursor.current = tape.stop) : tape.Ended cursor := by
  have found : (tape.tokens.find? fun token => token.kind = .ending) =
      tape.tokens[cursor.current]? := by
    rw [List.find?_eq_getElem?_findIdx, at_stop]
    rfl
  refine ⟨List.eq_nil_of_length_eq_zero ?_, ?_, ?_⟩
  · rw [length_ahead]
    omega
  · intro token held
    rw [← found] at held
    simpa using List.find?_some held
  · rw [← found]
    rfl

theorem stands_or_ended (within : cursor.current ≤ tape.stop) :
    (∃ token, tape.Stands cursor token) ∨ tape.Ended cursor := by
  rcases Nat.lt_or_eq_of_le within with before | at_stop
  · have inside := Nat.lt_of_lt_of_le before tape.stop_le_length
    exact .inl ⟨tape.tokens[cursor.current], List.getElem?_eq_getElem inside, before⟩
  · exact .inr (ended_of_eq at_stop)

namespace Stands

variable (stands : tape.Stands cursor token)

include stands

theorem counts : token.kind ≠ .ending := by
  have no_ending := List.not_of_lt_findIdx stands.before
  obtain ⟨inside, held⟩ := List.getElem?_eq_some_iff.mp stands.held
  rw [held] at no_ending
  exact of_decide_eq_false no_ending

theorem ahead_eq : tape.ahead cursor = token :: tape.ahead cursor.after := by
  obtain ⟨inside, held⟩ := List.getElem?_eq_some_iff.mp stands.held
  have before := stands.before
  have taken : cursor.current < (tape.tokens.take tape.stop).length := by
    rw [List.length_take]
    omega
  rw [ahead_eq_take, List.drop_eq_getElem_cons taken, List.getElem_take, held, ahead_eq_take]
  rfl

theorem onward : tape.Onward cursor cursor.after := ⟨rfl, Nat.le_succ _, stands.before⟩

theorem behind_after : tape.behind cursor.after = token.position := by
  simp [behind, after, stands.held]

theorem isAtEnd : Parse.isAtEnd tape cursor = .done false cursor := by
  simp [Parse.isAtEnd, Parse.next?, bind_apply, pure_apply, stands.held, stands.counts]

theorem check (kind : Token.Kind) :
    Parse.check kind tape cursor = .done (decide (token.kind = kind)) cursor := by
  simp [Parse.check, bind_apply, pure_apply, stands.isAtEnd, Parse.tokenAt, Parse.index,
    stands.held]

theorem advance : Parse.advance tape cursor = .done token cursor.after := by
  simp [Parse.advance, bind_apply, pure_apply, stands.isAtEnd, Parse.tokenAt, Parse.index,
    stands.held, Parse.moveOn, after]

theorem peekToken : Parse.peekToken tape cursor = .done token cursor := by
  simp [Parse.peekToken, Parse.next?, bind_apply, pure_apply, stands.held]

theorem previous : Parse.previous tape cursor.after = .done token cursor.after := by
  simp [Parse.previous, bind_apply, Parse.index, Parse.tokenAt, after, stands.held]

theorem reject (fault : Token → SyntaxFault) :
    (Parse.reject fault : Parse α) tape cursor = .fault ⟨fault token, token.position⟩ cursor := by
  simp [Parse.reject, bind_apply, stands.peekToken, Parse.fail]

theorem take {kind : Token.Kind} (same : token.kind = kind) (taken others : Parse α) :
    (do if ← Parse.matchKind kind then taken else others : Parse α) tape cursor =
      taken tape cursor.after := by
  have matched : Parse.matchKind kind tape cursor = .done true cursor.after := by
    simp [Parse.matchKind, bind_apply, pure_apply, stands.check, stands.advance, same]
  rw [bind_done matched, if_pos rfl]

theorem consume {kind : Token.Kind} (same : token.kind = kind) (fault : Token → SyntaxFault) :
    Parse.consume kind fault tape cursor = .done token cursor.after := by
  simp [Parse.consume, bind_apply, stands.check, stands.advance, same]

theorem matchOperator {signs : List OperatorSign} {sign : OperatorSign}
    (at_operator : token.kind = .operator sign) (listed : sign ∈ signs) :
    Parse.matchOperator signs tape cursor = .done (some sign) cursor.after := by
  have found : token.sign? = some sign := by rw [Token.sign?, at_operator]
  have any_listed : signs.anyM (fun sign => Parse.check (.operator sign)) tape cursor =
      .done true cursor := by
    induction signs with
    | nil => contradiction
    | cons first signs ih =>
        rw [List.anyM, bind_done (stands.check _), at_operator]
        by_cases same : sign = first
        · rw [decide_eq_true (congrArg _ same)]
          rfl
        · rw [decide_eq_false (mt Token.Kind.operator.inj same)]
          exact ih ((List.mem_cons.mp listed).resolve_left same)
  rw [Parse.matchOperator, bind_done any_listed]
  simp [bind_apply, pure_apply, stands.peekToken, stands.advance, found]

end Stands

theorem stands_of_head? (within : cursor.current ≤ tape.stop)
    (first : (tape.ahead cursor).head? = some token) : tape.Stands cursor token := by
  rcases stands_or_ended within with ⟨other, stands⟩ | ended
  · rw [stands.ahead_eq] at first
    obtain rfl := Option.some.inj first
    exact stands
  · rw [ended.nothing] at first
    contradiction

namespace Ended

variable (ended : tape.Ended cursor)

include ended

theorem isAtEnd : Parse.isAtEnd tape cursor = .done true cursor := by
  cases held : tape.tokens[cursor.current]? with
  | none => simp [Parse.isAtEnd, Parse.next?, bind_apply, pure_apply, held]
  | some token =>
      simp [Parse.isAtEnd, Parse.next?, bind_apply, pure_apply, held, ended.ends token held]

theorem peekPosition : Parse.peekPosition tape cursor = .done tape.ending cursor := by
  rw [← ended.position]
  rfl

theorem peekToken : ∃ token, Parse.peekToken tape cursor = .done token cursor ∧
    token.kind = .ending ∧ token.position = tape.ending := by
  cases held : tape.tokens[cursor.current]? with
  | none =>
      refine ⟨.endingAt tape.ending, ?_, rfl, rfl⟩
      simp [Parse.peekToken, Parse.next?, bind_apply, pure_apply, held, ended.peekPosition]
  | some token =>
      have position := ended.position
      rw [held] at position
      refine ⟨token, ?_, ended.ends token held, position⟩
      simp [Parse.peekToken, Parse.next?, bind_apply, pure_apply, held]

end Ended

section

variable (within : cursor.current ≤ tape.stop)

include within

theorem check_other {kind : Token.Kind}
    (other : ∀ token, (tape.ahead cursor).head? = some token → token.kind ≠ kind) :
    Parse.check kind tape cursor = .done false cursor := by
  rcases stands_or_ended within with ⟨token, stands⟩ | ended
  · rw [stands.ahead_eq] at other
    rw [stands.check, decide_eq_false (other token rfl)]
  · rw [Parse.check, bind_done ended.isAtEnd]
    rfl

theorem skip {kind : Token.Kind}
    (other : ∀ token, (tape.ahead cursor).head? = some token → token.kind ≠ kind)
    (taken others : Parse α) :
    (do if ← Parse.matchKind kind then taken else others : Parse α) tape cursor =
      others tape cursor := by
  have unmatched : Parse.matchKind kind tape cursor = .done false cursor := by
    rw [Parse.matchKind, bind_done (check_other within other)]
    rfl
  rw [bind_done unmatched, if_neg Bool.false_ne_true]

theorem matchOperator_other {signs : List OperatorSign}
    (other : ∀ token, (tape.ahead cursor).head? = some token →
      ∀ sign ∈ signs, token.kind ≠ .operator sign) :
    Parse.matchOperator signs tape cursor = .done none cursor := by
  have none_listed :
      signs.anyM (fun sign => Parse.check (.operator sign)) tape cursor = .done false cursor := by
    induction signs with
    | nil => rfl
    | cons sign signs ih =>
        have not_first : Parse.check (.operator sign) tape cursor = .done false cursor :=
          check_other within fun token first => other token first sign List.mem_cons_self
        rw [List.anyM, bind_done not_first]
        exact ih fun token first sign listed => other token first sign (.tail _ listed)
  rw [Parse.matchOperator, bind_done none_listed]
  rfl

end

def Goes (tape : Tape) (start : Cursor) (outcome : Outcome α) :
    Except SyntaxError (α × Nat × List Token) → Prop
  | .ok (item, last, rest) => ∃ after, outcome = .done item after ∧ tape.Onward start after ∧
      tape.behind after = last ∧ tape.ahead after = rest
  | .error error => ∃ reported after, outcome = .fault reported after ∧
      tape.Onward start after ∧ reported.report = error.report

namespace Goes

variable {outcome : Outcome α} {result : Except SyntaxError (α × Nat × List Token)}

theorem done {item : α} (within : cursor.current ≤ tape.stop) :
    tape.Goes cursor (.done item cursor) (.ok (item, tape.behind cursor, tape.ahead cursor)) :=
  ⟨cursor, rfl, .refl within, rfl, rfl⟩

theorem fault {error : SyntaxError} (within : cursor.current ≤ tape.stop) :
    tape.Goes cursor (.fault error cursor : Outcome α) (.error error) :=
  ⟨error, cursor, rfl, .refl within, rfl⟩

theorem behind (goes : tape.Goes middle outcome result) (onward : tape.Onward start middle) :
    tape.Goes start outcome result := by
  cases result with
  | ok reading =>
      obtain ⟨after, comes, further, last, rest⟩ := goes
      exact ⟨after, comes, onward.trans further, last, rest⟩
  | error error =>
      obtain ⟨reported, after, comes, further, report⟩ := goes
      exact ⟨reported, after, comes, onward.trans further, report⟩

theorem fails {first : Parse α} {error : SyntaxError}
    (goes : tape.Goes start (first tape start) (.error error)) (next : α → Parse β) :
    tape.Goes start ((first >>= next) tape start) (.error error) := by
  obtain ⟨reported, after, comes, onward, report⟩ := goes
  rw [bind_apply, comes]
  exact ⟨reported, after, rfl, onward, report⟩

theorem bind {first : Parse α} {next : α → Parse β}
    {further : α × Nat × List Token → Except SyntaxError (β × Nat × List Token)}
    (goes : tape.Goes start (first tape start) result)
    (onward : ∀ item after, tape.Onward start after → tape.Goes after (next item tape after)
      (further (item, tape.behind after, tape.ahead after))) :
    tape.Goes start ((first >>= next) tape start) (result >>= further) := by
  cases result with
  | ok reading =>
      obtain ⟨item, last, rest⟩ := reading
      obtain ⟨after, comes, moved, rfl, rfl⟩ := goes
      rw [bind_done comes]
      exact (onward item after moved).behind moved
  | error error => exact goes.fails next

end Goes

def Renders (fault : Token → SyntaxFault) : Prop :=
  ∀ token other : Token, token.render = other.render →
    (fault token).message = (fault other).message

theorem Renders.of_opening {fault : Token → SyntaxFault} {opening : String}
    (worded : ∀ token, (fault token).message = opening ++ token.render) : Renders fault := by
  intro token other same
  rw [worded, worded, same]

theorem reject_goes {fault : Token → SyntaxFault} (renders : Renders fault)
    (within : cursor.current ≤ tape.stop) :
    tape.Goes cursor ((Parse.reject fault : Parse α) tape cursor)
      (tape.parser.reject fault (tape.ahead cursor)) := by
  rcases stands_or_ended within with ⟨token, stands⟩ | ended
  · rw [stands.reject, stands.ahead_eq]
    exact .fault within
  · obtain ⟨token, peeked, ends, position⟩ := ended.peekToken
    have rendered : token.render = (Token.endingAt tape.ending).render := by
      rw [Token.render, if_pos ends]
      rfl
    rw [ended.nothing, Parse.reject, bind_done peeked]
    exact ⟨_, cursor, rfl, .refl within, Prod.ext (renders _ _ rendered) position⟩

theorem consume_other {kind : Token.Kind} {fault : Token → SyntaxFault} (renders : Renders fault)
    (within : cursor.current ≤ tape.stop)
    (other : ∀ token, (tape.ahead cursor).head? = some token → token.kind ≠ kind) :
    tape.Goes cursor (Parse.consume kind fault tape cursor)
      (tape.parser.reject fault (tape.ahead cursor)) := by
  rw [Parse.consume, bind_done (check_other within other)]
  exact reject_goes renders within

end Tape
end Cursor
end Rulebook
