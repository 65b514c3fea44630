import Rulebook.Proofs.Expr.Cursor

namespace Rulebook.Cursor

open Rulebook.Expr (Measured Reader parts)

variable {α β : Type} {tape : Tape} {start cursor : Cursor} {token : Token}

namespace Tape

/-- The cursor is not past the first ending, and the budget lasts for what is ahead. -/
structure Ready (tape : Tape) (budget : Nat) (cursor : Cursor) : Prop where
  within : cursor.current ≤ tape.stop
  enough : tape.stop - cursor.current < budget

namespace Ready

variable {budget less : Nat}

theorem onward (ready : tape.Ready budget start) (onward : tape.Onward start cursor) :
    tape.Ready budget cursor := by
  have forward := onward.forward
  have enough := ready.enough
  exact ⟨onward.within, by omega⟩

theorem mono (ready : tape.Ready less cursor) (le : less ≤ budget) : tape.Ready budget cursor :=
  ⟨ready.within, Nat.lt_of_lt_of_le ready.enough le⟩

theorem after (ready : tape.Ready (budget + 1) cursor) (stands : tape.Stands cursor token) :
    tape.Ready budget cursor.after := by
  have before := stands.before
  have enough := ready.enough
  have moved : cursor.after.current = cursor.current + 1 := rfl
  exact ⟨before, by omega⟩

end Ready

variable {budget room : Nat}

def Runs (tape : Tape) (budget room : Nat) (parse : Parse Measured) (reader : Reader Measured) :
    Prop :=
  ∀ cursor, tape.Ready budget cursor → tape.limit - cursor.nesting = room →
    tape.Goes cursor (parse tape cursor) (parts (reader (tape.ahead cursor)))

section

variable {operand : Parse Measured} {reader : Reader Measured}

theorem checkHeight_goes (tree : Measured) (position : Nat) {next : Measured → Parse β}
    {further : Measured → Except SyntaxError (β × Nat × List Token)}
    (within : cursor.current ≤ tape.stop)
    (goes : ∀ low, tape.Goes cursor (next low tape cursor) (further low)) :
    tape.Goes cursor ((Parse.checkHeight tree position >>= next) tape cursor)
      (tape.parser.limitHeight tree position >>= further) := by
  by_cases higher : tape.parser.limit < tree.height
  · have too_deep : Parse.checkHeight tree position tape cursor =
        .fault ⟨.tooDeep tape.limit, position⟩ cursor := if_pos higher
    rw [Parser.limitHeight, if_pos higher]
    apply Goes.fails
    rw [too_deep]
    exact .fault within
  · have low : Parse.checkHeight tree position tape cursor = .done tree cursor := if_neg higher
    rw [bind_done low, Parser.limitHeight, if_neg higher]
    exact goes tree

theorem mem_signs {tier : Tier} {sign : OperatorSign} :
    sign ∈ Parse.signs tier ↔ sign.tier? = some tier := by
  cases tier <;> cases sign <;> decide

/-- The loop of a tier goes as its chain. The induction is on the budget of the loop, which is no
larger than that of its operands. -/
theorem chain_goes {tier : Tier} (runs : tape.Runs budget room operand reader) {lap : Nat}
    (le : lap ≤ budget) (left : Measured) (ready : tape.Ready lap cursor)
    (level : tape.limit - cursor.nesting = room) :
    tape.Goes cursor (Parse.chain tier operand lap left tape cursor)
      (parts (tape.parser.chain tier reader left (tape.behind cursor) (tape.ahead cursor))) := by
  induction lap generalizing left cursor with
  | zero => exact absurd ready.enough (Nat.not_lt_zero _)
  | succ lap ih =>
      rw [Parse.chain]
      by_cases goes_on : ∃ token sign, tape.Stands cursor token ∧ token.kind = .operator sign ∧
          sign.tier? = some tier
      · obtain ⟨token, sign, stands, at_operator, of_tier⟩ := goes_on
        have fewer : lap ≤ budget := Nat.le_of_succ_le le
        have next := ready.after stands
        rw [bind_done (stands.matchOperator at_operator (mem_signs.mpr of_tier)), stands.ahead_eq,
          Parser.parts_chain_operator _ at_operator of_tier]
        refine Goes.behind (Goes.bind (runs _ (next.mono fewer) level) ?_) stands.onward
        intro right after onward
        apply checkHeight_goes _ _ onward.within
        intro joined
        apply ih fewer joined (next.onward onward)
        rw [onward.nesting]
        exact level
      · have stop : ∀ token, (tape.ahead cursor).head? = some token →
            ∀ sign, token.kind = .operator sign → sign.tier? ≠ some tier := by
          intro token first sign at_operator of_tier
          exact goes_on ⟨token, sign, stands_of_head? ready.within first, at_operator, of_tier⟩
        have ends : parts (tape.parser.chain tier reader left (tape.behind cursor)
            (tape.ahead cursor)) = .ok (left, tape.behind cursor, tape.ahead cursor) := by
          cases tokens : tape.ahead cursor with
          | nil => exact Parser.parts_chain_nil _ tier reader left _
          | cons token rest =>
              rw [tokens] at stop
              exact Parser.parts_chain_stop _ (stop token rfl) reader left _ rest
        rw [bind_done (matchOperator_other ready.within ?_), ends]
        · exact .done ready.within
        · intro token first sign listed at_operator
          exact stop token first sign at_operator (mem_signs.mp listed)

theorem level_runs (runs : tape.Runs budget room operand reader) (tier : Tier) :
    tape.Runs budget room (Parse.level budget tier operand) (tape.parser.level tier reader) := by
  intro cursor ready level
  rw [Parser.parts_level]
  refine Goes.bind (runs cursor ready level) ?_
  intro first after onward
  apply chain_goes runs (Nat.le_refl _) first (ready.onward onward)
  rw [onward.nesting]
  exact level

theorem foldr_runs (runs : tape.Runs budget room operand reader) (tiers : List Tier) :
    tape.Runs budget room (tiers.foldr (Parse.level budget) operand)
      (tiers.foldr tape.parser.level reader) := by
  induction tiers with
  | nil => exact runs
  | cons tier tiers ih => exact level_runs ih tier

end

def subscript (tape : Tape) (path : String) (tokens : List Token) :
    Except SyntaxError (String × Nat × List Token) :=
  match (Parser.subscript path tokens).map Expr.Reading.parts with
  | none => .error ⟨.unclosedIndex, tape.ending⟩
  | some inner => .ok inner

theorem subscript_cons (path : String) (token : Token) (rest : List Token) :
    tape.subscript path (token :: rest) =
      if token.kind = .rightBracket then .ok (path, token.position, rest)
      else tape.subscript (path ++ token.lexeme) rest := by
  rw [subscript, Parser.subscript]
  by_cases closes : token.kind = .rightBracket
  · rw [if_pos closes, if_pos closes]
    rfl
  · rw [if_neg closes, if_neg closes, subscript, Option.map_map]
    rfl

theorem subscript_goes (path : String) (ready : tape.Ready budget cursor) :
    tape.Goes cursor (Parse.subscript budget path tape cursor)
      (tape.subscript path (tape.ahead cursor)) := by
  induction budget generalizing path cursor with
  | zero => exact absurd ready.enough (Nat.not_lt_zero _)
  | succ budget ih =>
      rw [Parse.subscript]
      rcases stands_or_ended ready.within with ⟨token, stands⟩ | ended
      · rw [bind_done stands.isAtEnd, if_neg Bool.false_ne_true, bind_done stands.advance,
          stands.ahead_eq, subscript_cons]
        by_cases closes : token.kind = .rightBracket
        · rw [if_pos closes, if_pos closes, ← stands.behind_after]
          exact Goes.behind (.done stands.onward.within) stands.onward
        · rw [if_neg closes, if_neg closes]
          exact (ih _ (ready.after stands)).behind stands.onward
      · rw [bind_done ended.isAtEnd, if_pos rfl, bind_done ended.peekPosition, ended.nothing]
        exact .fault ready.within

def Unbracketed (tape : Tape) (cursor : Cursor) : Prop :=
  ∀ token, (tape.ahead cursor).head? = some token → token.kind ≠ .leftBracket

theorem subscripts_goes {next : String → Parse String} (path : String)
    (ready : tape.Ready budget start)
    (goes : ∀ path cursor, tape.Onward start cursor → tape.Unbracketed cursor →
      tape.Goes cursor (next path tape cursor)
        (parts (tape.parser.featurePath path (tape.behind cursor) (tape.ahead cursor)))) :
    tape.Goes start ((Parse.subscripts budget path >>= next) tape start)
      (parts (tape.parser.featurePath path (tape.behind start) (tape.ahead start))) := by
  induction budget generalizing path start with
  | zero => exact absurd ready.enough (Nat.not_lt_zero _)
  | succ budget ih =>
      rw [Parse.subscripts]
      by_cases opening : ∃ token, tape.Stands start token ∧ token.kind = .leftBracket
      · obtain ⟨token, stands, opens⟩ := opening
        have split : parts (tape.parser.featurePath path (tape.behind start) (tape.ahead start)) =
            tape.subscript (path ++ "[") (tape.ahead start.after) >>= fun inner =>
              parts (tape.parser.featurePath (inner.1 ++ "]") inner.2.1 inner.2.2) := by
          rw [stands.ahead_eq, Parser.parts_featurePath_subscript _ opens, subscript]
          cases (Parser.subscript (path ++ "[") (tape.ahead start.after)).map
            Expr.Reading.parts <;> rfl
        have inside := ready.after stands
        rw [split, bind_same (stands.take opens _ _), bind_bind]
        refine Goes.behind (Goes.bind (subscript_goes _ inside) ?_) stands.onward
        intro text after onward
        apply ih (text ++ "]") (inside.onward onward)
        intro path cursor further
        exact goes path cursor (stands.onward.trans (onward.trans further))
      · have unbracketed : tape.Unbracketed start := by
          intro token first opens
          exact opening ⟨token, stands_of_head? ready.within first, opens⟩
        rw [bind_same (skip ready.within unbracketed _ _)]
        exact goes path start (.refl ready.within) unbracketed

theorem featurePath_goes (path : String) (ready : tape.Ready budget cursor)
    (unbracketed : tape.Unbracketed cursor) :
    tape.Goes cursor (Parse.featurePath budget path tape cursor)
      (parts (tape.parser.featurePath path (tape.behind cursor) (tape.ahead cursor))) := by
  induction budget generalizing path cursor with
  | zero => exact absurd ready.enough (Nat.not_lt_zero _)
  | succ budget ih =>
      rw [Parse.featurePath]
      by_cases goes_on : ∃ point, tape.Stands cursor point ∧ point.kind = .dot
      · obtain ⟨point, stands, at_point⟩ := goes_on
        have behind_point := ready.after stands
        rw [stands.take at_point, stands.ahead_eq]
        refine Goes.behind ?_ stands.onward
        by_cases named : ∃ name, tape.Stands cursor.after name ∧ name.kind = .identifier
        · obtain ⟨name, next, at_name⟩ := named
          have behind_name := behind_point.onward next.onward
          rw [bind_done (next.consume at_name _), next.ahead_eq,
            Parser.parts_featurePath_name _ at_point at_name, ← next.behind_after]
          refine Goes.behind (subscripts_goes _ behind_name ?_) next.onward
          intro path later onward unbracketed
          exact ih path (behind_name.onward onward) unbracketed
        · have no_name : ∀ name, (tape.ahead cursor.after).head? = some name →
              name.kind ≠ .identifier := by
            intro name first at_name
            exact named ⟨name, stands_of_head? behind_point.within first, at_name⟩
          rw [Parser.parts_featurePath_point _ at_point path _ no_name]
          exact (consume_other (.of_opening fun _ => rfl) behind_point.within no_name).fails _
      · have no_point : ∀ token, (tape.ahead cursor).head? = some token → token.kind ≠ .dot := by
          intro token first at_point
          exact goes_on ⟨token, stands_of_head? ready.within first, at_point⟩
        rw [skip ready.within no_point, Parser.parts_featurePath_stop]
        · exact .done ready.within
        · exact fun token first => ⟨no_point token first, unbracketed token first⟩

theorem named_goes (stands : tape.Stands cursor token) (ready : tape.Ready budget cursor.after) :
    tape.Goes cursor.after (Parse.named budget tape cursor.after)
      (parts (tape.parser.named token (tape.ahead cursor.after))) := by
  rw [Parse.named, bind_done stands.previous, Parser.parts_named, ← stands.behind_after]
  by_cases points : ∃ point, tape.Stands cursor.after point ∧ point.kind = .dot
  · obtain ⟨point, next, at_point⟩ := points
    have follows : (tape.ahead cursor.after).head?.map Token.kind = some .dot := by
      rw [next.ahead_eq, ← at_point]
      rfl
    rw [bind_done (next.check _), at_point]
    by_cases root : token.lexeme = featureRoot
    · have unbracketed : tape.Unbracketed cursor.after := by
        intro other first
        rw [next.ahead_eq] at first
        obtain rfl := Option.some.inj first
        simp [at_point]
      rw [if_pos (by simp [root]), if_pos ⟨root, follows⟩]
      refine Goes.bind (featurePath_goes _ ready unbracketed) ?_
      intro path after onward
      exact .done onward.within
    · rw [if_neg (by simp [root]), if_neg (fun both => root both.1)]
      exact .done ready.within
  · have no_point : ∀ point, (tape.ahead cursor.after).head? = some point → point.kind ≠ .dot := by
      intro point first at_point
      exact points ⟨point, stands_of_head? ready.within first, at_point⟩
    have follows_not : (tape.ahead cursor.after).head?.map Token.kind ≠ some .dot := by
      intro follows
      obtain ⟨point, first, at_point⟩ := Option.map_eq_some_iff.mp follows
      exact no_point point first at_point
    rw [bind_done (check_other ready.within no_point), if_neg (by simp),
      if_neg (fun both => follows_not both.2)]
    exact .done ready.within

end Tape
end Rulebook.Cursor
