import Rulebook.Proofs.Expr.Prefix
import Rulebook.Proofs.Expr.Recognition

/-! Where reading an expression stops short.

Apart from the limits, a reader goes from state to state as `State.step` does. It refuses a token
just where no step takes it, and the end of the tokens just where no expression ends. The limits
refuse nothing that has no more tokens than they allow.

`Tracks` says so of what a reader comes to. It is kept by going on behind a piece that was read
(`Tracks.bind`), and shown for chains, paths, groups and signs from the readers within. -/

namespace Rulebook

theorem Tier.mem_all (tier : Tier) : tier ∈ Tier.all := by
  cases tier <;> decide

namespace Parser

open Rulebook.Expr (Measured Reader parts)
open Rulebook.Grammar
open State (Leads)

variable (parser : Parser)

def Settled (tiers : List Tier) (state : State) (rest : List Token) : Prop :=
  ∀ token, rest.head? = some token → state.step token = State.behind state.groups token ∧
    ∀ sign tier, token.kind = .operator sign → sign.tier? = some tier → tier ∉ tiers

def Passes (tiers : List Tier) (state : State) (tokens rest : List Token) : Prop :=
  ∃ phase, phase.isWhole = true ∧ Leads state tokens ⟨state.groups, phase⟩ rest ∧
    Settled tiers ⟨state.groups, phase⟩ rest

/-- Why reading stops short: at a token that may not come next, behind the last token of what is no
whole expression, or for want of room. -/
inductive Refuses (room : Nat) (state : State) (tokens : List Token) : SyntaxError → Prop
  | blocked {stuck : State} {token : Token} {behind : List Token} {fault : SyntaxFault}
      (leads : Leads state tokens stuck (token :: behind)) (no_step : stuck.step token = none) :
      Refuses room state tokens ⟨fault, token.position⟩
  | unfinished {final : State} {fault : SyntaxFault} (leads : Leads state tokens final [])
      (no_end : ¬ final.Accepts) : Refuses room state tokens ⟨fault, parser.ending⟩
  | deep {position : Nat} (exceeds : room < tokens.length ∨ parser.limit < tokens.length) :
      Refuses room state tokens ⟨.tooDeep parser.limit, position⟩

/-- What reading from a state comes to. An item that is read is no higher than it has tokens. -/
def Tracks {α : Type} (height : α → Nat) (room : Nat) (tiers : List Tier) (state : State)
    (tokens : List Token) : Except SyntaxError (α × Nat × List Token) → Prop
  | .ok (item, _, rest) =>
    Passes tiers state tokens rest ∧ height item + rest.length ≤ tokens.length
  | .error error => parser.Refuses room state tokens error

def Stepwise (room : Nat) (tiers : List Tier) (read : Reader Measured) : Prop :=
  ∀ groups tokens,
    parser.Tracks Measured.height room tiers ⟨groups, .operand⟩ tokens (parts (read tokens))

variable {parser}
variable {α β : Type} {height : α → Nat} {otherHeight : β → Nat} {room larger groups : Nat}
  {tier : Tier} {tiers otherTiers : List Tier} {state middle : State} {tokens rest : List Token}

theorem settled_complete (groups : Nat) (rest : List Token) :
    Settled [] ⟨groups, .complete⟩ rest := by
  intro token present
  exact ⟨rfl, fun sign tier at_operator of_tier => List.not_mem_nil⟩

theorem Settled.step_eq_none {token : Token} {behind : List Token}
    (settled : Settled Tier.all state (token :: behind))
    (no_end : token.kind = .rightParen → state.groups = 0) : state.step token = none := by
  rcases settled token rfl with ⟨same, no_operator⟩
  rw [same]
  cases at_kind : token.kind with
  | operator sign =>
      cases of_tier : sign.tier? with
      | none => simp [State.behind, at_kind, of_tier]
      | some tier => exact absurd tier.mem_all (no_operator sign tier at_kind of_tier)
  | rightParen => simp [State.behind, at_kind, no_end at_kind]
  | _ => simp [State.behind, at_kind]

theorem Passes.after (first : Leads state tokens middle rest) (same : middle.groups = state.groups)
    {behind : List Token} (passes : Passes tiers middle rest behind) :
    Passes tiers state tokens behind := by
  rcases passes with ⟨phase, whole, leads, settled⟩
  rw [same] at leads settled
  exact ⟨phase, whole, first.trans leads, settled⟩

theorem Passes.stop (passes : Passes tiers state tokens rest)
    (stop : ∀ token, rest.head? = some token →
      ∀ sign, token.kind = .operator sign → sign.tier? ≠ some tier) :
    Passes (tier :: tiers) state tokens rest := by
  rcases passes with ⟨phase, whole, leads, settled⟩
  refine ⟨phase, whole, leads, ?_⟩
  intro token present
  rcases settled token present with ⟨same, no_operator⟩
  refine ⟨same, ?_⟩
  intro sign other at_operator of_other member
  rcases List.mem_cons.mp member with rfl | member
  · exact stop token present sign at_operator of_other
  · exact no_operator sign other at_operator of_other member

theorem Refuses.after {error : SyntaxError} (first : Leads state tokens middle rest)
    (bounded : larger + rest.length ≤ room + tokens.length)
    (refuses : parser.Refuses room middle rest error) :
    parser.Refuses larger state tokens error := by
  cases refuses with
  | blocked leads no_step => exact .blocked (first.trans leads) no_step
  | unfinished leads no_end => exact .unfinished (first.trans leads) no_end
  | deep exceeds =>
      apply Refuses.deep
      have fewer := first.length_le
      omega

theorem Tracks.after (first : Leads state tokens middle rest) (same : middle.groups = state.groups)
    {result : Except SyntaxError (α × Nat × List Token)}
    (tracks : parser.Tracks height room tiers middle rest result) :
    parser.Tracks height room tiers state tokens result := by
  have fewer := first.length_le
  cases result with
  | error error => exact Refuses.after first (Nat.add_le_add_left fewer room) tracks
  | ok reading => exact ⟨tracks.1.after first same, Nat.le_trans tracks.2 fewer⟩

theorem Tracks.bind (enters : Leads state tokens middle rest)
    (bounded : larger + rest.length ≤ room + tokens.length)
    {result : Except SyntaxError (α × Nat × List Token)}
    (tracks : parser.Tracks height room tiers middle rest result)
    {next : α × Nat × List Token → Except SyntaxError (β × Nat × List Token)}
    (onward : ∀ item last behind, Passes tiers middle rest behind →
      height item + behind.length ≤ rest.length →
      parser.Tracks otherHeight larger otherTiers state tokens (next (item, last, behind))) :
    parser.Tracks otherHeight larger otherTiers state tokens (result >>= next) := by
  cases result with
  | error error => exact Refuses.after enters bounded tracks
  | ok reading =>
      rcases reading with ⟨item, last, behind⟩
      exact onward item last behind tracks.1 tracks.2

theorem tracks_reject {fault : Token → SyntaxFault} (leads : Leads state tokens middle rest)
    (no_step : ∀ token behind, rest = token :: behind → middle.step token = none)
    (no_end : rest = [] → ¬ middle.Accepts) :
    parser.Tracks height room tiers state tokens (parser.reject fault rest) := by
  cases rest with
  | nil => exact Refuses.unfinished leads (no_end rfl)
  | cons token behind => exact Refuses.blocked leads (no_step token behind rfl)

theorem tracks_limitHeight {item : Measured} (low : item.height ≤ tokens.length)
    {next : Measured → Except SyntaxError (α × Nat × List Token)}
    (tracks : parser.Tracks height room tiers state tokens (next item)) (position : Nat) :
    parser.Tracks height room tiers state tokens (parser.limitHeight item position >>= next) := by
  rw [limitHeight]
  split
  · rename_i higher
    exact Refuses.deep (.inr (Nat.lt_of_lt_of_le higher low))
  · exact tracks

/-- Reading on in an operation goes as the states do. The induction is on the number of tokens, of
which each further operator leaves fewer. -/
theorem chain_tracks {read : Reader Measured} (stepwise : parser.Stepwise room tiers read)
    {start : List Token} {left : Measured} {last : Nat}
    (passes : Passes tiers ⟨groups, .operand⟩ start tokens)
    (low : left.height + tokens.length ≤ start.length)
    {result : Except SyntaxError (Measured × Nat × List Token)}
    (chained : parts (parser.chain tier read left last tokens) = result) :
    parser.Tracks Measured.height room (tier :: tiers) ⟨groups, .operand⟩ start result := by
  induction size : tokens.length using Nat.strongRecOn generalizing left last tokens result with
  | ind size ih =>
      subst size
      cases tokens with
      | nil =>
          rw [parts_chain_nil] at chained
          rw [← chained]
          exact ⟨passes.stop nofun, low⟩
      | cons token after =>
          by_cases goes : ∃ sign, token.kind = .operator sign ∧ sign.tier? = some tier
          · rcases goes with ⟨sign, at_operator, of_tier⟩
            rcases passes with ⟨phase, whole, leads, settled⟩
            have steps : State.step ⟨groups, phase⟩ token = some ⟨groups, .operand⟩ :=
              State.step_operator whole at_operator of_tier
            have enters := leads.trans (.single steps after)
            rw [parts_chain_operator parser at_operator of_tier] at chained
            rw [← chained]
            rw [List.length_cons] at low
            -- The right operand goes on from behind the operator, in the same groups.
            apply Tracks.bind enters (by omega) (stepwise groups after)
            intro right position further rightPasses rightLow
            have joined_low : (left.binary sign right).height + further.length ≤ start.length := by
              simp only [Measured.binary]
              omega
            apply tracks_limitHeight (by omega)
            apply ih _ ?_ (rightPasses.after enters rfl) joined_low rfl rfl
            rw [List.length_cons]
            omega
          · have stop : ∀ sign, token.kind = .operator sign → sign.tier? ≠ some tier := by
              intro sign at_operator of_tier
              exact goes ⟨sign, at_operator, of_tier⟩
            rw [parts_chain_stop parser stop] at chained
            rw [← chained]
            refine ⟨passes.stop ?_, low⟩
            intro other present
            cases present
            exact stop

theorem foldr_stepwise {read : Reader Measured} (stepwise : parser.Stepwise room [] read)
    (tiers : List Tier) : parser.Stepwise room tiers (tiers.foldr parser.level read) := by
  induction tiers with
  | nil => exact stepwise
  | cons tier tiers ih =>
      intro groups tokens
      rw [List.foldr_cons, parts_level]
      apply Tracks.bind (.refl _ tokens) (Nat.le_refl _) (ih groups tokens)
      intro first last rest passes low
      exact chain_tracks ih passes low rfl

theorem pathEnd_tracks {phase : Phase} (whole : phase.isWhole = true)
    (stop : ∀ token, tokens.head? = some token → token.kind ≠ .dot ∧ token.kind ≠ .leftBracket)
    (path : String) (last : Nat) :
    parser.Tracks (fun _ => 0) room [] ⟨groups, phase⟩ tokens (.ok (path, last, tokens)) := by
  refine ⟨⟨phase, whole, .refl _ tokens, ?_⟩, Nat.le_of_eq (Nat.zero_add _)⟩
  intro token present
  rcases stop token present with ⟨no_dot, no_bracket⟩
  exact ⟨State.step_of_isWhole whole no_dot no_bracket, fun _ _ _ _ => List.not_mem_nil⟩

theorem featurePath_tracks {path : String} {last : Nat} {phase : Phase}
    (whole : phase.isWhole = true)
    (as_path : ∀ token, tokens.head? = some token →
      State.step ⟨groups, phase⟩ token = State.step ⟨groups, .path⟩ token)
    {result : Except SyntaxError (String × Nat × List Token)}
    (read : parts (parser.featurePath path last tokens) = result) :
    parser.Tracks (fun _ => 0) room [] ⟨groups, phase⟩ tokens result := by
  induction size : tokens.length using Nat.strongRecOn generalizing path last phase tokens with
  | ind size ih =>
      subst size
      by_cases at_point : ∃ point after, tokens = point :: after ∧ point.kind = .dot
      · rcases at_point with ⟨point, after, rfl, at_point⟩
        have points : State.step ⟨groups, phase⟩ point = some ⟨groups, .segment⟩ :=
          (as_path point rfl).trans (State.step_point (.inr rfl) at_point)
        by_cases at_name : ∃ name further, after = name :: further ∧ name.kind = .identifier
        · rcases at_name with ⟨name, further, rfl, at_name⟩
          rw [parts_featurePath_name parser at_point at_name] at read
          apply Tracks.after (.step points (.single (State.step_segment at_name) further)) rfl
          exact ih _ (by simp only [List.length_cons]; omega) rfl (fun _ _ => rfl) read rfl
        · have no_name : ∀ name, after.head? = some name → name.kind ≠ .identifier := by
            intro name present named
            exact at_name ⟨name, after.tail, List.eq_cons_of_mem_head? present, named⟩
          rw [parts_featurePath_point parser at_point _ _ no_name] at read
          rw [← read]
          apply tracks_reject (.single points after)
          · intro name further split
            subst split
            rw [State.step, if_neg (no_name name rfl)]
          · exact fun _ => State.not_accepts_of_phase rfl
      · by_cases opens : ∃ opening after, tokens = opening :: after ∧ opening.kind = .leftBracket
        · rcases opens with ⟨opening, after, rfl, opens⟩
          have enters : State.step ⟨groups, phase⟩ opening = some ⟨groups, .subscript⟩ :=
            (as_path opening rfl).trans (State.step_bracket opens)
          rw [parts_featurePath_subscript parser opens] at read
          cases found : (subscript (path ++ "[") after).map Expr.Reading.parts with
          | none =>
              rw [found] at read
              rw [← read]
              have inside := subscript_eq_none (Option.map_eq_none_iff.mp found)
              exact Refuses.unfinished (.step enters (State.leads_unclosed inside))
                (State.not_accepts_of_phase rfl)
          | some inner =>
              rcases inner with ⟨text, position, further⟩
              rw [found] at read
              rcases subscript_eq_some.mp found with ⟨inner, closing, rfl, inside, closes, -, -⟩
              apply Tracks.after (.step enters (State.leads_subscript inside closes further)) rfl
              apply ih _ ?_ rfl (fun _ _ => rfl) read rfl
              simp only [List.length_cons, List.length_append]
              omega
        · have stop : ∀ token, tokens.head? = some token →
              token.kind ≠ .dot ∧ token.kind ≠ .leftBracket := by
            intro token present
            have split := List.eq_cons_of_mem_head? present
            exact ⟨fun is_point => at_point ⟨token, _, split, is_point⟩,
              fun is_opening => opens ⟨token, _, split, is_opening⟩⟩
          rw [parts_featurePath_stop parser stop] at read
          rw [← read]
          exact pathEnd_tracks whole stop path last

theorem tracks_leaf {token : Token} {item : Measured} (leaf : item.height = 1)
    (steps : State.step ⟨groups, .operand⟩ token = some ⟨groups, .complete⟩) (last : Nat) :
    parser.Tracks Measured.height room [] ⟨groups, .operand⟩ (token :: rest)
      (.ok (item, last, rest)) := by
  refine ⟨⟨.complete, rfl, .single steps rest, settled_complete groups rest⟩, ?_⟩
  rw [leaf, List.length_cons, Nat.add_comm]

theorem named_tracks {token : Token} (at_name : token.kind = .identifier) :
    parser.Tracks Measured.height room [] ⟨groups, .operand⟩ (token :: rest)
      (parts (parser.named token rest)) := by
  rw [parts_named]
  by_cases at_root : token.lexeme = featureRoot
  · have steps : State.step ⟨groups, .operand⟩ token = some ⟨groups, .root⟩ :=
      State.step_root at_name at_root
    split
    · rename_i begins
      have as_path : ∀ point, rest.head? = some point →
          State.step ⟨groups, .root⟩ point = State.step ⟨groups, .path⟩ point := by
        intro point present
        have at_point : point.kind = .dot := by
          rw [present] at begins
          exact Option.some.inj begins.2
        rw [State.step, State.step, if_pos at_point, if_pos at_point]
      have fewer : room + rest.length ≤ room + (token :: rest).length :=
        Nat.add_le_add_left (Nat.le_succ rest.length) room
      apply Tracks.bind (.single steps rest) fewer (featurePath_tracks rfl as_path rfl)
      intro path last behind passes low
      refine ⟨passes.after (.single steps rest) rfl, ?_⟩
      simp only [Measured.feature, List.length_cons]
      omega
    · rename_i no_path
      refine ⟨⟨.root, rfl, .single steps rest, ?_⟩, ?_⟩
      · intro point present
        have no_point : point.kind ≠ .dot := by
          intro at_point
          apply no_path
          rw [present, Option.map_some, at_point]
          exact ⟨at_root, rfl⟩
        refine ⟨?_, fun _ _ _ _ => List.not_mem_nil⟩
        rw [State.step, if_neg no_point]
      · simp only [Measured.name, List.length_cons]
        omega
  · rw [if_neg fun begins => at_root begins.1]
    apply tracks_leaf rfl
    rw [State.step_name at_name, if_neg at_root]

theorem group_tracks {operand : Reader Measured} (stepwise : parser.Stepwise room [] operand)
    {opening : Token} (opens : opening.kind = .leftParen) :
    parser.Tracks Measured.height (room + 1) [] ⟨groups, .operand⟩ (opening :: tokens)
      (parts (parser.expression operand tokens) >>= parser.closeGroup) := by
  have enters : State.step ⟨groups, .operand⟩ opening = some ⟨groups + 1, .operand⟩ :=
    State.step_opening opens
  apply Tracks.bind (.single enters tokens) (by rw [List.length_cons]; omega)
    (foldr_stepwise stepwise Tier.all (groups + 1) tokens)
  intro tree last behind passes low
  rcases passes with ⟨phase, whole, leads, settled⟩
  have inner := State.Leads.step enters leads
  cases behind with
  | nil => exact Refuses.unfinished inner (State.not_accepts_of_groups phase)
  | cons closing after =>
      rw [closeGroup]
      split
      · rename_i closes
        have leaves : Leads ⟨groups + 1, phase⟩ (closing :: after) ⟨groups, .complete⟩ after :=
          .single (State.step_closing whole closes) after
        refine ⟨⟨.complete, rfl, inner.trans leaves, ?_⟩, ?_⟩
        · exact settled_complete groups after
        · rw [List.length_cons] at low ⊢
          omega
      · rename_i open_still
        exact Refuses.blocked inner (settled.step_eq_none fun closes => absurd closes open_still)

theorem sign_tracks {operand : Reader Measured} (stepwise : parser.Stepwise room [] operand)
    {operator : Token} {sign : OperatorSign} (at_operator : operator.kind = .operator sign)
    (unary : sign.isUnary = true) :
    parser.Tracks Measured.height (room + 1) [] ⟨groups, .operand⟩ (operator :: tokens)
      (parts (operand tokens) >>= fun (inner, last, after) =>
        parser.limitHeight (inner.unary sign) operator.position >>= fun tree =>
          .ok (tree, last, after)) := by
  have steps : State.step ⟨groups, .operand⟩ operator = some ⟨groups, .operand⟩ :=
    State.step_sign at_operator unary
  apply Tracks.bind (.single steps tokens) (by rw [List.length_cons]; omega)
    (stepwise groups tokens)
  intro inner last behind passes low
  have low_sign : (inner.unary sign).height + behind.length ≤ (operator :: tokens).length := by
    simp only [Measured.unary, List.length_cons]
    omega
  apply tracks_limitHeight (by omega)
  exact ⟨passes.after (.single steps tokens) rfl, low_sign⟩

theorem operandWith_stepwise {room : Nat}
    (inner : ∀ smaller, room = smaller + 1 → parser.Stepwise smaller [] (parser.operand smaller)) :
    parser.Stepwise room [] (parser.operandWith (parser.within room)) := by
  intro groups tokens
  cases tokens with
  | nil =>
      rw [parts_operandWith_nil]
      exact Refuses.unfinished (.refl _ []) (State.not_accepts_of_phase rfl)
  | cons token rest =>
      have blocked {fault : SyntaxFault} (no_step : State.step ⟨groups, .operand⟩ token = none) :
          parser.Tracks Measured.height room [] ⟨groups, .operand⟩ (token :: rest)
            (.error ⟨fault, token.position⟩) :=
        Refuses.blocked (.refl _ _) no_step
      have narrow : room = 0 → parser.Tracks Measured.height room [] ⟨groups, .operand⟩
          (token :: rest) (parser.tooDeep token.position) := by
        intro no_room
        rw [no_room]
        exact Refuses.deep (.inl (Nat.zero_lt_succ _))
      rw [parts_operandWith]
      cases at_kind : token.kind with
      | number =>
          cases readable : numberValue? token.lexeme with
          | none =>
              apply blocked
              simp [State.step, State.operand, at_kind, readable]
          | some value =>
              apply tracks_leaf rfl
              simp [State.step, State.operand, at_kind, readable]
      | text | boolean =>
          apply tracks_leaf rfl
          simp [State.step, State.operand, at_kind]
      | identifier => exact named_tracks at_kind
      | leftParen =>
          cases room with
          | zero => exact narrow rfl
          | succ room => exact group_tracks (inner room rfl) at_kind
      | operator sign =>
          simp only
          split
          · rename_i unary
            cases room with
            | zero => exact narrow rfl
            | succ room => exact sign_tracks (inner room rfl) at_kind unary
          · rename_i binary
            apply blocked
            simp [State.step, State.operand, at_kind, binary]
      | _ =>
          apply blocked
          simp [State.step, State.operand, at_kind]

/-- Only groups and signs go on to operands within, which have one level less. -/
theorem operand_stepwise (parser : Parser) (room : Nat) :
    parser.Stepwise room [] (parser.operand room) := by
  induction room with
  | zero => exact operandWith_stepwise nofun
  | succ room ih =>
      apply operandWith_stepwise
      intro smaller same
      cases same
      exact ih

/-- What a whole token list is refused for. -/
theorem run_refuses {error : SyntaxError} (refused : parser.run tokens = .error error) :
    parser.Refuses parser.limit State.start tokens error := by
  rw [run_eq] at refused
  split at refused
  · rename_i empty
    rw [List.isEmpty_iff.mp empty]
    cases refused
    exact Refuses.unfinished (.refl _ []) (State.not_accepts_of_phase rfl)
  · have tracks := foldr_stepwise (operand_stepwise parser parser.limit) Tier.all 0 tokens
    rw [expression_eq, reader] at refused
    cases read : parts (Tier.all.foldr parser.level (parser.operand parser.limit) tokens) with
    | error other =>
        rw [read] at refused tracks
        cases refused
        exact tracks
    | ok reading =>
        rcases reading with ⟨item, last, rest⟩
        rw [read] at refused tracks
        rcases tracks.1 with ⟨phase, -, leads, settled⟩
        cases rest with
        | nil => cases refused
        | cons token behind =>
            cases refused
            exact Refuses.blocked leads (settled.step_eq_none fun _ => rfl)

end Parser
end Rulebook
