import Rulebook.Proofs.Expr.Grammar
import Rulebook.Proofs.Token.Lexer

/-! What can begin an expression, token by token.

Of the tokens in front only two things matter for what may come next: how many groups are open, and
what was read last. A state keeps both. It tells the name that may begin a path from the other
operands, and inside of brackets it takes anything. From every state there are tokens that lead to
the end of an expression. -/

namespace Rulebook.Grammar

inductive Phase where
  | operand | root | segment | path | subscript | complete
  deriving DecidableEq

def Phase.isWhole : Phase → Bool
  | .root | .path | .complete => true
  | .operand | .segment | .subscript => false

structure State where
  groups : Nat
  phase : Phase
  deriving DecidableEq

namespace State

def start : State := ⟨0, .operand⟩

def behind (groups : Nat) (token : Token) : Option State :=
  match token.kind, groups with
  | .operator sign, _ => if sign.tier?.isSome then some ⟨groups, .operand⟩ else none
  | .rightParen, outer + 1 => some ⟨outer, .complete⟩
  | _, _ => none

def operand (groups : Nat) (token : Token) : Option State :=
  match token.kind with
  | .number => if (Parser.numberValue? token.lexeme).isSome then some ⟨groups, .complete⟩ else none
  | .text | .boolean => some ⟨groups, .complete⟩
  | .identifier => some ⟨groups, if token.lexeme = featureRoot then .root else .complete⟩
  | .leftParen => some ⟨groups + 1, .operand⟩
  | .operator sign => if sign.isUnary then some ⟨groups, .operand⟩ else none
  | _ => none

def step : State → Token → Option State
  | ⟨groups, .operand⟩, token => operand groups token
  | ⟨groups, .root⟩, token =>
    if token.kind = .dot then some ⟨groups, .segment⟩ else behind groups token
  | ⟨groups, .segment⟩, token =>
    if token.kind = .identifier then some ⟨groups, .path⟩ else none
  | ⟨groups, .path⟩, token =>
    if token.kind = .dot then some ⟨groups, .segment⟩
    else if token.kind = .leftBracket then some ⟨groups, .subscript⟩
    else behind groups token
  | ⟨groups, .subscript⟩, token =>
    some ⟨groups, if token.kind = .rightBracket then .path else .subscript⟩
  | ⟨groups, .complete⟩, token => behind groups token

def advance (state : State) (tokens : List Token) : Option State := tokens.foldlM step state

def Accepts (state : State) : Prop := state.groups = 0 ∧ state.phase.isWhole = true

variable {state middle final : State} {tokens behind rest : List Token} {groups : Nat}

theorem advance_nil : state.advance [] = some state := rfl

theorem advance_cons {token : Token} {next : State} (stepped : state.step token = some next) :
    state.advance (token :: tokens) = next.advance tokens := by
  rw [advance, List.foldlM_cons, stepped]
  rfl

theorem advance_append (tokens behind : List Token) :
    state.advance (tokens ++ behind) =
      (state.advance tokens).bind fun middle => middle.advance behind :=
  List.foldlM_append

theorem advance_of_append (advanced : state.advance (tokens ++ behind) = some final) :
    ∃ middle, state.advance tokens = some middle ∧ middle.advance behind = some final := by
  rw [advance_append, Option.bind_eq_some_iff] at advanced
  exact advanced

theorem not_accepts_of_phase {phase : Phase} (short : phase.isWhole = false) :
    ¬ Accepts ⟨groups, phase⟩ := by
  intro accepts
  rw [Accepts, short] at accepts
  cases accepts.2

theorem not_accepts_of_groups (phase : Phase) : ¬ Accepts ⟨groups + 1, phase⟩ := by
  intro accepts
  cases accepts.1

theorem step_of_isWhole {phase : Phase} (whole : phase.isWhole = true) {token : Token}
    (no_dot : token.kind ≠ .dot) (no_bracket : token.kind ≠ .leftBracket) :
    step ⟨groups, phase⟩ token = State.behind groups token := by
  cases phase with
  | root => rw [step, if_neg no_dot]
  | path => rw [step, if_neg no_dot, if_neg no_bracket]
  | complete => rfl
  | operand | segment | subscript => cases whole

theorem step_operator {phase : Phase} (whole : phase.isWhole = true) {operator : Token}
    {sign : OperatorSign} {tier : Tier} (at_operator : operator.kind = .operator sign)
    (of_tier : sign.tier? = some tier) :
    step ⟨groups, phase⟩ operator = some ⟨groups, .operand⟩ := by
  rw [step_of_isWhole whole (by simp [at_operator]) (by simp [at_operator])]
  simp [State.behind, at_operator, of_tier]

theorem step_closing {phase : Phase} (whole : phase.isWhole = true) {closing : Token}
    (closes : closing.kind = .rightParen) :
    step ⟨groups + 1, phase⟩ closing = some ⟨groups, .complete⟩ := by
  rw [step_of_isWhole whole (by simp [closes]) (by simp [closes])]
  simp [State.behind, closes]

theorem step_opening {opening : Token} (opens : opening.kind = .leftParen) :
    step ⟨groups, .operand⟩ opening = some ⟨groups + 1, .operand⟩ := by
  simp [step, operand, opens]

theorem step_sign {operator : Token} {sign : OperatorSign}
    (at_operator : operator.kind = .operator sign) (unary : sign.isUnary = true) :
    step ⟨groups, .operand⟩ operator = some ⟨groups, .operand⟩ := by
  simp [step, operand, at_operator, unary]

theorem step_name {token : Token} (at_name : token.kind = .identifier) :
    step ⟨groups, .operand⟩ token =
      some ⟨groups, if token.lexeme = featureRoot then .root else .complete⟩ := by
  simp [step, operand, at_name]

theorem step_root {root : Token} (at_name : root.kind = .identifier)
    (at_root : root.lexeme = featureRoot) :
    step ⟨groups, .operand⟩ root = some ⟨groups, .root⟩ := by
  rw [step_name at_name, if_pos at_root]

theorem step_point {phase : Phase} (open_path : phase = .root ∨ phase = .path) {point : Token}
    (at_point : point.kind = .dot) : step ⟨groups, phase⟩ point = some ⟨groups, .segment⟩ := by
  rcases open_path with rfl | rfl
  · rw [step, if_pos at_point]
  · rw [step, if_pos at_point]

theorem step_segment {name : Token} (at_name : name.kind = .identifier) :
    step ⟨groups, .segment⟩ name = some ⟨groups, .path⟩ := by
  rw [step, if_pos at_name]

theorem step_bracket {opening : Token} (opens : opening.kind = .leftBracket) :
    step ⟨groups, .path⟩ opening = some ⟨groups, .subscript⟩ := by
  simp [step, opens]

def Leads (state : State) (tokens : List Token) (next : State) (rest : List Token) : Prop :=
  ∃ front, tokens = front ++ rest ∧ state.advance front = some next

theorem Leads.refl (state : State) (tokens : List Token) : Leads state tokens state tokens :=
  ⟨[], rfl, advance_nil⟩

theorem Leads.trans {middleTokens : List Token} (first : Leads state tokens middle middleTokens)
    (second : Leads middle middleTokens final rest) : Leads state tokens final rest := by
  rcases first with ⟨front, rfl, advanced⟩
  rcases second with ⟨further, rfl, onward⟩
  refine ⟨front ++ further, (List.append_assoc front further rest).symm, ?_⟩
  rw [advance_append, advanced, Option.bind_some, onward]

theorem Leads.single {token : Token} (stepped : state.step token = some middle)
    (tokens : List Token) : Leads state (token :: tokens) middle tokens :=
  ⟨[token], rfl, (advance_cons stepped).trans advance_nil⟩

theorem Leads.step {token : Token} (stepped : state.step token = some middle)
    (onward : Leads middle tokens final rest) : Leads state (token :: tokens) final rest :=
  (Leads.single stepped tokens).trans onward

theorem Leads.length_le (leads : Leads state tokens final rest) : rest.length ≤ tokens.length := by
  rcases leads with ⟨front, rfl, -⟩
  rw [List.length_append]
  exact Nat.le_add_left _ _

theorem leads_inside {inner : List Token} (inside : ∀ token ∈ inner, token.kind ≠ .rightBracket) :
    Leads ⟨groups, .subscript⟩ (inner ++ rest) ⟨groups, .subscript⟩ rest := by
  induction inner with
  | nil => exact .refl _ rest
  | cons token inner ih =>
      rcases List.forall_mem_cons.mp inside with ⟨no_closing, others⟩
      have stays : step ⟨groups, .subscript⟩ token = some ⟨groups, .subscript⟩ := by
        rw [State.step, if_neg no_closing]
      exact .step stays (ih others)

theorem leads_unclosed {inner : List Token}
    (inside : ∀ token ∈ inner, token.kind ≠ .rightBracket) :
    Leads ⟨groups, .subscript⟩ inner ⟨groups, .subscript⟩ [] := by
  have onward : Leads ⟨groups, .subscript⟩ (inner ++ []) ⟨groups, .subscript⟩ [] :=
    leads_inside inside
  rwa [List.append_nil] at onward

theorem leads_subscript {inner : List Token} {closing : Token}
    (inside : ∀ token ∈ inner, token.kind ≠ .rightBracket) (closes : closing.kind = .rightBracket)
    (rest : List Token) :
    Leads ⟨groups, .subscript⟩ (inner ++ closing :: rest) ⟨groups, .path⟩ rest := by
  have leaves : step ⟨groups, .subscript⟩ closing = some ⟨groups, .path⟩ := by
    rw [State.step, if_pos closes]
  exact (leads_inside inside).trans (.single leaves rest)

end State

open State (Leads)

theorem Subscripts.leads {tokens rest : List Token} {text : String}
    (subscripts : Subscripts tokens rest text) (groups : Nat) :
    Leads ⟨groups, .path⟩ tokens ⟨groups, .path⟩ rest := by
  induction subscripts with
  | none => exact .refl _ _
  | @more opening closing inner tokens rest text opens inside closes further ih =>
      exact .step (State.step_bracket opens)
        ((State.leads_subscript inside closes tokens).trans ih)

theorem Segments.leads {tokens rest : List Token} {text : String}
    (segments : Segments tokens rest text) {groups : Nat} {phase : Phase}
    (open_path : phase = .root ∨ phase = .path) :
    Leads ⟨groups, phase⟩ tokens ⟨groups, .path⟩ rest := by
  induction segments generalizing phase with
  | last at_point at_name subscripts =>
      exact .step (State.step_point open_path at_point)
        (.step (State.step_segment at_name) (subscripts.leads groups))
  | more at_point at_name subscripts segments ih =>
      exact .step (State.step_point open_path at_point)
        (.step (State.step_segment at_name) ((subscripts.leads groups).trans (ih (.inr rfl))))

/-- An expression leads to where an operand is whole, with the groups open that were open before. -/
theorem Derives.leads {tiers : List Tier} {tokens rest : List Token} {tree : Expr} {nesting : Nat}
    (derives : Derives tiers tokens rest tree nesting) (groups : Nat) :
    ∃ phase, phase.isWhole = true ∧
      Leads ⟨groups, .operand⟩ tokens ⟨groups, phase⟩ rest := by
  induction derives generalizing groups with
  | tighter inner ih => exact ih groups
  | binary first at_operator of_tier second ihFirst ihSecond =>
      rcases ihFirst groups with ⟨phase, whole, leads⟩
      rcases ihSecond groups with ⟨final, final_whole, onward⟩
      refine ⟨final, final_whole, leads.trans (.step ?_ onward)⟩
      exact State.step_operator whole at_operator of_tier
  | sign at_operator unary inner ih =>
      rcases ih groups with ⟨phase, whole, leads⟩
      exact ⟨phase, whole, .step (State.step_sign at_operator unary) leads⟩
  | @group opening closing tokens rest tree nesting opens inner closes ih =>
      rcases ih (groups + 1) with ⟨phase, whole, leads⟩
      have leaves : Leads ⟨groups + 1, phase⟩ (closing :: rest) ⟨groups, .complete⟩ rest :=
        .single (State.step_closing whole closes) rest
      exact ⟨.complete, rfl, .step (State.step_opening opens) (leads.trans leaves)⟩
  | @number token rest value at_number readable =>
      refine ⟨.complete, rfl, .single ?_ rest⟩
      simp [State.step, State.operand, at_number, readable]
  | @text token rest at_text =>
      refine ⟨.complete, rfl, .single ?_ rest⟩
      simp [State.step, State.operand, at_text]
  | @boolean token rest at_boolean =>
      refine ⟨.complete, rfl, .single ?_ rest⟩
      simp [State.step, State.operand, at_boolean]
  | @name token rest at_name no_path =>
      refine ⟨if token.lexeme = featureRoot then .root else .complete, ?_, ?_⟩
      · split <;> rfl
      · exact .single (State.step_name at_name) rest
  | path at_name at_root segments =>
      exact ⟨.path, rfl, .step (State.step_root at_name at_root) (segments.leads (.inl rfl))⟩

/-- Whether tokens are one expression, of any height. -/
def Complete (tokens : List Token) : Prop :=
  ∃ tree nesting, Derives Tier.all tokens [] tree nesting

/-- Whether tokens are the front of an expression. -/
def Viable (tokens : List Token) : Prop :=
  ∃ further, (∀ token ∈ further, token.Counts) ∧ Complete (tokens ++ further)

theorem Complete.accepts {tokens : List Token} (complete : Complete tokens) :
    ∃ state, State.start.advance tokens = some state ∧ state.Accepts := by
  rcases complete with ⟨tree, nesting, derives⟩
  rcases derives.leads 0 with ⟨phase, whole, front, split, advanced⟩
  rw [List.append_nil] at split
  rw [← split] at advanced
  exact ⟨⟨0, phase⟩, advanced, rfl, whole⟩

theorem Viable.advances {tokens : List Token} (viable : Viable tokens) :
    ∃ state, State.start.advance tokens = some state := by
  rcases viable with ⟨further, -, complete⟩
  rcases complete.accepts with ⟨final, advanced, -⟩
  rcases State.advance_of_append advanced with ⟨state, reached, -⟩
  exact ⟨state, reached⟩

namespace State

def closing : Token := ⟨.rightParen, ")", 0⟩

theorem advance_closings {phase : Phase} (whole : phase.isWhole = true) (groups : Nat) :
    ∃ final, advance ⟨groups, phase⟩ (List.replicate groups closing) = some final ∧
      final.Accepts := by
  induction groups generalizing phase with
  | zero => exact ⟨⟨0, phase⟩, rfl, rfl, whole⟩
  | succ groups ih =>
      rcases @ih .complete rfl with ⟨final, advanced, accepts⟩
      rw [List.replicate_succ, advance_cons (step_closing whole rfl)]
      exact ⟨final, advanced, accepts⟩

theorem exists_whole (state : State) :
    ∃ further phase, (∀ token ∈ further, token.Counts) ∧ phase.isWhole = true ∧
      state.advance further = some ⟨state.groups, phase⟩ := by
  rcases state with ⟨groups, phase⟩
  cases phase with
  | operand => exact ⟨[⟨.text, "", 0⟩], .complete, by simp [Token.Counts], rfl, rfl⟩
  | segment => exact ⟨[⟨.identifier, "x", 0⟩], .path, by simp [Token.Counts], rfl, rfl⟩
  | subscript => exact ⟨[⟨.rightBracket, "]", 0⟩], .path, by simp [Token.Counts], rfl, rfl⟩
  | root | path | complete => exact ⟨[], _, nofun, rfl, rfl⟩

/-- From every state tokens lead to the end of an expression. -/
theorem exists_completion (state : State) :
    ∃ further final, (∀ token ∈ further, token.Counts) ∧
      state.advance further = some final ∧ final.Accepts := by
  rcases state.exists_whole with ⟨further, phase, count, whole, advanced⟩
  rcases advance_closings whole state.groups with ⟨final, closed, accepts⟩
  refine ⟨further ++ List.replicate state.groups closing, final, ?_, ?_, accepts⟩
  · intro token member
    rcases List.mem_append.mp member with earlier | later
    · exact count token earlier
    · rw [List.eq_of_mem_replicate later]
      exact ⟨by decide, by decide⟩
  · rw [advance_append, advanced, Option.bind_some, closed]

end State

end Rulebook.Grammar
