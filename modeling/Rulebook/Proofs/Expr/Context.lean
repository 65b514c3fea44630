import Rulebook.Expr

namespace Rulebook.Expr

def operands : Expr → List Expr
  | .literal .. | .name _ | .feature _ => []
  | .unary _ operand => [operand]
  | .binary left _ right => [left, right]

theorem height_pos (expr : Expr) : 0 < expr.height := by
  cases expr with
  | literal | name | feature => exact Nat.zero_lt_one
  | unary | binary => exact Nat.zero_lt_succ _

inductive Frame where
  | inOperand (operator : String)
  | inLeft (operator : String) (right : Expr)
  | inRight (left : Expr) (operator : String)

def Frame.fill : Frame → Expr → Expr
  | .inOperand operator, expr => .unary operator expr
  | .inLeft operator right, expr => .binary expr operator right
  | .inRight left operator, expr => .binary left operator expr

theorem Frame.height_lt (frame : Frame) (expr : Expr) : expr.height < (frame.fill expr).height := by
  cases frame with
  | inOperand operator => exact Nat.lt_succ_self _
  | inLeft operator right => exact Nat.lt_succ_of_le (Nat.le_max_left _ _)
  | inRight left operator => exact Nat.lt_succ_of_le (Nat.le_max_right _ _)

abbrev Context := List Frame

namespace Context

def fill (context : Context) (expr : Expr) : Expr := context.foldr Frame.fill expr

def Along (context : Context) (holds : Nat → Expr → Prop) (level : Nat) (expr : Expr) : Prop :=
  ∀ outer inner : Context, context = outer ++ inner → holds (level + outer.length) (inner.fill expr)

variable {frame : Frame} {context : Context} {holds : Nat → Expr → Prop} {level : Nat} {expr : Expr}

theorem length_add_height_le (context : Context) (expr : Expr) :
    context.length + expr.height ≤ (context.fill expr).height := by
  induction context with
  | nil => exact Nat.le_of_eq (Nat.zero_add _)
  | cons frame context ih =>
      have outer : (fill context expr).height < (fill (frame :: context) expr).height :=
        frame.height_lt _
      rw [List.length_cons]
      omega

theorem along_nil (here : holds level expr) : Along [] holds level expr := by
  intro outer inner split
  obtain ⟨rfl, rfl⟩ := List.append_eq_nil_iff.mp split.symm
  exact here

theorem along_cons (here : holds level (frame.fill (context.fill expr)))
    (below : context.Along holds (level + 1) expr) : Along (frame :: context) holds level expr := by
  intro outer inner split
  rcases List.cons_eq_append_iff.mp split with ⟨rfl, rfl⟩ | ⟨rest, rfl, rest_split⟩
  · exact here
  · have deeper := below rest inner rest_split
    rwa [Nat.add_right_comm] at deeper

/-- What holds of an expression and goes on to an operand, unless something else holds there, is
followed to the part where it stops. -/
theorem exists_along {stops : Nat → Expr → Prop}
    (step : ∀ level expr, holds level expr → stops level expr ∨
      ∃ (frame : Frame) (operand : Expr), expr = frame.fill operand ∧ holds (level + 1) operand)
    (start : holds level expr) :
    ∃ (context : Context) (part : Expr), expr = context.fill part ∧
      stops (level + context.length) part ∧ context.Along holds level part := by
  induction height : expr.height using Nat.strongRecOn generalizing expr level with
  | ind height ih =>
      rcases step level expr start with stop | ⟨frame, operand, rfl, below⟩
      · exact ⟨[], expr, rfl, stop, along_nil start⟩
      · obtain ⟨context, part, rfl, stop, along⟩ :=
          ih operand.height (height ▸ frame.height_lt operand) below rfl
        refine ⟨frame :: context, part, rfl, ?_, along_cons start along⟩
        rwa [Nat.add_right_comm] at stop

end Context
end Rulebook.Expr
