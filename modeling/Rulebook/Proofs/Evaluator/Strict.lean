import Rulebook.Proofs.Evaluator.Depth

/-! Evaluation against strict evaluation.

Strict evaluation always evaluates both sides of an operation. It can fail where evaluation has a
value, but only behind a side that decides: on the right of `false &&` or of `true ||`, or because
what stands there is no boolean. -/

namespace Rulebook

/-- Two results are the same, or errors of one cause that name different expressions. -/
inductive SameButText : Result Value → Result Value → Prop where
  | same (result : Result Value) : SameButText result result
  | text (cause : Failure) (one other : String) :
      SameButText (.error (.evaluation one cause)) (.error (.evaluation other cause))

theorem SameButText.eq_ok {value : Value} {other : Result Value}
    (same : SameButText (.ok value) other) : other = .ok value := by
  cases same
  rfl

theorem SameButText.bind {one other : Result Value} {next further : Value → Result Value}
    (first : SameButText one other) (second : ∀ value, SameButText (next value) (further value)) :
    SameButText (one >>= next) (other >>= further) := by
  cases first with
  | same =>
      cases one with
      | error failure => exact .same _
      | ok value => exact second value
  | text cause one other => exact .text cause one other

namespace Evaluator

variable {evaluator : Evaluator} {scope : Scope} {level : Nat}

def strictlyAt (evaluator : Evaluator) (scope : Scope) (level : Nat) (expr : Expr) :
    Result Value :=
  if evaluator.depth < level then .error (.malformed ⟨.tooDeep evaluator.depth, 0⟩)
  else
    match expr with
    | .literal value _ => .ok value
    | .name id => located expr (scope.resolve id)
    | .feature path => located expr (scope.features.value path)
    | .unary symbol operand => do
      let value ← evaluator.strictlyAt scope (level + 1) operand
      located expr (evaluator.applyUnary symbol value)
    | .binary left symbol right => do
      let first ← evaluator.strictlyAt scope (level + 1) left
      let second ← evaluator.strictlyAt scope (level + 1) right
      located expr (evaluator.applyBinary symbol first second)
  termination_by structural expr

def Decides (symbol : String) (first : Value) : Prop :=
  symbol = "&&" ∧ first = .boolean false ∨ symbol = "||" ∧ first = .boolean true

theorem decided?_of_decides {symbol : String} {first : Value} (decides : Decides symbol first) :
    decided? symbol first = some first := by
  rcases decides with ⟨rfl, rfl⟩ | ⟨rfl, rfl⟩ <;> rfl

theorem decided?_eq_none {symbol : String} {first : Value} (undecided : ¬ Decides symbol first) :
    decided? symbol first = none := by
  unfold decided?
  split
  · exact absurd (.inl ⟨rfl, rfl⟩) undecided
  · exact absurd (.inr ⟨rfl, rfl⟩) undecided
  · rfl

/-- Behind a side that decides, a standard operation gives that side back, if it is given a boolean
at all. -/
theorem apply_decided (logic : evaluator.operators.StandardLogic) {symbol : String}
    {first : Value} (decides : Decides symbol first) (second : Value) :
    evaluator.applyBinary symbol first second =
      match second.asBool? with
      | some _ => .ok first
      | none => .error (.typeMismatch symbol .boolean (first.describePair second)) := by
  rcases decides with ⟨rfl, rfl⟩ | ⟨rfl, rfl⟩
  · rw [applyBinary_eq, logic.conjunction]
    cases second <;> rfl
  · rw [applyBinary_eq, logic.disjunction]
    cases second <;> rfl

theorem shallow_of_ok {expr : Expr} {value : Value}
    (read : evaluator.evaluateAt scope level expr = .ok value) : ¬ evaluator.depth < level := by
  apply not_deep
  rw [read]
  nofun

theorem shallow_of_operand {expr : Expr} {value : Value}
    (read : evaluator.evaluateAt scope (level + 1) expr = .ok value) :
    ¬ evaluator.depth < level :=
  fun deep => shallow_of_ok read (Nat.lt_succ_of_lt deep)

theorem evaluateAt_unary {symbol : String} {operand : Expr} {value : Value}
    (read : evaluator.evaluateAt scope (level + 1) operand = .ok value) :
    evaluator.evaluateAt scope level (.unary symbol operand) =
      located (.unary symbol operand) (evaluator.applyUnary symbol value) := by
  simp only [evaluateAt, if_neg (shallow_of_operand read), read, ok_bind]

theorem evaluateAt_decided {symbol : String} {left right : Expr} {first : Value}
    (read : evaluator.evaluateAt scope (level + 1) left = .ok first)
    (decides : Decides symbol first) :
    evaluator.evaluateAt scope level (.binary left symbol right) = .ok first := by
  simp only [evaluateAt, if_neg (shallow_of_operand read), read, ok_bind, decided?_of_decides decides]
  rfl

theorem evaluateAt_undecided {symbol : String} {left right : Expr} {first : Value}
    (read : evaluator.evaluateAt scope (level + 1) left = .ok first)
    (undecided : ¬ Decides symbol first) :
    evaluator.evaluateAt scope level (.binary left symbol right) =
      evaluator.evaluateAt scope (level + 1) right >>= fun second =>
        located (.binary left symbol right) (evaluator.applyBinary symbol first second) := by
  simp only [evaluateAt, if_neg (shallow_of_operand read), read, ok_bind, decided?_eq_none undecided]

theorem shallow_of_strict {expr : Expr} {value : Value}
    (strict : evaluator.strictlyAt scope level expr = .ok value) : ¬ evaluator.depth < level := by
  intro deep
  have fails : evaluator.strictlyAt scope level expr = .error evaluator.depthFault := by
    cases expr <;> exact if_pos deep
  rw [fails] at strict
  contradiction

theorem evaluateAt_of_strict (logic : evaluator.operators.StandardLogic) {expr : Expr}
    {value : Value} (strict : evaluator.strictlyAt scope level expr = .ok value) :
    evaluator.evaluateAt scope level expr = .ok value := by
  induction expr generalizing level value with
  | literal value kind | name id | feature path => exact strict
  | unary symbol operand ih =>
      simp only [strictlyAt, if_neg (shallow_of_strict strict)] at strict
      obtain ⟨inner, read, applied⟩ := bind_eq_ok.mp strict
      rw [evaluateAt_unary (ih read), applied]
  | binary left symbol right ihLeft ihRight =>
      simp only [strictlyAt, if_neg (shallow_of_strict strict)] at strict
      obtain ⟨first, readLeft, further⟩ := bind_eq_ok.mp strict
      obtain ⟨second, readRight, applied⟩ := bind_eq_ok.mp further
      by_cases decides : Decides symbol first
      · rw [evaluateAt_decided (ihLeft readLeft) decides]
        rw [apply_decided logic decides] at applied
        split at applied
        · exact applied
        · contradiction
      · rw [evaluateAt_undecided (ihLeft readLeft) decides, ihRight readRight, ok_bind, applied]

/-- Strict evaluation fails behind a left side that decides: on the right side, or at the operation,
as the right side is no boolean. -/
def FailsBehind (evaluator : Evaluator) (scope : Scope) (level : Nat) (left : Expr)
    (symbol : String) (right : Expr) (failure : Failure) : Prop :=
  ∃ first, evaluator.strictlyAt scope (level + 1) left = .ok first ∧ Decides symbol first ∧
    (evaluator.strictlyAt scope (level + 1) right = .error failure ∨
      ∃ second, evaluator.strictlyAt scope (level + 1) right = .ok second ∧
        second.asBool? = none ∧
        failure = .evaluation (Expr.binary left symbol right).render
          (.typeMismatch symbol .boolean (first.describePair second)))

def PassesBy (evaluator : Evaluator) (scope : Scope) (failure : Failure) (level : Nat)
    (expr : Expr) : Prop :=
  (∃ value, evaluator.evaluateAt scope level expr = .ok value) ∧
    evaluator.strictlyAt scope level expr = .error failure

theorem behind_or_below (logic : evaluator.operators.StandardLogic) {failure : Failure}
    (level : Nat) (expr : Expr) (passes : evaluator.PassesBy scope failure level expr) :
    (∃ left symbol right, expr = .binary left symbol right ∧
      evaluator.FailsBehind scope level left symbol right failure) ∨
    ∃ (frame : Expr.Frame) (operand : Expr), expr = frame.fill operand ∧
      evaluator.PassesBy scope failure (level + 1) operand := by
  obtain ⟨⟨value, read⟩, fails⟩ := passes
  have shallow := shallow_of_ok read
  cases expr with
  | literal value kind | name id | feature path =>
      have same := read.symm.trans fails
      contradiction
  | unary symbol operand =>
      simp only [evaluateAt, if_neg shallow] at read
      simp only [strictlyAt, if_neg shallow] at fails
      obtain ⟨inner, readInner, applied⟩ := bind_eq_ok.mp read
      rcases bind_eq_error.mp fails with failed | ⟨strictInner, strict, refused⟩
      · exact .inr ⟨.inOperand symbol, operand, rfl, ⟨inner, readInner⟩, failed⟩
      · rw [evaluateAt_of_strict logic strict, Except.ok.injEq] at readInner
        rw [readInner, applied] at refused
        contradiction
  | binary left symbol right =>
      simp only [evaluateAt, if_neg shallow] at read
      simp only [strictlyAt, if_neg shallow] at fails
      obtain ⟨first, readLeft, further⟩ := bind_eq_ok.mp read
      rcases bind_eq_error.mp fails with failed | ⟨strictFirst, strictLeft, refused⟩
      · exact .inr ⟨.inLeft symbol right, left, rfl, ⟨first, readLeft⟩, failed⟩
      -- From here on both evaluations have the same left side.
      rw [evaluateAt_of_strict logic strictLeft, Except.ok.injEq] at readLeft
      subst readLeft
      by_cases decides : Decides symbol strictFirst
      · refine .inl ⟨left, symbol, right, rfl, strictFirst, strictLeft, decides, ?_⟩
        rcases bind_eq_error.mp refused with failed | ⟨second, strictRight, applied⟩
        · exact .inl failed
        · obtain ⟨cause, mismatch, rfl⟩ := located_eq_error.mp applied
          rw [apply_decided logic decides] at mismatch
          split at mismatch
          · contradiction
          · rename_i no_boolean
            obtain rfl := Except.error.inj mismatch
            exact .inr ⟨second, strictRight, no_boolean, rfl⟩
      · simp only [decided?_eq_none decides] at further
        obtain ⟨second, readRight, applied⟩ := bind_eq_ok.mp further
        rcases bind_eq_error.mp refused with failed | ⟨strictSecond, strictRight, mismatch⟩
        · exact .inr ⟨.inRight left symbol, right, rfl, ⟨second, readRight⟩, failed⟩
        · rw [evaluateAt_of_strict logic strictRight, Except.ok.injEq] at readRight
          rw [readRight, applied] at mismatch
          contradiction

theorem located_sameButText (expr other : Expr) (result : Result Value) :
    SameButText (located expr result) (located other result) := by
  cases result with
  | error cause => exact .text cause expr.render other.render
  | ok value => exact .same _

theorem evaluateAt_around (frame : Expr.Frame) {expr other : Expr}
    (inside : SameButText (evaluator.evaluateAt scope (level + 1) expr)
      (evaluator.evaluateAt scope (level + 1) other)) :
    SameButText (evaluator.evaluateAt scope level (frame.fill expr))
      (evaluator.evaluateAt scope level (frame.fill other)) := by
  by_cases deep : evaluator.depth < level
  · rw [evaluateAt_deep deep, evaluateAt_deep deep]
    exact .same _
  cases frame with
  | inOperand symbol =>
      simp only [Expr.Frame.fill, evaluateAt, if_neg deep]
      exact inside.bind fun value => located_sameButText _ _ _
  | inLeft symbol right =>
      simp only [Expr.Frame.fill, evaluateAt, if_neg deep]
      apply inside.bind
      intro first
      split
      · exact .same _
      · exact (SameButText.same _).bind fun second => located_sameButText _ _ _
  | inRight left symbol =>
      simp only [Expr.Frame.fill, evaluateAt, if_neg deep]
      apply (SameButText.same _).bind
      intro first
      split
      · exact .same _
      · exact inside.bind fun second => located_sameButText _ _ _

theorem evaluateAt_fill (context : Expr.Context) {expr other : Expr}
    (inside : SameButText (evaluator.evaluateAt scope (level + context.length) expr)
      (evaluator.evaluateAt scope (level + context.length) other)) :
    SameButText (evaluator.evaluateAt scope level (context.fill expr))
      (evaluator.evaluateAt scope level (context.fill other)) := by
  induction context generalizing level with
  | nil => exact inside
  | cons frame context ih =>
      apply evaluateAt_around frame
      apply ih
      rwa [List.length_cons, Nat.add_comm context.length, ← Nat.add_assoc] at inside

theorem evaluate_behind (context : Expr.Context) {left : Expr} {symbol : String} {first : Value}
    (right other : Expr)
    (read : evaluator.evaluateAt scope (context.length + 2) left = .ok first)
    (decides : Decides symbol first) :
    SameButText (evaluator.evaluate scope (context.fill (.binary left symbol right)))
      (evaluator.evaluate scope (context.fill (.binary left symbol other))) := by
  apply evaluateAt_fill
  rw [Nat.add_comm 1, evaluateAt_decided read decides, evaluateAt_decided read decides]
  exact .same _

/-- Where strict evaluation has a value, evaluation has the same. Where evaluation alone has a value,
the strict one fails behind a left side that decides, and what stands on the right of such a side
is nothing to the value. It is nothing to an error either, but for the text of the expression. -/
theorem evaluate_refines_strict (evaluator : Evaluator)
    (logic : evaluator.operators.StandardLogic) (scope : Scope) (expr : Expr) :
    (∀ value, evaluator.strictlyAt scope 1 expr = .ok value →
      evaluator.evaluate scope expr = .ok value) ∧
    (∀ value failure, evaluator.evaluate scope expr = .ok value →
      evaluator.strictlyAt scope 1 expr = .error failure →
      ∃ (context : Expr.Context) (left : Expr) (symbol : String) (right : Expr),
        expr = context.fill (.binary left symbol right) ∧
        evaluator.FailsBehind scope (context.length + 1) left symbol right failure ∧
        (∀ outer inner : Expr.Context, context = outer ++ inner →
          evaluator.strictlyAt scope (outer.length + 1)
            (inner.fill (.binary left symbol right)) = .error failure) ∧
        ∀ other, evaluator.evaluate scope (context.fill (.binary left symbol other)) = .ok value) ∧
    ∀ (context : Expr.Context) (left : Expr) (symbol : String) (right other : Expr) (first : Value),
      evaluator.evaluateAt scope (context.length + 2) left = .ok first → Decides symbol first →
      SameButText (evaluator.evaluate scope (context.fill (.binary left symbol right)))
        (evaluator.evaluate scope (context.fill (.binary left symbol other))) := by
  refine ⟨fun value strict => evaluateAt_of_strict logic strict, ?_,
    fun context left symbol right other first => evaluate_behind context right other⟩
  intro value failure read fails
  obtain ⟨context, part, rfl, ⟨left, symbol, right, rfl, behind⟩, along⟩ :=
    Expr.Context.exists_along (behind_or_below logic) ⟨⟨value, read⟩, fails⟩
  rw [Nat.add_comm] at behind
  refine ⟨context, left, symbol, right, rfl, behind, ?_, ?_⟩
  · intro outer inner split
    rw [Nat.add_comm]
    exact (along outer inner split).2
  · intro other
    obtain ⟨first, strict, decides, -⟩ := behind
    have same := evaluate_behind context right other (evaluateAt_of_strict logic strict) decides
    rw [read] at same
    exact same.eq_ok

/-- `(1 > 2 && 1 / 0 > 0) == false`, where the quotient is left out. -/
def passedQuotient : Expr :=
  .binary (.binary (.binary (.literal (.int 1) .number) ">" (.literal (.int 2) .number)) "&&"
    (.binary (.binary (.literal (.int 1) .number) "/" (.literal (.int 0) .number)) ">"
      (.literal (.int 0) .number))) "==" (.literal (.boolean false) .boolean)

theorem passedQuotient_behind :
    OperatorSet.standard.StandardLogic ∧ ∃ failure,
      failure = .evaluation "(1 / 0)" (.arithmetic "/" .zeroDivisor) ∧
      (ofOperators .standard).evaluate {} passedQuotient = .ok (.boolean true) ∧
      (ofOperators .standard).strictlyAt {} 1 passedQuotient = .error failure ∧
      ∃ (context : Expr.Context) (left : Expr) (symbol : String) (right : Expr),
        passedQuotient = context.fill (.binary left symbol right) ∧
        (ofOperators .standard).FailsBehind {} (context.length + 1) left symbol right failure ∧
        ∀ other, (ofOperators .standard).evaluate {} (context.fill (.binary left symbol other)) =
          .ok (.boolean true) := by
  have read : (ofOperators .standard).evaluate {} passedQuotient = .ok (.boolean true) := by
    decide +kernel
  have fails : (ofOperators .standard).strictlyAt {} 1 passedQuotient =
      .error (.evaluation "(1 / 0)" (.arithmetic "/" .zeroDivisor)) := by
    decide +kernel
  obtain ⟨-, passes, -⟩ := evaluate_refines_strict (ofOperators .standard)
    OperatorSet.standard_logic {} passedQuotient
  obtain ⟨context, left, symbol, right, whole, behind, -, unread⟩ := passes _ _ read fails
  exact ⟨OperatorSet.standard_logic, _, rfl, read, fails, context, left, symbol, right, whole,
    behind, unread⟩

end Evaluator
end Rulebook
