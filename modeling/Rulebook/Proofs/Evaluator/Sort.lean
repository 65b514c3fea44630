import Rulebook.Proofs.Evaluator.Depth
import Rulebook.Proofs.Value.Sort

namespace Rulebook

inductive UnarySorts : String → ValueSort → ValueSort → Prop where
  | negation : UnarySorts "!" .boolean .boolean
  | negative : UnarySorts "-" .numeric .numeric

inductive BinarySorts : String → ValueSort → ValueSort → ValueSort → Prop where
  | logical {symbol : String} (known : symbol = "&&" ∨ symbol = "||") :
      BinarySorts symbol .boolean .boolean .boolean
  | order {symbol : String} (known : symbol = "<" ∨ symbol = "<=" ∨ symbol = ">" ∨ symbol = ">=") :
      BinarySorts symbol .numeric .numeric .boolean
  | equality {symbol : String} (known : symbol = "==" ∨ symbol = "!=") (first second : ValueSort) :
      BinarySorts symbol first second .boolean
  | arithmetic {symbol : String}
      (known : symbol = "+" ∨ symbol = "-" ∨ symbol = "*" ∨ symbol = "/" ∨ symbol = "%") :
      BinarySorts symbol .numeric .numeric .numeric
  | concatenation {first second : ValueSort} (first_known : first ≠ .null)
      (second_known : second ≠ .null) (text : first = .text ∨ second = .text) :
      BinarySorts "+" first second .text

inductive Expr.HasSort (scope : Scope) : Expr → ValueSort → Prop where
  | literal (value : Value) (form : LiteralForm) : HasSort scope (.literal value form) value.sort
  | name {id : String} {value : Value} (resolved : scope.resolve id = .ok value) :
      HasSort scope (.name id) value.sort
  | feature {path : String} {value : Value} (read : scope.features.value path = .ok value) :
      HasSort scope (.feature path) value.sort
  | unary {symbol : String} {operand : Expr} {asked given : ValueSort}
      (sorts : UnarySorts symbol asked given) (inner : HasSort scope operand asked) :
      HasSort scope (.unary symbol operand) given
  | binary {left right : Expr} {symbol : String} {first second given : ValueSort}
      (sorts : BinarySorts symbol first second given) (inLeft : HasSort scope left first)
      (inRight : HasSort scope right second) : HasSort scope (.binary left symbol right) given

namespace Evaluator

variable {evaluator : Evaluator} {scope : Scope}

theorem applyUnary_sound (standard : evaluator.operators = .standard) {symbol : String}
    {asked given : ValueSort} (sorts : UnarySorts symbol asked given) {operand : Value}
    (sorted : operand.sort = asked) : Sound given (evaluator.applyUnary symbol operand) := by
  rw [applyUnary_eq, standard]
  cases sorts with
  | negation => exact Value.negation_sound sorted
  | negative => exact Value.negate_sound sorted

theorem applyBinary_sound (standard : evaluator.operators = .standard) {symbol : String}
    {first second given : ValueSort} (sorts : BinarySorts symbol first second given)
    {left right : Value} (inLeft : left.sort = first) (inRight : right.sort = second) :
    Sound given (evaluator.applyBinary symbol left right) := by
  rw [applyBinary_eq, standard]
  cases sorts with
  | logical known =>
      rcases known with rfl | rfl
      · exact Value.logical_sound "&&" and inLeft inRight
      · exact Value.logical_sound "||" or inLeft inRight
  | order known =>
      rcases known with rfl | rfl | rfl | rfl
      · exact Value.compare_sound inLeft inRight "<" _
      · exact Value.compare_sound inLeft inRight "<=" _
      · exact Value.compare_sound inLeft inRight ">" _
      · exact Value.compare_sound inLeft inRight ">=" _
  | equality known first second =>
      rcases known with rfl | rfl <;> rfl
  | arithmetic known =>
      rcases known with rfl | rfl | rfl | rfl | rfl
      · exact Value.add_sound inLeft inRight
      · exact Value.numeric_sound inLeft inRight "-" _ _
      · exact Value.numeric_sound inLeft inRight "*" _ _
      · exact Value.divide_sound inLeft inRight
      · exact Value.modulo_sound inLeft inRight
  | concatenation first_known second_known text =>
      subst inLeft inRight
      exact Value.add_text_sound first_known second_known text

theorem boolean_of_decided? {symbol : String} {value decided : Value}
    (decides : decided? symbol value = some decided) : decided.sort = .boolean := by
  unfold decided? at decides
  split at decides
  · obtain rfl := Option.some.inj decides
    rfl
  · obtain rfl := Option.some.inj decides
    rfl
  · contradiction

theorem sort_of_decided? {symbol : String} {first second given : ValueSort}
    (sorts : BinarySorts symbol first second given) {value decided : Value}
    (decides : decided? symbol value = some decided) : decided.sort = given := by
  cases sorts with
  | logical | order | equality => exact boolean_of_decided? decides
  | arithmetic known => rcases known with rfl | rfl | rfl | rfl | rfl <;> contradiction
  | concatenation => contradiction

theorem unguarded_sound (standard : evaluator.operators = .standard) {expr : Expr}
    {sort : ValueSort} (sorted : expr.HasSort scope sort) :
    Sound sort (evaluator.unguarded scope expr) := by
  induction sorted with
  | literal value form => rfl
  | name resolved =>
      rw [unguarded, resolved]
      rfl
  | feature read =>
      rw [unguarded, read]
      rfl
  | unary sorts inner ih =>
      apply ih.bind
      intro value in_operand
      exact (applyUnary_sound standard sorts in_operand).within
  | @binary left right symbol first second given sorts inLeft inRight ihLeft ihRight =>
      apply ihLeft.bind
      intro value in_left
      cases decides : decided? symbol value with
      | some decided => exact sort_of_decided? sorts decides
      | none =>
          -- Only here the right operand is evaluated, so that its sort matters.
          apply ihRight.bind
          intro other in_right
          exact (applyBinary_sound standard sorts in_left in_right).within

/-- An expression with a sort has a value of it, or fails with an error of arithmetic; no operation
in it meets an operand that it does not take. -/
theorem sorted_safe (limit : Nat) (scope : Scope) {expr : Expr} {sort : ValueSort}
    (sorted : expr.HasSort scope sort) (fits : expr.height ≤ max 1 limit) :
    (∃ value, (ofDepth .standard limit).evaluate scope expr = .ok value ∧ value.sort = sort) ∨
      ∃ failure operator, (ofDepth .standard limit).evaluate scope expr = .error failure ∧
        (failure.root = .overflow operator ∨
          ∃ fault, failure.root = .arithmetic operator fault) := by
  have sound : Sound sort ((ofDepth .standard limit).unguarded scope expr) :=
    unguarded_sound rfl sorted
  rw [evaluate_eq_unguarded fits]
  cases result : (ofDepth .standard limit).unguarded scope expr with
  | ok value =>
      rw [result] at sound
      exact .inl ⟨value, rfl, sound⟩
  | error failure =>
      rw [result] at sound
      obtain ⟨operator, cause⟩ := sound
      exact .inr ⟨failure, operator, rfl, cause⟩

def visit : Scope where
  features := ⟨.object [("age", .integer 30), ("name", .string "Ann")]⟩
  results := .insert (.empty _) "rate" (.long 0x4000000000000000)

def ageText : Expr :=
  .binary (.literal (.text "age ") .text) "+" (.feature "featureMap.age")

def ageRate : Expr := .binary (.unary "-" (.name "rate")) "*" (.feature "featureMap.age")

/-- `(!(("age " + featureMap.age) == name) && ((-rate * featureMap.age) >= 0))`. -/
def visitCheck : Expr :=
  .binary (.unary "!" (.binary ageText "==" (.name "name"))) "&&"
    (.binary ageRate ">=" (.literal (.int 0) .number))

theorem visitCheck_safe :
    visitCheck.HasSort visit .boolean ∧ visitCheck.height = 5 ∧
      ((∃ value, (ofDepth .standard 5).evaluate visit visitCheck = .ok value ∧
        value.sort = .boolean) ∨
      ∃ failure operator, (ofDepth .standard 5).evaluate visit visitCheck = .error failure ∧
        (failure.root = .overflow operator ∨
          ∃ fault, failure.root = .arithmetic operator fault)) := by
  have age : Expr.HasSort visit (.feature "featureMap.age") .numeric := by
    have read : visit.features.value "featureMap.age" = .ok (.int 30) := by decide +kernel
    exact .feature read
  have name : Expr.HasSort visit (.name "name") .text := by
    have resolved : visit.resolve "name" = .ok (.text "Ann") := rfl
    exact .name resolved
  have rate : Expr.HasSort visit (.name "rate") .numeric := by
    have resolved : visit.resolve "rate" = .ok (.long 0x4000000000000000) := rfl
    exact .name resolved
  have sentence : ageText.HasSort visit .text :=
    .binary (.concatenation (by decide) (by decide) (.inl rfl)) (.literal (.text "age ") .text) age
  have product : ageRate.HasSort visit .numeric :=
    .binary (.arithmetic (by decide)) (.unary .negative rate) age
  have sorted : visitCheck.HasSort visit .boolean :=
    .binary (.logical (.inl rfl))
      (.unary .negation (.binary (.equality (.inl rfl) .text .text) sentence name))
      (.binary (.order (by decide)) product (.literal (.int 0) .number))
  exact ⟨sorted, rfl, sorted_safe 5 visit sorted (by decide)⟩

end Evaluator
end Rulebook
