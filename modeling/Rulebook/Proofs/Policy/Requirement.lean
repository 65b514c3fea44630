import Rulebook.Proofs.Evaluator.Location
import Rulebook.Proofs.Policy.Execution

namespace Rulebook

def Json.Container (node : Json) : Prop :=
  (∃ items, node = .array items) ∨ ∃ entries, node = .object entries

theorem Value.ofJson?_eq_null {node : Json} : ofJson? node = some .null ↔ node = .null := by
  cases node with
  | integer number =>
      have number_kept : (ofInteger? number).getD (.double (.ofInt number)) ≠ .null := by
        rw [ofInteger?]
        cases int32? number <;> cases int64? number <;> simp
      simpa [ofJson?] using number_kept
  | null | boolean | real | string | array | object => simp [ofJson?]

namespace Features

variable {features : Features} {path : String}

theorem has_iff : features.has path = true ↔
    ∃ node, features.find path = .ok (some node) ∧ node ≠ .null := by
  rw [has]
  split
  · rename_i node found
    cases node <;> simp [found, Json.isNull]
  · rename_i absent
    simp only [Bool.false_eq_true, false_iff, not_exists, not_and]
    exact fun node found => absurd found (absent node)

theorem requirePaths_eq_ok {paths : List String} :
    features.requirePaths paths = .ok () ↔ ∀ path ∈ paths, features.has path = true := by
  induction paths with
  | nil => simp [requirePaths]
  | cons path rest ih =>
      rw [requirePaths, List.forall_mem_cons, ← ih]
      cases features.has path <;> simp

theorem value_ne_null (there : features.has path = true) : features.value path ≠ .ok .null := by
  obtain ⟨node, found, some_node⟩ := has_iff.mp there
  rw [value_of_find found]
  cases read : Value.ofJson? node with
  | none => nofun
  | some value =>
      intro null
      rw [Except.ok.inj null, Value.ofJson?_eq_null] at read
      exact some_node read

theorem value_error (there : features.has path = true) {failure : Failure}
    (fails : features.value path = .error failure) :
    failure = .invalidPath path .container ∧
      ∃ node, features.find path = .ok (some node) ∧ node.Container := by
  obtain ⟨node, found, -⟩ := has_iff.mp there
  rw [value_of_find found] at fails
  cases read : Value.ofJson? node with
  | none =>
      rw [read] at fails
      exact ⟨(Except.error.inj fails).symm, node, found, Value.ofJson?_eq_none.mp read⟩
  | some value =>
      rw [read] at fails
      contradiction

end Features

theorem Scope.resolve_error {scope : Scope} {id : String} {failure : Failure}
    (fails : scope.resolve id = .error failure) :
    failure = .unknownName id ∨ failure = .invalidPath id .namedContainer ∧
      ∃ node, scope.features.get? id = some node ∧ node.Container := by
  rw [resolve] at fails
  split at fails
  · contradiction
  · split at fails
    · exact .inl (Except.error.inj fails).symm
    · rename_i node there
      split at fails
      · contradiction
      · rename_i unread
        exact .inr ⟨(Except.error.inj fails).symm, node, there, Value.ofJson?_eq_none.mp unread⟩

namespace Evaluator

variable {evaluator : Evaluator} {scope : Scope}

theorem applyUnary_failsAs (standard : evaluator.operators = .standard) (symbol : String)
    (operand : Value) : FailsAs Failure.OfOperator (evaluator.applyUnary symbol operand) := by
  rw [applyUnary_eq, standard]
  split
  · rename_i run found
    exact OperatorSet.operation?_of_forall OperatorSet.standard_failsAs found operand
  · exact failsAs_error.mpr trivial

theorem applyBinary_failsAs (standard : evaluator.operators = .standard) (symbol : String)
    (left right : Value) :
    FailsAs Failure.OfOperator (evaluator.applyBinary symbol left right) := by
  rw [applyBinary_eq, standard]
  split
  · rename_i run found
    exact OperatorSet.operation?_of_forall OperatorSet.standard_failsAs found left right
  · exact failsAs_error.mpr trivial

/-- What is left of errors where the features that a tree requires are there: none of syntax, and of
paths only that one leads to a container, or that a name stands for one. -/
inductive Remains (scope : Scope) (tree : Expr) : Failure → Prop where
  | operator {cause : Failure} (of_operator : cause.OfOperator) : Remains scope tree cause
  | unknown (id : String) : Remains scope tree (.unknownName id)
  | path {path : String} {node : Json} (mentioned : path ∈ tree.paths)
      (there : scope.features.find path = .ok (some node)) (container : node.Container) :
      Remains scope tree (.invalidPath path .container)
  | name {id : String} {node : Json} (mentioned : id ∈ tree.names)
      (there : scope.features.get? id = some node) (container : node.Container) :
      Remains scope tree (.invalidPath id .namedContainer)

theorem Cause.remains (standard : evaluator.operators = .standard) {tree : Expr} {cause : Failure}
    (present : ∀ path ∈ tree.paths, scope.features.has path = true)
    (causes : evaluator.Cause scope tree cause) : Remains scope tree cause := by
  cases causes with
  | name member fails =>
      rcases Scope.resolve_error fails with rfl | ⟨rfl, node, there, container⟩
      · exact .unknown _
      · exact .name member there container
  | path member fails =>
      obtain ⟨rfl, node, there, container⟩ := Features.value_error (present _ member) fails
      exact .path member there container
  | unary fails => exact .operator (applyUnary_failsAs standard _ _ _ fails)
  | binary fails => exact .operator (applyBinary_failsAs standard _ _ _ _ fails)

theorem compile_of_requiredPaths {policy : Policy} {paths : List String}
    (required : evaluator.requiredPaths policy = .ok paths) {rule : Rule}
    (member : rule ∈ policy.rules.items) :
    ∃ compiled, evaluator.compile rule.expression = .ok compiled ∧
      ∀ path ∈ compiled.tree.paths, path ∈ paths := by
  obtain ⟨listed, all, sorted⟩ := bind_eq_ok.mp required
  obtain rfl := Except.ok.inj sorted
  obtain ⟨compiled, among, compiles⟩ := mem_of_mapM all member
  refine ⟨compiled, compiles, ?_⟩
  intro path mentioned
  have of_compiled := (CompiledExpr.mem_paths compiles).mpr mentioned
  exact mem_sortedNames.mpr (List.mem_flatMap.mpr ⟨compiled, among, of_compiled⟩)

theorem evaluateText_remains (standard : evaluator.operators = .standard) {source : String}
    {compiled : CompiledExpr} (compiles : evaluator.compile source = .ok compiled)
    (present : ∀ path ∈ compiled.tree.paths, scope.features.has path = true) {failure : Failure}
    (fails : evaluator.evaluateText scope source = .error failure) :
    Remains scope compiled.tree failure.root := by
  have low : compiled.tree.height ≤ evaluator.depth := by
    have low := CompiledExpr.height_le compiles
    rwa [Nat.max_eq_right evaluator.depth_pos] at low
  rw [evaluateText_of_compile compiles, evaluate, evaluateAt_eq_unguarded (by omega)] at fails
  obtain ⟨text, cause, rfl, causes⟩ := unguarded_cause fails
  have remains := causes.remains standard present
  have root : cause.root = cause := by
    cases remains with
    | operator of_operator => exact of_operator.bare.root_eq
    | unknown | path | name => rfl
  change Remains scope compiled.tree cause.root
  rwa [root]

/-- Where the features that a policy requires are there, every rule is run, no feature that it reads
is null, and what it fails with is none of syntax; and if it is an error of a path or a name, that
one stands for an object or an array. -/
theorem required_paths_suffice (evaluator : Evaluator)
    (standard : evaluator.operators = .standard) (features : Features) {policy : Policy}
    {graph : RuleGraph} {paths : List String} (valid : policy.validate = .ok graph)
    (required : evaluator.requiredPaths policy = .ok paths)
    (present : features.requirePaths paths = .ok ()) :
    ∃ whole, evaluator.execute policy features = .ok whole ∧
      ∀ rule ∈ policy.rules.items, ∃ before later results compiled,
        whole.order = before ++ rule.name :: later ∧ whole.Offers before results ∧
        whole.outcome? rule.name = some (evaluator.runRule ⟨features, results⟩ rule) ∧
        evaluator.compile rule.expression = .ok compiled ∧
        (∀ path ∈ compiled.tree.paths,
          evaluator.evaluate ⟨features, results⟩ (.feature path) ≠ .ok .null) ∧
        ∀ failure, evaluator.evaluateText ⟨features, results⟩ rule.expression = .error failure →
          (∀ error, failure.root ≠ .malformed error) ∧
          ∀ subject fault, failure.root = .invalidPath subject fault →
            (subject ∈ compiled.tree.paths ∧
              ∃ node, features.find subject = .ok (some node) ∧ node.Container) ∨
            (subject ∈ compiled.tree.names ∧
              ∃ node, features.get? subject = some node ∧ node.Container) := by
  obtain ⟨order, scheduled⟩ := Policy.schedule_of_validate valid
  obtain ⟨whole, executed, follows⟩ := evaluator.execute_of_schedule features scheduled
  refine ⟨whole, executed, ?_⟩
  intro rule member
  have here : rule.name ∈ order :=
    ((Policy.schedule_ok scheduled).2 rule.name).mpr (List.mem_map_of_mem member)
  obtain ⟨before, later, split⟩ := List.mem_iff_append.mp here
  obtain ⟨found, results, declared, offers, ran⟩ := follows.ran split
  have same : policy.rule? rule.name = some rule := Roster.get?_eq_some.mpr ⟨member, rfl⟩
  rw [same, Option.some.injEq] at declared
  subst declared
  obtain ⟨compiled, compiles, listed⟩ := compile_of_requiredPaths required member
  have there : ∀ path ∈ compiled.tree.paths, features.has path = true := fun path mentioned =>
    Features.requirePaths_eq_ok.mp present path (listed path mentioned)
  refine ⟨before, later, results, compiled, follows.names.trans split, offers, ran, compiles, ?_, ?_⟩
  · intro path mentioned null
    rw [(evaluate_leaf evaluator _).2, located, mapError_eq_ok] at null
    exact Features.value_ne_null (there path mentioned) null
  · intro failure fails
    have remains := evaluateText_remains standard compiles there fails
    constructor
    · intro error malformed
      rw [malformed] at remains
      rcases remains with ⟨of_operator⟩
      exact of_operator
    · intro subject fault invalid
      rw [invalid] at remains
      cases remains with
      | operator of_operator => exact of_operator.elim
      | path mentioned there container => exact .inl ⟨mentioned, _, there, container⟩
      | name mentioned there container => exact .inr ⟨mentioned, _, there, container⟩

def hereRule : Rule := .ofExpression "here" "featureMap.user.address == \"here\""

def visitors : Policy :=
  ((Policy.named "visitors" "1.0").declare (.ofExpression "adult" "featureMap.user.age >= 18")).declare
    hereRule

def visitor : Features :=
  ⟨.object [("user", .object [("address", .object []), ("age", .integer 30)])]⟩

def addressFault : Failure :=
  .evaluation "featureMap.user.address" (.invalidPath "featureMap.user.address" .container)

theorem hereRule_names {compiled : CompiledExpr}
    (compiles : (ofOperators .standard).compile hereRule.expression = .ok compiled) :
    compiled.names = [] := by
  have listed : ((ofOperators .standard).compile hereRule.expression).map CompiledExpr.names =
      .ok [] := by decide +kernel
  rw [compiles] at listed
  exact Except.ok.inj listed

theorem hereRule_fails (results : RuleResults) :
    (ofOperators .standard).evaluateText ⟨visitor, results⟩ hereRule.expression =
      .error addressFault := by
  have unread : (ofOperators .standard).evaluateText ⟨visitor, results⟩ hereRule.expression =
      (ofOperators .standard).evaluateText ⟨visitor, Roster.empty _⟩ hereRule.expression := by
    apply evaluateText_congr
    intro compiled compiles
    exact ⟨by simp [hereRule_names compiles], fun _ _ => rfl⟩
  rw [unread]
  decide +kernel

/-- All that is required of the visitor is there. The address is an object, and that is what the
rule fails for. -/
theorem visitors_supplied :
    let paths := ["featureMap.user.address", "featureMap.user.age"]
    (ofOperators .standard).requiredPaths visitors = .ok paths ∧
      visitor.requirePaths paths = .ok () ∧
      addressFault.root = .invalidPath "featureMap.user.address" .container ∧
      ∃ whole, (ofOperators .standard).execute visitors visitor = .ok whole ∧
        whole.outcome? "here" = some ⟨"here", .error addressFault.message⟩ ∧
        ∃ node, visitor.find "featureMap.user.address" = .ok (some node) ∧ node.Container := by
  intro paths
  have required : (ofOperators .standard).requiredPaths visitors = .ok paths := by decide +kernel
  have present : visitor.requirePaths paths = .ok () := by decide +kernel
  have checked : visitors.validate.map (fun _ => ()) = .ok () := by decide +kernel
  obtain ⟨graph, valid, -⟩ := map_eq_ok.mp checked
  obtain ⟨whole, executed, rules⟩ :=
    required_paths_suffice (ofOperators .standard) rfl visitor valid required present
  have member : hereRule ∈ visitors.rules.items := by decide +kernel
  obtain ⟨-, -, results, compiled, -, -, ran, compiles, -, errors⟩ := rules hereRule member
  have fails := hereRule_fails results
  refine ⟨required, present, rfl, whole, executed, ?_, ?_⟩
  · rw [runRule, fails] at ran
    exact ran
  · -- The name of the address is no name of the rule, so that it is one of its paths.
    rcases (errors _ fails).2 _ _ rfl with ⟨-, there⟩ | ⟨mentioned, -⟩
    · exact there
    · rw [← CompiledExpr.mem_names compiles, hereRule_names compiles] at mentioned
      contradiction

end Evaluator
end Rulebook
