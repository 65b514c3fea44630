import Rulebook.Proofs.Evaluator
import Rulebook.Proofs.Features

namespace Rulebook

/-- A name of the expression stands for a place in the feature data, or a path of it leads to that
place or through it. -/
def CompiledExpr.Reads (compiled : CompiledExpr) (place : List Json.Step) : Prop :=
  (∃ id ∈ compiled.names, place = [.key id]) ∨ ∃ path ∈ compiled.paths, Path.Reads path place

namespace Evaluator

/-- A compiled expression gives the same, an error with all its text included, wherever the names
and the paths listed with it give the same and its operators have the same functions. So it does
after any other result of a rule, any other part of the feature data or any other operator has come
in or has changed. -/
theorem references_determine_result {depth : Nat} {source : String} {compiled : CompiledExpr}
    (compiles : CompiledExpr.compile depth source = .ok compiled) (evaluator : Evaluator)
    (scope : Scope) :
    (∀ (operators : OperatorSet) (other : Scope),
      (∀ id ∈ compiled.names, scope.resolve id = other.resolve id) →
      (∀ path ∈ compiled.paths, scope.features.value path = other.features.value path) →
      (∀ key ∈ compiled.tree.operators,
        evaluator.operators.operation? key.1 key.2 = operators.operation? key.1 key.2) →
      evaluator.evaluate scope compiled.tree =
        evaluate { evaluator with operators := operators } other compiled.tree) ∧
    (∀ (name : String) (value : Value), name ∉ compiled.names →
      evaluator.evaluate scope compiled.tree =
        evaluator.evaluate { scope with results := scope.results.insert name value }
          compiled.tree) ∧
    (∀ (place : List Json.Step) (data : Json), scope.features.data.DifferAt place data →
      ¬ compiled.Reads place →
      evaluator.evaluate scope compiled.tree =
        evaluator.evaluate { scope with features := ⟨data⟩ } compiled.tree) ∧
    ∀ operator : Operator, operator.key ∉ compiled.tree.operators →
      evaluator.evaluate scope compiled.tree =
        evaluate { evaluator with operators := evaluator.operators.register operator } scope
          compiled.tree := by
  refine ⟨?_, ?_, ?_, ?_⟩
  · intro operators other names paths functions
    exact evaluate_congr compiles ⟨rfl, functions⟩ ⟨names, paths⟩
  · intro name value absent
    apply evaluate_congr compiles (.refl evaluator _)
    refine ⟨?_, fun _ _ => rfl⟩
    intro id member
    have apart : name ≠ id := fun same => absent (same ▸ member)
    apply Scope.resolve_congr
    rw [Directory.lookup?_insert, if_neg apart]
  · intro place data differ unread
    apply evaluate_congr compiles (.refl evaluator _)
    constructor
    · intro id member
      exact Scope.resolve_of_differAt differ fun here => unread (.inl ⟨id, member, here⟩)
    · intro path member
      exact Features.value_of_differAt differ fun leads => unread (.inr ⟨path, member, leads⟩)
  · intro operator absent
    refine evaluate_congr compiles ⟨rfl, ?_⟩ ⟨fun _ _ => rfl, fun _ _ => rfl⟩
    intro key member
    exact (OperatorSet.operation?_register fun same => absent (same ▸ member)).symm

def ageSum : CompiledExpr where
  source := "score + featureMap.user.age"
  tree := .binary (.name "score") "+" (.feature "featureMap.user.age")
  paths := ["featureMap.user.age"]
  names := ["score"]

def scoredUser (user : List (String × Json)) : Json :=
  .object [("score", .integer 2), ("user", .object user)]

/-- The sum is the same where the score comes from a rule and `+` is the only operator; and it stays
the same when a bonus, the name of the user, or another `-` comes in. -/
theorem references_determine_ageSum :
    let evaluator := ofOperators .standard
    let scope : Scope := ⟨⟨scoredUser [("age", .integer 40)]⟩, Roster.empty _⟩
    let other : Scope := ⟨⟨.object [("user", .object [("age", .integer 40)])]⟩,
      Directory.insert (Roster.empty _) "score" (.int 2)⟩
    let addition := OperatorSet.empty.register
      (.ofBinary "+" Precedence.addition .arithmetic Value.add)
    let negation := Operator.ofUnary "-" Precedence.unary Value.negation
    CompiledExpr.compile 2 "score + featureMap.user.age" = .ok ageSum ∧
      evaluator.evaluate scope ageSum.tree = .ok (.int 42) ∧
      evaluator.evaluate scope ageSum.tree =
        evaluate { evaluator with operators := addition } other ageSum.tree ∧
      evaluator.evaluate scope ageSum.tree =
        evaluator.evaluate { scope with results := scope.results.insert "bonus" (.int 1) }
          ageSum.tree ∧
      evaluator.evaluate scope ageSum.tree =
        evaluator.evaluate { scope with features := ⟨scoredUser
          (Json.insertEntry "name" (.string "Ada") [("age", .integer 40)])⟩ } ageSum.tree ∧
      evaluator.evaluate scope ageSum.tree =
        evaluate { evaluator with operators := evaluator.operators.register negation } scope
          ageSum.tree := by
  intro evaluator scope other addition negation
  have compiles : CompiledExpr.compile 2 "score + featureMap.user.age" = .ok ageSum := by
    decide +kernel
  obtain ⟨settled, results, features, operators⟩ :=
    references_determine_result compiles evaluator scope
  refine ⟨compiles, by decide +kernel, ?_, results "bonus" (.int 1) (by decide), ?_,
    operators negation (by decide)⟩
  · apply settled addition other
    · exact List.forall_mem_singleton.mpr rfl
    · exact List.forall_mem_singleton.mpr (by decide +kernel)
    · exact List.forall_mem_singleton.mpr rfl
  · apply features [.key "user", .key "name"]
    · refine .inEntry ?_ rfl rfl (Json.differAt_insertEntry _ _ _)
      intro key apart
      simp only [List.lookup_cons, beq_eq_false_iff_ne.mpr apart]
    · rintro (⟨id, member, here⟩ | ⟨path, member, segments, read, leads⟩)
      · simp at here
      · obtain rfl := List.mem_singleton.mp member
        have steps : Path.segments "featureMap.user.age" =
            .ok [⟨"user", "user", none⟩, ⟨"age", "age", none⟩] := by
          decide +kernel
        rw [steps] at read
        cases read
        exact absurd leads (by decide)

end Evaluator
end Rulebook
