import Rulebook.Proofs.Evaluator
import Rulebook.Proofs.Policy.Execution

namespace Rulebook

theorem PolicyOutcome.Offers.no_result {whole : PolicyOutcome} {before : List String}
    {results : RuleResults} {failed : String} {outcome : RuleOutcome}
    (offers : whole.Offers before results) (recorded : whole.outcome? failed = some outcome)
    (unsuccessful : outcome.succeeded = false) : results.lookup? failed = none := by
  rw [Option.eq_none_iff_forall_ne_some]
  intro value read
  rcases (offers failed value).mp read with ⟨-, found, same, valued⟩
  rw [recorded, Option.some.injEq] at same
  subst same
  rw [RuleOutcome.succeeded, valued] at unsuccessful
  contradiction

namespace Evaluator

/-- To any other rule the name of a failed rule is unknown just if no feature at the top level has
that name, and it has a value just if such a feature is a scalar. Where the name is unknown, a rule
whose evaluation comes to it fails, and the name is the root of its error. -/
theorem failed_rule_reads_as_feature (evaluator : Evaluator) (policy : Policy)
    (features : Features) {whole : PolicyOutcome}
    (executed : evaluator.execute policy features = .ok whole)
    {before later : List String} {name failed : String} {outcome : RuleOutcome}
    (order : whole.order = before ++ name :: later)
    (recorded : whole.outcome? failed = some outcome) (unsuccessful : outcome.succeeded = false) :
    ∃ rule results, policy.rule? name = some rule ∧ whole.Offers before results ∧
      whole.outcome? name = some (evaluator.runRule ⟨features, results⟩ rule) ∧
      (Scope.resolve ⟨features, results⟩ failed = .error (.unknownName failed) ↔
        features.get? failed = none) ∧
      (∀ value, Scope.resolve ⟨features, results⟩ failed = .ok value ↔
        ∃ node, features.get? failed = some node ∧ Value.ofJson? node = some value) ∧
      (features.get? failed = none →
        evaluator.TextReaches ⟨features, results⟩ rule.expression failed →
          ∃ failure, failure.root = .unknownName failed ∧
            evaluator.evaluateText ⟨features, results⟩ rule.expression = .error failure ∧
            whole.outcome? name = some ⟨name, .error failure.message⟩) := by
  rcases follows_of_execute executed with ⟨scheduled, -, follows⟩
  rw [follows.names] at order
  subst order
  rcases follows.ran rfl with ⟨rule, results, present, offers, ran⟩
  have absent := offers.no_result recorded unsuccessful
  refine ⟨rule, results, present, offers, ran, Scope.resolve_eq_unknown absent,
    fun _ => Scope.resolve_eq_ok absent, ?_⟩
  intro no_feature reaches
  have failure := reaches.evaluateText_error ((Scope.resolve_eq_unknown absent).mpr no_feature)
  have at_name : rule.name = name := (Roster.get?_eq_some.mp present).2
  refine ⟨_, rfl, failure, ?_⟩
  rw [ran, runRule, failure, at_name]
  rfl

def gradedScore : Policy :=
  ((Policy.named "loan" "1.0").declare (.ofExpression "score" "base * 2")).declare
    ((Rule.ofExpression "grade" "score + 1").dependOn "score")

theorem textReaches_score (scope : Scope) :
    (ofOperators .standard).TextReaches scope "score + 1" "score" := by
  have compiled : CompiledExpr.compile Expr.defaultDepth "score + 1" =
      .ok (.ofTree "score + 1" (.binary (.name "score") "+" (.literal (.int 1) .number))) := by
    rw [CompiledExpr.compile_eq_ok]
    exact ⟨_, by decide +kernel, rfl⟩
  exact ⟨_, compiled, .left (.name (by decide))⟩

theorem gradedScore_run (features : Features) (grade : Option Value)
    (ran : ((ofOperators .standard).execute gradedScore features).map (fun whole =>
      (whole.order, (whole.outcome? "score").map RuleOutcome.succeeded,
        (whole.outcome? "grade").bind RuleOutcome.value?)) =
          .ok (["score"] ++ "grade" :: [], some false, grade)) :
    ∃ whole outcome, (ofOperators .standard).execute gradedScore features = .ok whole ∧
      whole.order = ["score"] ++ "grade" :: [] ∧ whole.outcome? "score" = some outcome ∧
      outcome.succeeded = false ∧ (whole.outcome? "grade").bind RuleOutcome.value? = grade := by
  rcases map_eq_ok.mp ran with ⟨whole, executed, seen⟩
  rcases Prod.mk.inj seen with ⟨order, results⟩
  rcases Prod.mk.inj results with ⟨score, graded⟩
  rcases Option.map_eq_some_iff.mp score with ⟨outcome, recorded, unsuccessful⟩
  exact ⟨whole, outcome, executed, order, recorded, unsuccessful, graded⟩

theorem grade_fails_for_score :
    ∃ whole failure, (ofOperators .standard).execute gradedScore .empty = .ok whole ∧
      Failure.root failure = .unknownName "score" ∧
      whole.outcome? "grade" = some ⟨"grade", .error failure.message⟩ := by
  rcases gradedScore_run .empty none (by decide +kernel) with
    ⟨whole, outcome, executed, order, recorded, unsuccessful, -⟩
  rcases failed_rule_reads_as_feature _ _ _ executed order recorded unsuccessful with
    ⟨rule, results, present, -, -, -, -, fails⟩
  have graded : gradedScore.rule? "grade" =
      some ((Rule.ofExpression "grade" "score + 1").dependOn "score") := by decide
  rw [graded, Option.some.injEq] at present
  subst present
  rcases fails rfl (textReaches_score _) with ⟨failure, root, -, failed⟩
  exact ⟨whole, failure, executed, root, failed⟩

theorem grade_reads_feature_for_score :
    let features : Features := ⟨.object [("score", .integer 720)]⟩
    ∃ whole outcome results, (ofOperators .standard).execute gradedScore features = .ok whole ∧
      whole.order = ["score"] ++ "grade" :: [] ∧ whole.outcome? "score" = some outcome ∧
      outcome.succeeded = false ∧ whole.Offers ["score"] results ∧
      (ofOperators .standard).TextReaches ⟨features, results⟩ "score + 1" "score" ∧
      Scope.resolve ⟨features, results⟩ "score" = .ok (.int 720) ∧
      (whole.outcome? "grade").bind RuleOutcome.value? = some (.int 721) := by
  intro features
  rcases gradedScore_run features (some (.int 721)) (by decide +kernel) with
    ⟨whole, outcome, executed, order, recorded, unsuccessful, graded⟩
  rcases follows_of_execute executed with ⟨scheduled, -, follows⟩
  rw [follows.names] at order
  subst order
  rcases follows.ran rfl with ⟨rule, results, -, offers, -⟩
  have absent := offers.no_result recorded unsuccessful
  refine ⟨whole, outcome, results, executed, follows.names, recorded, unsuccessful, offers,
    textReaches_score _, (Scope.resolve_eq_ok absent).mpr ⟨_, rfl, rfl⟩, graded⟩

end Evaluator
end Rulebook
