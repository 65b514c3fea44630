import Rulebook.Evaluator
import Rulebook.Policy.Outcome
import Rulebook.Policy.Schedule
import Rulebook.Settings.Document

namespace Rulebook

structure Run where
  whole : PolicyOutcome
  results : RuleResults

namespace Evaluator

def ofSettings (operators : OperatorSet) (settings : EngineSettings) : Evaluator :=
  ofDepth operators settings.maxExpressionDepth

def runRule (evaluator : Evaluator) (scope : Scope) (rule : Rule) : RuleOutcome :=
  ⟨rule.name, (evaluator.evaluateText scope rule.expression).mapError Failure.message⟩

def advance (evaluator : Evaluator) (policy : Policy) (features : Features) (run : Run)
    (name : String) : Run :=
  match policy.rule? name with
  | none => run
  | some rule =>
    let outcome := evaluator.runRule ⟨features, run.results⟩ rule
    { whole := run.whole.record outcome
      results :=
        match outcome.value? with
        | some value => Directory.insert run.results name value
        | none => run.results }

def execute (evaluator : Evaluator) (policy : Policy) (features : Features) :
    Result PolicyOutcome := do
  let order ← policy.schedule
  let start : Run := ⟨.start policy.name policy.version, Roster.empty _⟩
  return (order.foldl (evaluator.advance policy features) start).whole

/-- The feature paths that the rules of a policy mention, each once, in ascending order. Fails with
the first rule, in the order of declaration, that does not compile. -/
def requiredPaths (evaluator : Evaluator) (policy : Policy) : Result (List String) := do
  let compiled ← policy.rules.items.mapM fun rule => evaluator.compile rule.expression
  return sortedNames (compiled.flatMap CompiledExpr.paths)

end Evaluator
end Rulebook
