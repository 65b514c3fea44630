import Rulebook.Json
import Rulebook.Roster

namespace Rulebook

structure RuleOutcome where
  rule : String
  outcome : Except String Value

namespace RuleOutcome

def value? (outcome : RuleOutcome) : Option Value :=
  match outcome.outcome with
  | .ok value => some value
  | .error _ => none

def error? (outcome : RuleOutcome) : Option String :=
  match outcome.outcome with
  | .ok _ => none
  | .error error => some error

def succeeded (outcome : RuleOutcome) : Bool := outcome.value?.isSome

def hasError (outcome : RuleOutcome) : Bool := outcome.error?.any fun error => !error.isEmpty

def boolean? (outcome : RuleOutcome) : Option Bool := outcome.value?.bind Value.asBool?

def number? (outcome : RuleOutcome) : Option Double := outcome.value?.bind Value.asDouble?

/-- An outcome as JSON, with the time it took. -/
def toJson (outcome : RuleOutcome) (elapsed : Json) : Json :=
  .object [("rule_name", .string outcome.rule),
    ("result", (outcome.value?.map Value.toJson).getD .null),
    ("success", .boolean outcome.succeeded),
    ("error", (outcome.error?.map Json.string).getD .null),
    ("elapsed_ms", elapsed)]

end RuleOutcome

def milliseconds (nanoseconds : Nat) : Double :=
  (Floating.ofInt (nanoseconds / 1000 : Nat)).div (.ofInt 1000)

structure PolicyOutcome where
  policy : String
  version : String
  outcomes : Roster RuleOutcome.rule
  errors : List String

namespace PolicyOutcome

def start (policy version : String) : PolicyOutcome :=
  ⟨policy, version, Roster.empty RuleOutcome.rule, []⟩

def record (whole : PolicyOutcome) (outcome : RuleOutcome) : PolicyOutcome :=
  let failure := outcome.error?.map fun error => "规则 '" ++ outcome.rule ++ "' 执行失败: " ++ error
  { whole with
    outcomes := whole.outcomes.put outcome
    errors := whole.errors ++ failure.toList }

def order (whole : PolicyOutcome) : List String := whole.outcomes.keys

def hasErrors (whole : PolicyOutcome) : Bool := !whole.errors.isEmpty

def succeeded (whole : PolicyOutcome) : Bool := !whole.hasErrors

def outcome? (whole : PolicyOutcome) (rule : String) : Option RuleOutcome :=
  whole.outcomes.get? rule

/-- The whole as JSON. What belongs to one run alone is given: its identity, its time, and how long
it and each rule took. -/
def toJson (whole : PolicyOutcome) (execution moment elapsed : Json)
    (ruleElapsed : String → Json) : Json :=
  .object [("execution_id", execution),
    ("policy_name", .string whole.policy),
    ("policy_version", .string whole.version),
    ("success", .boolean whole.succeeded),
    ("rule_results", .object (whole.outcomes.items.map fun outcome =>
      (outcome.rule, outcome.toJson (ruleElapsed outcome.rule)))),
    ("errors", .array (whole.errors.map Json.string)),
    ("elapsed_ms", elapsed),
    ("executed_at", moment)]

end PolicyOutcome
end Rulebook
