import Rulebook.Policy.Cycle
import Rulebook.Text

/-!
Whether a policy can be run, and in which order its rules are.

The order comes from passes over the rules in the order of declaration: a pass places each rule all
of whose dependencies are placed already, also those placed earlier in the same pass. Passes go on
until all rules are placed, or one pass places none.
-/

namespace Rulebook
namespace RuleGraph

def place (placed : List String) (edge : String × List String) : List String :=
  if edge.1 ∈ placed then placed
  else if edge.2.all (· ∈ placed) then placed ++ [edge.1]
  else placed

def pass (graph : RuleGraph) (placed : List String) : List String :=
  graph.edges.items.foldl place placed

def placeAll (graph : RuleGraph) (placed : List String) : Result (List String) :=
  if graph.size ≤ placed.length then .ok placed
  else if placed.length < (graph.pass placed).length then graph.placeAll (graph.pass placed)
  else .error (.invalidPolicy (.unordered (graph.rules.filter fun rule => rule ∉ placed)))
  termination_by graph.size - placed.length

def order (graph : RuleGraph) : Result (List String) := graph.placeAll []

end RuleGraph

namespace Policy

def checkRule (policy : Policy) (rule : Rule) : Result Unit :=
  if isBlankText rule.name then .error (.invalidPolicy .blankRuleName)
  else if isBlankText rule.expression then .error (.invalidPolicy (.blankExpression rule.name))
  else
    match rule.dependencies.find? fun dependency => !policy.has dependency with
    | some dependency => .error (.invalidPolicy (.missingDependency rule.name dependency))
    | none => .ok ()

/-- The dependency graph of a policy that can be run: it has rules, each rule is sound, and no rule
depends on itself, directly or through others. -/
def validate (policy : Policy) : Result RuleGraph := do
  if policy.rules.size = 0 then .error (.invalidPolicy (.noRules policy.name))
  else
    policy.rules.items.forM policy.checkRule
    let graph := RuleGraph.ofPolicy policy
    graph.checkCycles
    return graph

def schedule (policy : Policy) : Result (List String) := do
  (← policy.validate).order

end Policy
end Rulebook
