import Rulebook.Roster

namespace Rulebook

structure Rule where
  name : String
  expression : String
  description : String
  dependencies : List String
  deriving DecidableEq, Repr

namespace Rule

def ofExpression (name expression : String) : Rule := ⟨name, expression, "", []⟩

def dependOn (rule : Rule) (dependency : String) : Rule :=
  if dependency ∈ rule.dependencies then rule
  else { rule with dependencies := rule.dependencies ++ [dependency] }

def hasDependencies (rule : Rule) : Bool := !rule.dependencies.isEmpty

end Rule

structure Policy where
  name : String
  description : String
  version : String
  rules : Roster Rule.name

namespace Policy

def named (name version : String) : Policy := ⟨name, "", version, Roster.empty Rule.name⟩

instance : Inhabited Policy := ⟨named "" ""⟩

def declare (policy : Policy) (rule : Rule) : Policy :=
  { policy with rules := policy.rules.put rule }

def rule? (policy : Policy) (name : String) : Option Rule := policy.rules.get? name

def has (policy : Policy) (name : String) : Bool := policy.rules.contains name

/-- Whether two policies say the same, in whatever order their rules are declared. -/
def agrees (policy other : Policy) : Bool :=
  policy.name = other.name && policy.description = other.description &&
    policy.version = other.version && policy.rules.size = other.rules.size &&
    policy.rules.items.all fun rule => other.rule? rule.name = some rule

end Policy

/-- Rules by name, in the order of declaration, each with the names it depends on. A name on which a
rule depends need not be a rule. -/
structure RuleGraph where
  edges : Directory (List String)

namespace RuleGraph

instance : Inhabited RuleGraph := ⟨⟨Roster.empty _⟩⟩

def ofPolicy (policy : Policy) : RuleGraph where
  edges := {
    items := policy.rules.items.map fun rule => (rule.name, rule.dependencies)
    nodup := by
      rw [List.map_map]
      exact policy.rules.nodup }

variable (graph : RuleGraph)

def rules : List String := graph.edges.keys

def size : Nat := graph.edges.size

def has (name : String) : Bool := graph.edges.contains name

def dependencies (name : String) : List String :=
  (Directory.lookup? graph.edges name).getD []

def dependents (name : String) : List String :=
  (graph.edges.items.filter fun (_, dependencies) => dependencies.contains name).map Prod.fst

end RuleGraph

end Rulebook
