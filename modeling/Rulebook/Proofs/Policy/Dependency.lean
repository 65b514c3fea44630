import Mathlib.Data.Fintype.Card
import Mathlib.Data.Fintype.EquivFin
import Mathlib.Data.Fintype.Sets
import Mathlib.Data.List.Chain
import Mathlib.Logic.Relation
import Mathlib.Order.WellFounded
import Rulebook.Policy
import Rulebook.Proofs.Roster

namespace Rulebook.RuleGraph

variable (graph : RuleGraph)

/-- A dependency between two rules of the graph. A name that is no rule has no part in it. -/
def Edge (rule dependency : String) : Prop :=
  graph.has rule = true ∧ graph.has dependency = true ∧ dependency ∈ graph.dependencies rule

def Acyclic : Prop := ∀ rule, ¬ Relation.TransGen graph.Edge rule rule

def Closed : Prop :=
  ∀ rule, ∀ dependency ∈ graph.dependencies rule, graph.has dependency = true

/-- A way along dependencies from a rule back to itself, on which no other rule stands twice. -/
def IsLoop (route : List String) : Prop :=
  ∃ first others, route = first :: others ++ [first] ∧ (first :: others).Nodup ∧
    (∀ rule ∈ first :: others, graph.has rule = true) ∧
    route.IsChain fun rule dependency => dependency ∈ graph.dependencies rule

variable {graph}

theorem has_iff {rule : String} : graph.has rule = true ↔ rule ∈ graph.rules :=
  Roster.contains_iff

theorem dependencies_of_mem {rule : String} {dependencies : List String}
    (present : (rule, dependencies) ∈ graph.edges.items) :
    graph.dependencies rule = dependencies := by
  rw [RuleGraph.dependencies, Directory.lookup?_eq_some.mpr present, Option.getD_some]

theorem mem_items_of_mem_rules {rule : String} (present : rule ∈ graph.rules) :
    (rule, graph.dependencies rule) ∈ graph.edges.items := by
  rcases List.mem_map.mp present with ⟨⟨name, dependencies⟩, member, rfl⟩
  rw [dependencies_of_mem member]
  exact member

theorem has_of_mem_dependencies {rule dependency : String}
    (member : dependency ∈ graph.dependencies rule) : graph.has rule = true := by
  rw [RuleGraph.dependencies] at member
  cases found : graph.edges.lookup? rule with
  | none => simp [found] at member
  | some dependencies =>
      rw [has_iff]
      exact List.mem_map.mpr ⟨_, Directory.lookup?_eq_some.mp found, rfl⟩

theorem IsLoop.transGen {route : List String} (loop : graph.IsLoop route) :
    ∃ rule, Relation.TransGen graph.Edge rule rule := by
  rcases loop with ⟨first, others, rfl, -, exist, linked⟩
  have edges : (first :: others ++ [first]).IsChain (Relation.TransGen graph.Edge) := by
    apply linked.imp_of_mem_tail_imp
    intro rule dependency ruleMember member depends
    refine .single ⟨has_of_mem_dependencies depends, ?_, depends⟩
    apply exist
    rcases List.mem_append.mp member with among | last
    · exact List.mem_cons_of_mem first among
    · exact List.mem_singleton.mp last ▸ List.mem_cons_self
  refine ⟨first, List.rel_of_pairwise_cons edges.pairwise ?_⟩
  exact List.mem_append_right others (List.mem_singleton_self first)

def Below (graph : RuleGraph) (names : List String) (first second : { name // name ∈ names }) :
    Prop :=
  Relation.TransGen graph.Edge second.val first.val

/-- Where each of finitely many names depends on one of them, some of them lies on a cycle. -/
theorem exists_cycle {names : List String} (nonempty : names ≠ [])
    (onward : ∀ name ∈ names, ∃ dependency ∈ names, graph.Edge name dependency) :
    ∃ name ∈ names, Relation.TransGen graph.Edge name name := by
  by_contra none_cyclic
  have : IsTrans _ (graph.Below names) := ⟨fun _ _ _ lower upper => upper.trans lower⟩
  have : Std.Irrefl (graph.Below names) :=
    ⟨fun name cyclic => none_cyclic ⟨name.val, name.property, cyclic⟩⟩
  have founded := Finite.wellFounded_of_trans_of_irrefl (graph.Below names)
  have somewhere : { name // name ∈ names } := ⟨names.head nonempty, List.head_mem nonempty⟩
  rcases founded.has_min Set.univ ⟨somewhere, trivial⟩ with ⟨name, -, least⟩
  rcases onward name.val name.property with ⟨dependency, member, edge⟩
  exact least ⟨dependency, member⟩ trivial (.single edge)

end Rulebook.RuleGraph
