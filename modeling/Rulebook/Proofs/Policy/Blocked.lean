import Rulebook.Proofs.Policy.Order

/-! Rules that no pass places.

A rule is blocked if it leads to a cycle or to a name that is no rule. What is placed is in order, so
that nothing in it leads back to itself or out of it, and no blocked rule is among it. Where a pass
places none, each rule that is left and not blocked waits for another such rule; there are finitely
many of them, so that some lie on a cycle, which is to say that they are blocked after all. -/

namespace Rulebook.RuleGraph

variable {graph : RuleGraph} {placed : List String} {rule : String}

def Dangles (graph : RuleGraph) (rule : String) : Prop :=
  ∃ dependency ∈ graph.dependencies rule, graph.has dependency = false

/-- Along dependencies, if any, a rule leads to one that lies on a cycle or dangles. -/
def Blocked (graph : RuleGraph) (rule : String) : Prop :=
  ∃ reached, Relation.ReflTransGen graph.Edge rule reached ∧
    (Relation.TransGen graph.Edge reached reached ∨ graph.Dangles reached)

theorem Ordered.precedes (ordered : graph.Ordered placed) (member : rule ∈ placed)
    {dependency : String} (depends : dependency ∈ graph.dependencies rule) :
    dependency ∈ placed ∧ placed.idxOf dependency < placed.idxOf rule := by
  obtain ⟨before, later, rfl⟩ := List.mem_iff_append.mp member
  have earlier : dependency ∈ before := ordered.after before rule later rfl dependency depends
  have distinct := ordered.distinct
  rw [List.nodup_middle, List.nodup_cons, List.mem_append, not_or] at distinct
  have place : (before ++ rule :: later).idxOf rule = before.length := by
    rw [List.idxOf_append_of_notMem distinct.1.1, List.idxOf_cons_self, Nat.add_zero]
  refine ⟨List.mem_append_left _ earlier, ?_⟩
  rw [place, List.idxOf_append_of_mem earlier]
  exact List.idxOf_lt_length_iff.mpr earlier

theorem Ordered.precedes_of_transGen (ordered : graph.Ordered placed) (member : rule ∈ placed)
    {reached : String} (leads : Relation.TransGen graph.Edge rule reached) :
    reached ∈ placed ∧ placed.idxOf reached < placed.idxOf rule := by
  induction leads with
  | single edge => exact ordered.precedes member edge.2.2
  | tail _ edge ih =>
      have further := ordered.precedes ih.1 edge.2.2
      exact ⟨further.1, further.2.trans ih.2⟩

theorem Ordered.not_blocked (ordered : graph.Ordered placed) (member : rule ∈ placed) :
    ¬ graph.Blocked rule := by
  intro blocked
  rcases blocked with ⟨reached, leads, cause⟩
  have among : reached ∈ placed := by
    rcases Relation.reflTransGen_iff_eq_or_transGen.mp leads with same | leads
    · rw [same]
      exact member
    · exact (ordered.precedes_of_transGen member leads).1
  rcases cause with cyclic | ⟨dependency, depends, missing⟩
  · exact Nat.lt_irrefl _ (ordered.precedes_of_transGen among cyclic).2
  · have exist := ordered.exist dependency (ordered.precedes among depends).1
    rw [has_iff.mpr exist] at missing
    contradiction

theorem Stuck.onward (stuck : graph.Stuck placed) (left : rule ∈ graph.unplaced placed) :
    graph.Dangles rule ∨ ∃ dependency ∈ graph.unplaced placed, graph.Edge rule dependency := by
  rcases mem_unplaced.mp left with ⟨present, absent⟩
  rcases stuck rule present with there | ⟨dependency, depends, waiting⟩
  · exact absurd there absent
  · cases exist : graph.has dependency with
    | false => exact .inl ⟨dependency, depends, exist⟩
    | true =>
        refine .inr ⟨dependency, mem_unplaced.mpr ⟨has_iff.mp exist, waiting⟩, ?_⟩
        exact ⟨has_iff.mpr present, exist, depends⟩

open Classical in
theorem Stuck.blocked (stuck : graph.Stuck placed) (left : rule ∈ graph.unplaced placed) :
    graph.Blocked rule := by
  by_contra free
  let reachable := (graph.unplaced placed).filter fun name =>
    Relation.ReflTransGen graph.Edge rule name
  have mem_reachable : ∀ name, name ∈ reachable ↔
      name ∈ graph.unplaced placed ∧ Relation.ReflTransGen graph.Edge rule name := by
    simp [reachable]
  have somewhere : reachable ≠ [] := List.ne_nil_of_mem ((mem_reachable rule).mpr ⟨left, .refl⟩)
  have onward : ∀ name ∈ reachable, ∃ dependency ∈ reachable, graph.Edge name dependency := by
    intro name member
    rcases (mem_reachable name).mp member with ⟨still_left, leads⟩
    rcases stuck.onward still_left with dangles | ⟨dependency, waiting, edge⟩
    · exact absurd ⟨name, leads, .inr dangles⟩ free
    · exact ⟨dependency, (mem_reachable dependency).mpr ⟨waiting, leads.tail edge⟩, edge⟩
  rcases exists_cycle somewhere onward with ⟨name, member, cyclic⟩
  exact free ⟨name, ((mem_reachable name).mp member).2, .inl cyclic⟩

/-- Rules that are in order, and no more of which can be placed, leave just the blocked ones. -/
theorem mem_unplaced_iff_blocked (ordered : graph.Ordered placed) (stuck : graph.Stuck placed)
    (rule : String) : rule ∈ graph.unplaced placed ↔ rule ∈ graph.rules ∧ graph.Blocked rule := by
  constructor
  · intro left
    exact ⟨(mem_unplaced.mp left).1, stuck.blocked left⟩
  · intro blocked
    exact mem_unplaced.mpr ⟨blocked.1, fun member => ordered.not_blocked member blocked.2⟩

theorem exists_unplaced (short : placed.length < graph.size) :
    ∃ rule, rule ∈ graph.unplaced placed := by
  by_contra none_left
  have all : ∀ rule ∈ graph.rules, rule ∈ placed := by
    intro rule present
    by_contra absent
    exact none_left ⟨rule, mem_unplaced.mpr ⟨present, absent⟩⟩
  have enough := (List.subperm_of_subset graph.nodup_rules all).length_le
  rw [length_rules] at enough
  omega

theorem message_unordered (names : List String) :
    (Failure.invalidPolicy (.unordered names)).message =
      "策略校验失败: 无法确定执行顺序，剩余规则: " ++ ", ".intercalate names := by
  have opening : "策略校验失败: 无法确定执行顺序，剩余规则: " =
      "策略校验失败: " ++ "无法确定执行顺序，剩余规则: " := by decide
  rw [opening, String.append_assoc, ← joined_eq_intercalate]
  rfl

/-- The rules of a graph have no order just if one of them is blocked. The error then names the
blocked rules, all of them and no other, as they are declared. -/
theorem order_error_names_blocked (graph : RuleGraph) :
    ((∃ failure, graph.order = .error failure) ↔ ∃ rule ∈ graph.rules, graph.Blocked rule) ∧
    ∀ failure, graph.order = .error failure →
      ∃ names, failure = .invalidPolicy (.unordered names) ∧ names.Sublist graph.rules ∧
        (∀ rule, rule ∈ names ↔ rule ∈ graph.rules ∧ graph.Blocked rule) ∧
        failure.message = "策略校验失败: 无法确定执行顺序，剩余规则: " ++ ", ".intercalate names := by
  constructor
  · cases ended : graph.order with
    | ok order =>
        rcases placeAll_ok ordered_nil ended with ⟨ordered, full⟩
        constructor
        · exact nofun
        · intro some_blocked
          rcases some_blocked with ⟨rule, present, blocked⟩
          have member := (ordered.perm full).mem_iff.mpr present
          exact absurd blocked (ordered.not_blocked member)
    | error failure =>
        rcases placeAll_error ordered_nil ended with ⟨placed, ordered, stuck, short, -⟩
        rcases exists_unplaced short with ⟨rule, left⟩
        have blocked := (mem_unplaced_iff_blocked ordered stuck rule).mp left
        exact iff_of_true ⟨failure, rfl⟩ ⟨rule, blocked⟩
  · intro failure ended
    rcases placeAll_error ordered_nil ended with ⟨placed, ordered, stuck, -, rfl⟩
    exact ⟨_, rfl, List.filter_sublist, mem_unplaced_iff_blocked ordered stuck,
      message_unordered _⟩

/-- Two rules in a circle, one behind them, one that waits for what is no rule, and a free one. -/
example :
    (RuleGraph.ofPolicy ((((((Policy.named "test" "1.0").declare
      ((Rule.ofExpression "last" "x").dependOn "x")).declare
      ((Rule.ofExpression "x" "y").dependOn "y")).declare
      ((Rule.ofExpression "y" "x").dependOn "x")).declare
      ((Rule.ofExpression "w" "1").dependOn "ghost")).declare (.ofExpression "z" "1"))).order =
        .error (.invalidPolicy (.unordered ["last", "x", "y", "w"])) := by
  decide +kernel

end Rulebook.RuleGraph
