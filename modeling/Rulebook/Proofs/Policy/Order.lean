import Rulebook.Policy.Schedule
import Rulebook.Proofs.Policy.Dependency

namespace Rulebook

theorem split_concat {before later placed : List String} {name last : String}
    (split : placed ++ [last] = before ++ name :: later) :
    (placed = before ∧ last = name) ∨ ∃ rest, placed = before ++ name :: rest := by
  rcases List.eq_nil_or_concat' later with rfl | ⟨rest, final, rfl⟩
  · rcases List.append_inj' split rfl with ⟨front, at_end⟩
    exact .inl ⟨front, List.singleton_inj.mp at_end⟩
  · rw [← List.cons_append, ← List.append_assoc] at split
    exact .inr ⟨rest, (List.append_inj' split rfl).1⟩

namespace RuleGraph

variable {graph : RuleGraph}

def Ready (graph : RuleGraph) (placed : List String) (rule : String) : Prop :=
  ∀ dependency ∈ graph.dependencies rule, dependency ∈ placed

/-- Rules in an order in which each stands once and after all that it depends on. -/
structure Ordered (graph : RuleGraph) (placed : List String) : Prop where
  distinct : placed.Nodup
  exist : ∀ rule ∈ placed, rule ∈ graph.rules
  after : ∀ before rule later, placed = before ++ rule :: later → graph.Ready before rule

theorem ordered_nil : graph.Ordered [] where
  distinct := List.nodup_nil
  exist := nofun
  after := by simp

theorem Ordered.concat {placed : List String} {rule : String} (ordered : graph.Ordered placed)
    (exist : rule ∈ graph.rules) (fresh : rule ∉ placed) (ready : graph.Ready placed rule) :
    graph.Ordered (placed ++ [rule]) where
  distinct := by
    rw [List.nodup_append]
    refine ⟨ordered.distinct, List.nodup_singleton rule, ?_⟩
    intro name member last single
    rw [List.mem_singleton] at single
    intro same
    exact fresh (single ▸ same ▸ member)
  exist := by
    intro name member
    rcases List.mem_append.mp member with earlier | last
    · exact ordered.exist name earlier
    · exact List.mem_singleton.mp last ▸ exist
  after := by
    intro before name later split
    rcases split_concat split with ⟨rfl, rfl⟩ | ⟨rest, front⟩
    · exact ready
    · exact ordered.after before name rest front

theorem place_cases (placed : List String) (edge : String × List String) :
    (place placed edge = placed ∧
      (edge.1 ∈ placed ∨ ∃ dependency ∈ edge.2, dependency ∉ placed)) ∨
    (place placed edge = placed ++ [edge.1] ∧
      edge.1 ∉ placed ∧ ∀ dependency ∈ edge.2, dependency ∈ placed) := by
  rw [place]
  by_cases there : edge.1 ∈ placed
  · rw [if_pos there]
    exact .inl ⟨rfl, .inl there⟩
  · rw [if_neg there]
    by_cases ready : ∀ dependency ∈ edge.2, dependency ∈ placed
    · rw [if_pos (List.all_eq_true.mpr fun dependency member => decide_eq_true
        (ready dependency member))]
      exact .inr ⟨rfl, there, ready⟩
    · have waits : ¬ (edge.2.all (· ∈ placed)) = true := by
        simpa using ready
      rw [if_neg waits]
      exact .inl ⟨rfl, .inr (by simpa using ready)⟩

/-- What placing one ready rule keeps, passing over some rules of the graph keeps. -/
theorem foldl_place_induction {Keeps : List String → Prop}
    (step : ∀ placed rule, rule ∈ graph.rules → rule ∉ placed → graph.Ready placed rule →
      Keeps placed → Keeps (placed ++ [rule]))
    {edges : List (String × List String)} (present : ∀ edge ∈ edges, edge ∈ graph.edges.items)
    {placed : List String} (start : Keeps placed) : Keeps (edges.foldl place placed) := by
  induction edges generalizing placed with
  | nil => exact start
  | cons edge rest ih =>
      apply ih fun other member => present other (List.mem_cons_of_mem edge member)
      have member := present edge List.mem_cons_self
      rcases place_cases placed edge with ⟨same, -⟩ | ⟨appended, fresh, ready⟩
      · rw [same]
        exact start
      · rw [appended]
        apply step placed edge.1 (List.mem_map_of_mem member) fresh _ start
        rw [Ready, dependencies_of_mem member]
        exact ready

theorem pass_induction {Keeps : List String → Prop}
    (step : ∀ placed rule, rule ∈ graph.rules → rule ∉ placed → graph.Ready placed rule →
      Keeps placed → Keeps (placed ++ [rule]))
    {placed : List String} (start : Keeps placed) : Keeps (graph.pass placed) :=
  foldl_place_induction step (fun _ => id) start

theorem Ordered.pass {placed : List String} (ordered : graph.Ordered placed) :
    graph.Ordered (graph.pass placed) :=
  pass_induction (fun _ _ exist fresh ready before => before.concat exist fresh ready) ordered

theorem length_le_place (placed : List String) (edge : String × List String) :
    placed.length ≤ (place placed edge).length := by
  rcases place_cases placed edge with ⟨same, -⟩ | ⟨appended, -, -⟩
  · rw [same]
  · rw [appended, List.length_append]
    exact Nat.le_add_right _ _

theorem length_le_foldl_place (edges : List (String × List String)) (placed : List String) :
    placed.length ≤ (edges.foldl place placed).length := by
  induction edges generalizing placed with
  | nil => exact Nat.le_refl _
  | cons edge rest ih => exact (length_le_place placed edge).trans (ih (place placed edge))

theorem stuck_of_foldl_place {edges : List (String × List String)} {placed : List String}
    (stuck : (edges.foldl place placed).length ≤ placed.length) :
    ∀ edge ∈ edges, edge.1 ∈ placed ∨ ∃ dependency ∈ edge.2, dependency ∉ placed := by
  induction edges with
  | nil => exact nofun
  | cons edge rest ih =>
      rw [List.foldl_cons] at stuck
      have further := length_le_foldl_place rest (place placed edge)
      rcases place_cases placed edge with ⟨same, waits⟩ | ⟨appended, -, -⟩
      · intro other member
        rcases List.mem_cons.mp member with rfl | later
        · exact waits
        · rw [same] at stuck
          exact ih stuck other later
      · rw [appended, List.length_append, List.length_singleton] at further
        rw [appended] at stuck
        omega

def Stuck (graph : RuleGraph) (placed : List String) : Prop :=
  ∀ rule ∈ graph.rules, rule ∈ placed ∨ ∃ dependency ∈ graph.dependencies rule, dependency ∉ placed

theorem stuck_of_pass {placed : List String}
    (stuck : (graph.pass placed).length ≤ placed.length) : graph.Stuck placed := by
  intro rule member
  exact stuck_of_foldl_place stuck _ (mem_items_of_mem_rules member)

def unplaced (graph : RuleGraph) (placed : List String) : List String :=
  graph.rules.filter fun rule => rule ∉ placed

theorem mem_unplaced {placed : List String} {rule : String} :
    rule ∈ graph.unplaced placed ↔ rule ∈ graph.rules ∧ rule ∉ placed := by
  rw [unplaced, List.mem_filter, decide_eq_true_iff]

/-- Where all dependencies are rules and none are in a circle, passes do not get stuck. -/
theorem Stuck.all_placed {placed : List String} (stuck : graph.Stuck placed)
    (acyclic : graph.Acyclic) (closed : graph.Closed) : ∀ rule ∈ graph.rules, rule ∈ placed := by
  have onward : ∀ rule ∈ graph.unplaced placed,
      ∃ dependency ∈ graph.unplaced placed, graph.Edge rule dependency := by
    intro rule member
    rcases mem_unplaced.mp member with ⟨present, absent⟩
    rcases stuck rule present with there | ⟨dependency, depends, waiting⟩
    · exact absurd there absent
    · have exist := closed rule dependency depends
      refine ⟨dependency, mem_unplaced.mpr ⟨has_iff.mp exist, waiting⟩, ?_⟩
      exact ⟨has_iff.mpr present, exist, depends⟩
  by_cases none_left : graph.unplaced placed = []
  · intro rule present
    by_contra absent
    have member := mem_unplaced.mpr ⟨present, absent⟩
    rw [none_left] at member
    contradiction
  · rcases exists_cycle none_left onward with ⟨rule, -, cyclic⟩
    exact absurd cyclic (acyclic rule)

theorem length_rules (graph : RuleGraph) : graph.rules.length = graph.size :=
  List.length_map _

theorem nodup_rules (graph : RuleGraph) : graph.rules.Nodup := graph.edges.nodup

theorem Ordered.perm {placed : List String} (ordered : graph.Ordered placed)
    (full : graph.size ≤ placed.length) : placed.Perm graph.rules := by
  apply (List.subperm_of_subset ordered.distinct ordered.exist).perm_of_length_le
  rw [length_rules]
  exact full

theorem placeAll_ok {placed order : List String} (ordered : graph.Ordered placed)
    (ended : graph.placeAll placed = .ok order) :
    graph.Ordered order ∧ graph.size ≤ order.length := by
  induction placed using placeAll.induct graph with
  | case1 placed full =>
      rw [placeAll, if_pos full] at ended
      cases ended
      exact ⟨ordered, full⟩
  | case2 placed short progress ih =>
      rw [placeAll, if_neg short, if_pos progress] at ended
      exact ih ordered.pass ended
  | case3 placed short stuck =>
      rw [placeAll, if_neg short, if_neg stuck] at ended
      contradiction

theorem placeAll_error {placed : List String} {failure : Failure} (ordered : graph.Ordered placed)
    (ended : graph.placeAll placed = .error failure) :
    ∃ left, graph.Ordered left ∧ graph.Stuck left ∧ left.length < graph.size ∧
      failure = .invalidPolicy (.unordered (graph.unplaced left)) := by
  induction placed using placeAll.induct graph with
  | case1 placed full =>
      rw [placeAll, if_pos full] at ended
      contradiction
  | case2 placed short progress ih =>
      rw [placeAll, if_neg short, if_pos progress] at ended
      exact ih ordered.pass ended
  | case3 placed short stuck =>
      rw [placeAll, if_neg short, if_neg stuck] at ended
      cases ended
      refine ⟨placed, ordered, stuck_of_pass (Nat.le_of_not_lt stuck), ?_, rfl⟩
      exact Nat.lt_of_not_le short

theorem order_ok (acyclic : graph.Acyclic) (closed : graph.Closed) :
    ∃ order, graph.order = .ok order ∧ order.Perm graph.rules ∧ graph.Ordered order := by
  cases ended : graph.order with
  | ok order =>
      rcases placeAll_ok ordered_nil ended with ⟨ordered, full⟩
      exact ⟨order, rfl, ordered.perm full, ordered⟩
  | error failure =>
      rcases placeAll_error ordered_nil ended with ⟨left, ordered, stuck, short, -⟩
      have all := stuck.all_placed acyclic closed
      have enough := (List.subperm_of_subset graph.nodup_rules all).length_le
      rw [length_rules] at enough
      omega

end RuleGraph
end Rulebook
