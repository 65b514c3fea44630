import Mathlib.Data.List.Induction
import Mathlib.Data.List.Sort
import Mathlib.Data.Prod.Lex
import Rulebook.Proofs.Policy.Independence

/-!
The order of rules in closed form.

A rule is placed in the first round that it can be: the round of a rule it depends on if that one is
declared before it, and the round after that otherwise. The passes over the rules place them by
round, and within a round as they are declared.
-/

namespace Rulebook

namespace RuleGraph

variable {graph : RuleGraph}

def waits (graph : RuleGraph) (round : String → Nat) (rule dependency : String) : Nat :=
  if graph.rules.idxOf dependency < graph.rules.idxOf rule then round dependency
  else round dependency + 1

/-- The round of a rule is the first one, or the last that it has to wait for. -/
def RoundAt (graph : RuleGraph) (round : String → Nat) (rule : String) : Prop :=
  round rule = ((graph.dependencies rule).map (graph.waits round rule)).foldr max 1

def IsRound (graph : RuleGraph) (round : String → Nat) : Prop :=
  ∀ rule ∈ graph.rules, graph.RoundAt round rule

instance (round : String → Nat) (rule : String) : Decidable (graph.RoundAt round rule) :=
  inferInstanceAs (Decidable (_ = _))

instance (round : String → Nat) : Decidable (graph.IsRound round) :=
  inferInstanceAs (Decidable (∀ rule ∈ graph.rules, _))

def rank (graph : RuleGraph) (round : String → Nat) (rule : String) : Nat ×ₗ Nat :=
  toLex (round rule, graph.rules.idxOf rule)

def byRound (graph : RuleGraph) (round : String → Nat) : List String :=
  graph.rules.mergeSort fun a b => graph.rank round a ≤ graph.rank round b

theorem foldr_max_le {rounds : List Nat} {bound : Nat} :
    rounds.foldr max 1 ≤ bound ↔ 1 ≤ bound ∧ ∀ round ∈ rounds, round ≤ bound := by
  induction rounds with
  | nil => simp
  | cons round rest ih =>
      rw [List.foldr_cons, max_le_iff, ih, List.forall_mem_cons]
      exact and_left_comm

theorem RoundAt.le_iff {round : String → Nat} {rule : String} (at_rule : graph.RoundAt round rule)
    {bound : Nat} : round rule ≤ bound ↔
      1 ≤ bound ∧ ∀ dependency ∈ graph.dependencies rule,
        graph.waits round rule dependency ≤ bound := by
  rw [at_rule, foldr_max_le, List.forall_mem_map]

theorem RoundAt.pos {round : String → Nat} {rule : String} (at_rule : graph.RoundAt round rule) :
    1 ≤ round rule :=
  (at_rule.le_iff.mp (Nat.le_refl _)).1

theorem Ordered.of_concat {placed : List String} {rule : String}
    (ordered : graph.Ordered (placed ++ [rule])) :
    graph.Ordered placed ∧ rule ∉ placed ∧ graph.Ready placed rule := by
  obtain ⟨distinct, -, apart⟩ := List.nodup_append.mp ordered.distinct
  refine ⟨⟨distinct, ?_, ?_⟩, ?_, ordered.after placed rule [] rfl⟩
  · exact fun name member => ordered.exist name (List.mem_append_left _ member)
  · intro before name later split
    apply ordered.after before name (later ++ [rule])
    rw [split, List.append_assoc, List.cons_append]
  · exact fun member => apart rule member rule (List.mem_singleton_self rule) rfl

theorem Ordered.ready_of_mem {placed : List String} (ordered : graph.Ordered placed)
    {rule : String} (member : rule ∈ placed) : graph.Ready placed rule := by
  obtain ⟨before, later, split⟩ := List.mem_iff_append.mp member
  intro dependency depends
  rw [split]
  exact List.mem_append_left _ (ordered.after before rule later split dependency depends)

theorem Ordered.exists_round {placed : List String} (ordered : graph.Ordered placed) :
    ∃ round, ∀ rule ∈ placed, graph.RoundAt round rule := by
  induction placed using List.reverseRecOn with
  | nil => exact ⟨fun _ => 1, nofun⟩
  | append_singleton earlier last ih =>
      obtain ⟨ordered_earlier, fresh, ready⟩ := ordered.of_concat
      obtain ⟨round, rounds⟩ := ih ordered_earlier
      let latest := ((graph.dependencies last).map (graph.waits round last)).foldr max 1
      have apart : ∀ rule ∈ earlier, rule ≠ last := fun rule member same => fresh (same ▸ member)
      -- The rule that is new has no part in the rounds of those before it, nor in its own.
      have same : ∀ rule, graph.Ready earlier rule →
          (graph.dependencies rule).map (graph.waits (Function.update round last latest) rule) =
            (graph.dependencies rule).map (graph.waits round rule) := by
        intro rule ready
        apply List.map_congr_left
        intro dependency member
        rw [waits, waits, Function.update_of_ne (apart dependency (ready dependency member))]
      refine ⟨Function.update round last latest, ?_⟩
      intro rule member
      rcases List.mem_append.mp member with among | single
      · rw [RoundAt, same rule (ordered_earlier.ready_of_mem among),
          Function.update_of_ne (apart rule among)]
        exact rounds rule among
      · obtain rfl := List.mem_singleton.mp single
        rw [RoundAt, same rule ready, Function.update_self]

/-- The rules whose rank is below a bound are placed, in the order of their ranks. -/
structure Placed (graph : RuleGraph) (round : String → Nat) (bound : Nat ×ₗ Nat)
    (placed : List String) : Prop where
  sorted : placed.Pairwise fun a b => graph.rank round a < graph.rank round b
  mem_iff : ∀ rule, rule ∈ placed ↔ rule ∈ graph.rules ∧ graph.rank round rule < bound

variable {round : String → Nat}

theorem idxOf_rules {front back : List (String × List String)} {edge : String × List String}
    (split : graph.edges.items = front ++ edge :: back) :
    graph.rules.idxOf edge.1 = front.length := by
  have names : graph.rules = front.map Prod.fst ++ edge.1 :: back.map Prod.fst := by
    rw [rules, Roster.keys, split, List.map_append, List.map_cons]
  have distinct := graph.nodup_rules
  rw [names, List.nodup_middle, List.nodup_cons, List.mem_append, not_or] at distinct
  rw [names, List.idxOf_append_of_notMem distinct.1.1, List.idxOf_cons_self, List.length_map,
    Nat.add_zero]

/-- In the round of number `count + 1` and at its own place a rule can be placed just if this is
its round. -/
theorem ready_iff (is_round : graph.IsRound round) (acyclic : graph.Acyclic)
    (closed : graph.Closed) {count : Nat} {placed : List String} {rule : String}
    (present : rule ∈ graph.rules)
    (so_far : graph.Placed round (toLex (count + 1, graph.rules.idxOf rule)) placed) :
    graph.Ready placed rule ↔ round rule ≤ count + 1 := by
  rw [(is_round rule present).le_iff]
  have each : ∀ dependency ∈ graph.dependencies rule,
      (dependency ∈ placed ↔ graph.waits round rule dependency ≤ count + 1) := by
    intro dependency depends
    have exist := closed rule dependency depends
    have apart : dependency ≠ rule := by
      rintro rfl
      exact acyclic dependency (.single ⟨exist, exist, depends⟩)
    have elsewhere : graph.rules.idxOf dependency ≠ graph.rules.idxOf rule :=
      fun same => apart ((List.idxOf_inj (has_iff.mp exist)).mp same)
    rw [so_far.mem_iff, rank, Prod.Lex.toLex_lt_toLex, waits]
    simp only [has_iff.mp exist, true_and]
    split <;> omega
  constructor
  · intro ready
    exact ⟨Nat.le_add_left 1 count,
      fun dependency depends => (each dependency depends).mp (ready dependency depends)⟩
  · intro waited dependency depends
    exact (each dependency depends).mpr (waited.2 dependency depends)

theorem lt_next_iff {count place : Nat} {rule : String} :
    graph.rank round rule < toLex (count, place + 1) ↔
      graph.rank round rule < toLex (count, place) ∨ graph.rank round rule = toLex (count, place) := by
  rw [rank, Prod.Lex.toLex_lt_toLex, Prod.Lex.toLex_lt_toLex, toLex_inj, Prod.mk.injEq]
  dsimp only
  omega

theorem Placed.place (is_round : graph.IsRound round) (acyclic : graph.Acyclic)
    (closed : graph.Closed) {count : Nat} {placed : List String}
    {front back : List (String × List String)} {edge : String × List String}
    (split : graph.edges.items = front ++ edge :: back)
    (so_far : graph.Placed round (toLex (count + 1, front.length)) placed) :
    graph.Placed round (toLex (count + 1, front.length + 1)) (RuleGraph.place placed edge) := by
  have here := idxOf_rules split
  have member : edge ∈ graph.edges.items := split ▸ List.mem_append_right front List.mem_cons_self
  have present : edge.1 ∈ graph.rules := List.mem_map_of_mem member
  have ready : graph.Ready placed edge.1 ↔ round edge.1 ≤ count + 1 :=
    ready_iff is_round acyclic closed present (here ▸ so_far)
  rw [Ready, dependencies_of_mem member] at ready
  have at_place : ∀ rule ∈ graph.rules,
      graph.rank round rule = toLex (count + 1, front.length) →
        rule = edge.1 ∧ round edge.1 = count + 1 := by
    intro rule exist same
    obtain ⟨same_round, same_place⟩ := Prod.mk.inj (toLex_inj.mp same)
    obtain rfl := (List.idxOf_inj exist).mp (same_place.trans here.symm)
    exact ⟨rfl, same_round⟩
  rcases place_cases placed edge with ⟨same, waiting⟩ | ⟨appended, fresh, waited⟩
  · rw [same]
    refine ⟨so_far.sorted, ?_⟩
    intro rule
    rw [so_far.mem_iff, lt_next_iff]
    constructor
    · exact fun below => ⟨below.1, .inl below.2⟩
    · rintro ⟨exist, below | at_bound⟩
      · exact ⟨exist, below⟩
      · obtain ⟨rfl, due⟩ := at_place rule exist at_bound
        rcases waiting with there | ⟨dependency, depends, absent⟩
        · exact absurd at_bound ((so_far.mem_iff _).mp there).2.ne
        · exact absurd (ready.mpr due.le dependency depends) absent
  · have due : graph.rank round edge.1 = toLex (count + 1, front.length) := by
      have late : ¬ graph.rank round edge.1 < toLex (count + 1, front.length) :=
        fun below => fresh ((so_far.mem_iff _).mpr ⟨present, below⟩)
      have soon := ready.mp waited
      rw [rank, Prod.Lex.toLex_lt_toLex] at late
      rw [rank, here, toLex_inj, Prod.mk.injEq]
      dsimp only at late
      omega
    rw [appended]
    constructor
    · rw [List.pairwise_append]
      refine ⟨so_far.sorted, List.pairwise_singleton _ _, ?_⟩
      intro rule among last single
      rw [List.mem_singleton.mp single, due]
      exact ((so_far.mem_iff rule).mp among).2
    · intro rule
      rw [List.mem_append, List.mem_singleton, so_far.mem_iff, lt_next_iff]
      constructor
      · rintro (below | rfl)
        · exact ⟨below.1, .inl below.2⟩
        · exact ⟨present, .inr due⟩
      · rintro ⟨exist, below | at_bound⟩
        · exact .inl ⟨exist, below⟩
        · exact .inr (at_place rule exist at_bound).1

theorem Placed.foldl (is_round : graph.IsRound round) (acyclic : graph.Acyclic)
    (closed : graph.Closed) {count : Nat} {placed : List String}
    {front back : List (String × List String)} (split : graph.edges.items = front ++ back)
    (so_far : graph.Placed round (toLex (count + 1, front.length)) placed) :
    graph.Placed round (toLex (count + 1, graph.size)) (back.foldl RuleGraph.place placed) := by
  induction back generalizing front placed with
  | nil =>
      rw [List.append_nil] at split
      rwa [size, Roster.size, split]
  | cons edge rest ih =>
      have next := so_far.place is_round acyclic closed split
      rw [List.append_cons] at split
      apply ih split
      rwa [List.length_append, List.length_singleton]

theorem Placed.pass (is_round : graph.IsRound round) (acyclic : graph.Acyclic)
    (closed : graph.Closed) {count : Nat} {placed : List String}
    (so_far : graph.Placed round (toLex (count + 1, 0)) placed) :
    graph.Placed round (toLex (count + 2, 0)) (graph.pass placed) := by
  obtain ⟨sorted, mem_iff⟩ := so_far.foldl is_round acyclic closed (List.nil_append _).symm
  refine ⟨sorted, ?_⟩
  intro rule
  rw [RuleGraph.pass, mem_iff, rank, Prod.Lex.toLex_lt_toLex, Prod.Lex.toLex_lt_toLex]
  apply and_congr_right
  intro exist
  have within := List.idxOf_lt_length_iff.mpr exist
  rw [length_rules] at within
  dsimp only
  omega

theorem Placed.placeAll (is_round : graph.IsRound round) (acyclic : graph.Acyclic)
    (closed : graph.Closed) {count : Nat} {placed order : List String}
    (so_far : graph.Placed round (toLex (count + 1, 0)) placed)
    (ended : graph.placeAll placed = .ok order) :
    order.Pairwise fun a b => graph.rank round a < graph.rank round b := by
  induction placed using RuleGraph.placeAll.induct graph generalizing count with
  | case1 placed full =>
      rw [RuleGraph.placeAll, if_pos full] at ended
      cases ended
      exact so_far.sorted
  | case2 placed short progress ih =>
      rw [RuleGraph.placeAll, if_neg short, if_pos progress] at ended
      exact ih (so_far.pass is_round acyclic closed) ended
  | case3 placed short stuck =>
      rw [RuleGraph.placeAll, if_neg short, if_neg stuck] at ended
      contradiction

theorem placed_nil (is_round : graph.IsRound round) : graph.Placed round (toLex (1, 0)) [] where
  sorted := List.Pairwise.nil
  mem_iff := by
    intro rule
    rw [rank, Prod.Lex.toLex_lt_toLex]
    constructor
    · nofun
    · rintro ⟨exist, below⟩
      have pos := (is_round rule exist).pos
      dsimp only at below
      omega

theorem rank_inj {rule other : String} (present : rule ∈ graph.rules)
    (same : graph.rank round rule = graph.rank round other) : rule = other :=
  (List.idxOf_inj present).mp (Prod.mk.inj (toLex_inj.mp same)).2

theorem byRound_eq {order : List String} (perm : order.Perm graph.rules)
    (sorted : order.Pairwise fun a b => graph.rank round a ≤ graph.rank round b) :
    order = graph.byRound round := by
  have ascending : (graph.byRound round).Pairwise fun a b =>
      graph.rank round a ≤ graph.rank round b :=
    List.pairwise_mergeSort' (Order.Preimage (graph.rank round) (· ≤ ·)) graph.rules
  apply List.Perm.eq_of_pairwise _ sorted ascending (perm.trans (List.mergeSort_perm _ _).symm)
  intro a b member _ below above
  exact rank_inj (perm.mem_iff.mp member) (le_antisymm below above)

theorem order_eq_byRound (is_round : graph.IsRound round) (acyclic : graph.Acyclic)
    (closed : graph.Closed) : graph.order = .ok (graph.byRound round) := by
  obtain ⟨order, ordered, perm, -⟩ := order_ok acyclic closed
  have sorted := (placed_nil is_round).placeAll is_round acyclic closed ordered
  rw [ordered, byRound_eq perm (sorted.imp le_of_lt)]

theorem isRound_one (ordered : graph.Ordered graph.rules) : graph.IsRound fun _ => 1 := by
  intro rule present
  obtain ⟨before, later, split⟩ := List.mem_iff_append.mp present
  have fresh : rule ∉ before := by
    have distinct := ordered.distinct
    rw [split, List.nodup_middle, List.nodup_cons] at distinct
    exact fun earlier => distinct.1 (List.mem_append_left later earlier)
  have place : graph.rules.idxOf rule = before.length := by
    rw [split, List.idxOf_append_of_notMem fresh, List.idxOf_cons_self, Nat.add_zero]
  apply le_antisymm (foldr_max_le.mp (Nat.le_refl _)).1
  rw [foldr_max_le, List.forall_mem_map]
  refine ⟨Nat.le_refl 1, ?_⟩
  intro dependency depends
  have earlier := ordered.after before rule later split dependency depends
  have before_rule : graph.rules.idxOf dependency < graph.rules.idxOf rule := by
    rw [place, split, List.idxOf_append_of_mem earlier]
    exact List.idxOf_lt_length_of_mem earlier
  rw [waits, if_pos before_rule]

theorem order_of_ordered (ordered : graph.Ordered graph.rules) (acyclic : graph.Acyclic)
    (closed : graph.Closed) : graph.order = .ok graph.rules := by
  rw [order_eq_byRound (isRound_one ordered) acyclic closed, ← byRound_eq (List.Perm.refl _)]
  rw [List.pairwise_iff_getElem]
  intro i j first second before
  rw [rank, rank, Prod.Lex.toLex_le_toLex, graph.nodup_rules.idxOf_getElem,
    graph.nodup_rules.idxOf_getElem]
  exact .inr ⟨rfl, Nat.le_of_lt before⟩

end RuleGraph

namespace Policy

variable {policy other : Policy}

theorem schedule_of_ordered {graph : RuleGraph} (valid : policy.validate = .ok graph)
    (ordered : graph.Ordered policy.rules.keys) : policy.schedule = .ok policy.rules.keys := by
  obtain ⟨rfl, -, acyclic⟩ := validate_eq_ok.mp valid
  rw [← rules_ofPolicy] at ordered ⊢
  rw [schedule, valid, ok_bind,
    RuleGraph.order_of_ordered ordered acyclic (closed_of_validate valid)]

theorem ordered_perm (permuted : other.rules.items.Perm policy.rules.items) {placed : List String}
    (ordered : (RuleGraph.ofPolicy policy).Ordered placed) :
    (RuleGraph.ofPolicy other).Ordered placed where
  distinct := ordered.distinct
  exist := by
    intro name member
    have present := ordered.exist name member
    rw [rules_ofPolicy] at present ⊢
    exact (keys_perm permuted name).mpr present
  after := by
    intro before name later split dependency depends
    rw [mem_dependencies_ofPolicy, depends_perm permuted] at depends
    exact ordered.after before name later split dependency (mem_dependencies_ofPolicy.mpr depends)

theorem schedule_of_redeclared {order : List String} (scheduled : policy.schedule = .ok order)
    (permuted : other.rules.items.Perm policy.rules.items) (declared : other.rules.keys = order) :
    other.schedule = .ok order := by
  obtain ⟨graph, valid, -⟩ := bind_eq_ok.mp scheduled
  rw [← declared]
  apply schedule_of_ordered (validate_perm permuted valid)
  rw [declared]
  exact ordered_perm permuted (schedule_ordered scheduled).2

end Policy

namespace RuleGraph

/-- The rules of a graph whose dependencies are rules, none of them in a circle, have rounds, and
they come in the order of these, and in one round as they are declared. So a policy that is declared
in order is run as it is declared, and to declare a policy in the order in which it is run does not
change that order. -/
theorem order_sorted_by_round {graph : RuleGraph} (acyclic : graph.Acyclic)
    (closed : graph.Closed) :
    (∃ round, graph.IsRound round) ∧
    (∀ round, graph.IsRound round → graph.order = .ok (graph.byRound round)) ∧
    ∀ policy : Policy, policy.validate = .ok graph →
      (graph.Ordered policy.rules.keys →
        policy.schedule = .ok policy.rules.keys ∧
        ∀ (evaluator : Evaluator) (features : Features),
          ∃ whole, evaluator.execute policy features = .ok whole ∧
            whole.order = policy.rules.keys) ∧
      ∀ (other : Policy) (order : List String), policy.schedule = .ok order →
        other.rules.items.Perm policy.rules.items → other.rules.keys = order →
          other.schedule = .ok order := by
  refine ⟨?_, fun round is_round => order_eq_byRound is_round acyclic closed, ?_⟩
  · obtain ⟨order, -, perm, ordered⟩ := order_ok acyclic closed
    obtain ⟨round, rounds⟩ := ordered.exists_round
    exact ⟨round, fun rule present => rounds rule (perm.mem_iff.mpr present)⟩
  · intro policy valid
    constructor
    · intro ordered
      have scheduled := Policy.schedule_of_ordered valid ordered
      refine ⟨scheduled, ?_⟩
      intro evaluator features
      obtain ⟨whole, executed, follows⟩ := evaluator.execute_of_schedule features scheduled
      exact ⟨whole, executed, follows.names⟩
    · intro other order scheduled permuted declared
      exact Policy.schedule_of_redeclared scheduled permuted declared

def reportRules : List Rule :=
  [((Rule.ofExpression "summary" "ratio - base").dependOn "ratio").dependOn "base",
    .ofExpression "base" "8", (Rule.ofExpression "ratio" "total / 4").dependOn "total",
    (Rule.ofExpression "total" "base + 1").dependOn "base"]

def report (rules : List Rule) : Policy :=
  rules.foldl Policy.declare (Policy.named "report" "1.0")

def reportRound (rule : String) : Nat :=
  if rule = "summary" then 3 else if rule = "ratio" then 2 else 1

/-- The total is placed in the first round, as the base is declared before it; the ratio has to wait
for a total that comes later. Declared in this order, the report is run in it. -/
theorem report_by_round :
    let order := ["base", "total", "ratio", "summary"]
    let inOrder := report [.ofExpression "base" "8",
      (Rule.ofExpression "total" "base + 1").dependOn "base",
      (Rule.ofExpression "ratio" "total / 4").dependOn "total",
      ((Rule.ofExpression "summary" "ratio - base").dependOn "ratio").dependOn "base"]
    ∃ graph, (report reportRules).validate = .ok graph ∧ graph.Acyclic ∧ graph.Closed ∧
      graph.IsRound reportRound ∧ graph.order = .ok (graph.byRound reportRound) ∧
      graph.byRound reportRound = order ∧ inOrder.schedule = .ok order := by
  intro order inOrder
  have valid : (report reportRules).validate.map (fun _ => ()) = .ok () := by decide +kernel
  obtain ⟨graph, valid, -⟩ := map_eq_ok.mp valid
  obtain ⟨same, -, acyclic⟩ := Policy.validate_eq_ok.mp valid
  have closed := Policy.closed_of_validate valid
  obtain ⟨-, by_round, policies⟩ := order_sorted_by_round acyclic closed
  have rounds : graph.IsRound reportRound := by
    rw [same]
    decide +kernel
  have scheduled : (report reportRules).schedule = .ok order := by decide +kernel
  have placed : graph.order = .ok order := by
    rw [Policy.schedule, valid] at scheduled
    exact scheduled
  have ranked := (by_round reportRound rounds).symm.trans placed
  refine ⟨graph, valid, acyclic, closed, rounds, by_round reportRound rounds,
    Except.ok.inj ranked, ?_⟩
  exact (policies _ valid).2 inOrder order scheduled (by decide +kernel) rfl

end RuleGraph
end Rulebook
