import Mathlib.Data.List.TakeWhile
import Rulebook.Proofs.Policy.Cycle
import Rulebook.Proofs.Policy.Order

namespace Rulebook

theorem trimBlank_eq_nil {text : List Char} :
    trimBlank text = [] ↔ ∀ c ∈ text, isBlank c = true := by
  rw [trimBlank, List.reverse_eq_nil_iff, List.dropWhile_eq_nil_iff]
  constructor
  · intro blank c member
    have parted : c ∈ text.takeWhile isBlank ++ text.dropWhile isBlank := by
      rw [List.takeWhile_append_dropWhile]
      exact member
    rcases List.mem_append.mp parted with front | back
    · exact List.mem_takeWhile_imp front
    · exact blank c (List.mem_reverse.mpr back)
  · intro blank c member
    exact blank c ((List.dropWhile_sublist _).subset (List.mem_reverse.mp member))

theorem isBlankText_iff {text : String} : isBlankText text = true ↔ trimBlank text.toList = [] := by
  rw [isBlankText, List.all_eq_true, trimBlank_eq_nil]

namespace Policy

structure Admits (policy : Policy) (rule : Rule) : Prop where
  named : trimBlank rule.name.toList ≠ []
  written : trimBlank rule.expression.toList ≠ []
  declared : ∀ dependency ∈ rule.dependencies, dependency ∈ policy.rules.keys

structure WellFormed (policy : Policy) : Prop where
  nonempty : policy.rules.items ≠ []
  admits : ∀ rule ∈ policy.rules.items, policy.Admits rule

/-- What a policy declares: that the rule of one name depends on another name. -/
def Depends (policy : Policy) (name dependency : String) : Prop :=
  ∃ rule ∈ policy.rules.items, rule.name = name ∧ dependency ∈ rule.dependencies

variable {policy : Policy}

theorem checkRule_eq_ok {rule : Rule} : policy.checkRule rule = .ok () ↔ policy.Admits rule := by
  rw [checkRule]
  constructor
  · intro checked
    split at checked
    · contradiction
    · rename_i named
      split at checked
      · contradiction
      · rename_i written
        split at checked
        · contradiction
        · rename_i none_missing
          refine ⟨fun blank => named (isBlankText_iff.mpr blank),
            fun blank => written (isBlankText_iff.mpr blank), ?_⟩
          intro dependency member
          have present := List.find?_eq_none.mp none_missing dependency member
          exact Roster.contains_iff.mp (by simpa [Policy.has] using present)
  · intro admits
    rw [if_neg fun blank => admits.named (isBlankText_iff.mp blank),
      if_neg fun blank => admits.written (isBlankText_iff.mp blank)]
    have none_missing :
        rule.dependencies.find? (fun dependency => !policy.has dependency) = none := by
      rw [List.find?_eq_none]
      intro dependency member
      have present := Roster.contains_iff.mpr (admits.declared dependency member)
      simp [Policy.has, present]
    rw [none_missing]

theorem checkRule_error {rule : Rule} {failure : Failure}
    (refused : policy.checkRule rule = .error failure) :
    ∃ fault, failure = .invalidPolicy fault ∧ ∀ rules, fault ≠ .unordered rules := by
  rw [checkRule] at refused
  split at refused
  · cases refused
    exact ⟨_, rfl, nofun⟩
  · split at refused
    · cases refused
      exact ⟨_, rfl, nofun⟩
    · split at refused
      · cases refused
        exact ⟨_, rfl, nofun⟩
      · contradiction

theorem mem_dependencies_ofPolicy {name dependency : String} :
    dependency ∈ (RuleGraph.ofPolicy policy).dependencies name ↔
      policy.Depends name dependency := by
  constructor
  · intro member
    have present := RuleGraph.has_iff.mp (RuleGraph.has_of_mem_dependencies member)
    rcases List.mem_map.mp (RuleGraph.mem_items_of_mem_rules present) with ⟨rule, among, same⟩
    rcases Prod.mk.inj same with ⟨at_name, listed⟩
    exact ⟨rule, among, at_name, listed ▸ member⟩
  · intro depends
    rcases depends with ⟨rule, among, rfl, member⟩
    have present : (rule.name, rule.dependencies) ∈ (RuleGraph.ofPolicy policy).edges.items :=
      List.mem_map_of_mem among
    rw [RuleGraph.dependencies_of_mem present]
    exact member

theorem rules_ofPolicy (policy : Policy) :
    (RuleGraph.ofPolicy policy).rules = policy.rules.keys :=
  List.map_map

theorem edge_ofPolicy (admits : ∀ rule ∈ policy.rules.items, policy.Admits rule) :
    (RuleGraph.ofPolicy policy).Edge = policy.Depends := by
  funext name dependency
  rw [RuleGraph.Edge, mem_dependencies_ofPolicy, RuleGraph.has_iff, RuleGraph.has_iff,
    rules_ofPolicy]
  apply propext
  constructor
  · intro edge
    exact edge.2.2
  · intro depends
    rcases depends with ⟨rule, among, rfl, member⟩
    exact ⟨List.mem_map_of_mem among, (admits rule among).declared dependency member,
      rule, among, rfl, member⟩

theorem validate_of_wellFormed (formed : policy.WellFormed) :
    policy.validate =
      (RuleGraph.ofPolicy policy).checkCycles >>= fun _ => .ok (RuleGraph.ofPolicy policy) := by
  have checked : policy.rules.items.forM policy.checkRule = .ok () :=
    forM_eq_ok.mpr fun rule member => checkRule_eq_ok.mpr (formed.admits rule member)
  have some_rules : policy.rules.size ≠ 0 := by
    intro no_rules
    exact formed.nonempty (List.length_eq_zero_iff.mp no_rules)
  rw [validate, if_neg some_rules, checked]
  rfl

theorem validate_of_not_wellFormed (malformed : ¬ policy.WellFormed) :
    ∃ fault, policy.validate = .error (.invalidPolicy fault) ∧
      ∀ rules, fault ≠ .unordered rules := by
  rw [validate]
  by_cases no_rules : policy.rules.size = 0
  · rw [if_pos no_rules]
    exact ⟨_, rfl, nofun⟩
  · rw [if_neg no_rules]
    cases checked : policy.rules.items.forM policy.checkRule with
    | error failure =>
        rcases forM_eq_error checked with ⟨rule, -, refused⟩
        rcases checkRule_error refused with ⟨fault, rfl, ordered⟩
        exact ⟨fault, rfl, ordered⟩
    | ok =>
        refine absurd ⟨fun empty => no_rules (List.length_eq_zero_iff.mpr empty), ?_⟩ malformed
        intro rule member
        exact checkRule_eq_ok.mp (forM_eq_ok.mp checked rule member)

theorem validate_eq_ok {graph : RuleGraph} :
    policy.validate = .ok graph ↔
      graph = RuleGraph.ofPolicy policy ∧ policy.WellFormed ∧ graph.Acyclic := by
  by_cases formed : policy.WellFormed
  · rw [validate_of_wellFormed formed, bind_eq_ok]
    constructor
    · intro valid
      rcases valid with ⟨⟨⟩, checked, same⟩
      cases same
      exact ⟨rfl, formed, RuleGraph.checkCycles_ok checked⟩
    · intro sound
      rcases sound with ⟨rfl, -, acyclic⟩
      exact ⟨(), RuleGraph.checkCycles_eq_ok.mpr acyclic, rfl⟩
  · rcases validate_of_not_wellFormed formed with ⟨fault, refused, -⟩
    rw [refused]
    constructor
    · exact nofun
    · intro sound
      exact absurd sound.2.1 formed

theorem validate_circular {route : List String}
    (refused : policy.validate = .error (.circularDependency route)) : policy.WellFormed := by
  by_contra malformed
  rcases validate_of_not_wellFormed malformed with ⟨fault, invalid, -⟩
  rw [invalid] at refused
  cases refused

theorem validate_error {failure : Failure} (refused : policy.validate = .error failure) :
    (∃ fault, failure = .invalidPolicy fault ∧ ∀ rules, fault ≠ .unordered rules) ∨
      ∃ route, failure = .circularDependency route := by
  by_cases formed : policy.WellFormed
  · rw [validate_of_wellFormed formed, bind_eq_error] at refused
    rcases refused with cyclic | ⟨-, -, impossible⟩
    · rcases RuleGraph.checkCycles_error cyclic with ⟨route, circular, -⟩
      exact .inr ⟨route, circular⟩
    · contradiction
  · rcases validate_of_not_wellFormed formed with ⟨fault, invalid, ordered⟩
    rw [invalid] at refused
    cases refused
    exact .inl ⟨fault, rfl, ordered⟩

theorem closed_of_validate {graph : RuleGraph} (valid : policy.validate = .ok graph) :
    graph.Closed := by
  rcases validate_eq_ok.mp valid with ⟨rfl, formed, -⟩
  intro name dependency member
  rw [RuleGraph.has_iff, rules_ofPolicy]
  rcases mem_dependencies_ofPolicy.mp member with ⟨rule, among, -, listed⟩
  exact (formed.admits rule among).declared dependency listed

theorem order_of_validate {graph : RuleGraph} (valid : policy.validate = .ok graph) :
    ∃ order, graph.order = .ok order ∧ order.Perm policy.rules.keys ∧ graph.Ordered order := by
  have closed := closed_of_validate valid
  rcases validate_eq_ok.mp valid with ⟨rfl, -, acyclic⟩
  rw [← rules_ofPolicy]
  exact RuleGraph.order_ok acyclic closed

theorem schedule_eq_error {failure : Failure} :
    policy.schedule = .error failure ↔ policy.validate = .error failure := by
  rw [schedule, bind_eq_error]
  constructor
  · intro failed
    rcases failed with refused | ⟨graph, valid, stuck⟩
    · exact refused
    · rcases order_of_validate valid with ⟨order, ordered, -⟩
      rw [stuck] at ordered
      contradiction
  · exact .inl

/-- A policy passes the check just if it has rules, each of them is sound, and no name leads back to
itself along what is declared. Such a policy has an order, and no other failure to order is met. -/
theorem validate_agrees_with_order (policy : Policy) :
    ((∃ graph, policy.validate = .ok graph) ↔
      policy.rules.items ≠ [] ∧ (∀ rule ∈ policy.rules.items, policy.Admits rule) ∧
        ∀ name, ¬ Relation.TransGen policy.Depends name name) ∧
    (∀ route, policy.validate = .error (.circularDependency route) →
      policy.rules.items ≠ [] ∧ ∀ rule ∈ policy.rules.items, policy.Admits rule) ∧
    (∀ graph, policy.validate = .ok graph →
      ∃ order, graph.order = .ok order ∧ policy.schedule = .ok order ∧ order.Nodup ∧
        (∀ name, name ∈ order ↔ name ∈ policy.rules.keys) ∧
        ∀ before name later, order = before ++ name :: later →
          ∀ dependency, policy.Depends name dependency → dependency ∈ before) ∧
    (∀ failure, policy.schedule = .error failure →
      policy.validate = .error failure ∧ ∀ rules, failure ≠ .invalidPolicy (.unordered rules)) := by
  refine ⟨⟨?_, ?_⟩, ?_, ?_, ?_⟩
  · intro passes
    rcases passes with ⟨graph, valid⟩
    rcases validate_eq_ok.mp valid with ⟨rfl, formed, acyclic⟩
    rw [RuleGraph.Acyclic, edge_ofPolicy formed.admits] at acyclic
    exact ⟨formed.nonempty, formed.admits, acyclic⟩
  · intro sound
    rcases sound with ⟨nonempty, admits, acyclic⟩
    rw [← edge_ofPolicy admits] at acyclic
    exact ⟨_, validate_eq_ok.mpr ⟨rfl, ⟨nonempty, admits⟩, acyclic⟩⟩
  · intro route refused
    have formed := validate_circular refused
    exact ⟨formed.nonempty, formed.admits⟩
  · intro graph valid
    rcases order_of_validate valid with ⟨order, ordered, perm, sorted⟩
    refine ⟨order, ordered, ?_, sorted.distinct, fun _ => perm.mem_iff, ?_⟩
    · rw [schedule, valid]
      exact ordered
    · intro before name later split dependency depends
      rcases validate_eq_ok.mp valid with ⟨rfl, -, -⟩
      exact sorted.after before name later split dependency (mem_dependencies_ofPolicy.mpr depends)
  · intro failure refused
    have invalid := schedule_eq_error.mp refused
    refine ⟨invalid, ?_⟩
    intro rules same
    subst same
    rcases validate_error invalid with ⟨fault, same, ordered⟩ | ⟨route, circular⟩
    · cases same
      exact ordered rules rfl
    · cases circular

end Policy
end Rulebook
