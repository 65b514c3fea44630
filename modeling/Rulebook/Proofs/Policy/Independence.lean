import Rulebook.Proofs.Evaluator
import Rulebook.Proofs.Policy.Execution

/-!
What the outcome of a rule does not depend on.

Two runs give a rule the same outcome where it has the same expression in both, and where each name
in the expression is a rule run before it in both or in neither, with the same outcome. From this,
by induction along the order of one run, come two laws: the order of declaration does not matter
where rules mention only what they depend on, and a rule is not touched by a change to one that it
does not mention, directly or through others.
-/

namespace Rulebook

/-- The expression of a rule mentions a name. One that does not compile mentions none. -/
def Evaluator.Mentions (evaluator : Evaluator) (policy : Policy) (name id : String) : Prop :=
  ∃ rule compiled, policy.rule? name = some rule ∧
    evaluator.compile rule.expression = .ok compiled ∧ id ∈ compiled.names

theorem Evaluator.mentions_iff {evaluator : Evaluator} {policy : Policy} {name id : String}
    {rule : Rule} {names : List String} (present : policy.rule? name = some rule)
    (listed : (evaluator.compile rule.expression).map CompiledExpr.names = .ok names) :
    evaluator.Mentions policy name id ↔ id ∈ names := by
  rcases map_eq_ok.mp listed with ⟨compiled, compiles, rfl⟩
  constructor
  · intro mentions
    rcases mentions with ⟨found, again, presentAgain, compilesAgain, mentioned⟩
    rw [present, Option.some.injEq] at presentAgain
    subst presentAgain
    rw [compiles, Except.ok.injEq] at compilesAgain
    exact compilesAgain ▸ mentioned
  · intro mentioned
    exact ⟨rule, compiled, present, compiles, mentioned⟩

namespace PolicyOutcome

theorem Offers.lookup?_eq {whole other : PolicyOutcome} {before otherBefore : List String}
    {results others : RuleResults} {id : String} (offers : whole.Offers before results)
    (offersOther : other.Offers otherBefore others) (placed : id ∈ before ↔ id ∈ otherBefore)
    (same : id ∈ before → whole.outcome? id = other.outcome? id) :
    results.lookup? id = others.lookup? id := by
  apply Option.ext
  intro value
  rw [offers id value, offersOther id value, ← placed]
  apply and_congr_right
  intro earlier
  rw [same earlier]

variable {evaluator : Evaluator} {features : Features} {policy other : Policy}
  {whole otherWhole : PolicyOutcome} {order otherOrder : List String}

/-- A set of rules that two runs treat alike: each has one expression in both, and the rules that it
mentions run before it in both or in neither, and are of the set. -/
structure Alike (evaluator : Evaluator) (policy other : Policy) (order otherOrder : List String)
    (among : String → Prop) : Prop where
  placed : ∀ name ∈ order, among name → name ∈ otherOrder
  expression : ∀ name rule otherRule, among name → policy.rule? name = some rule →
    other.rule? name = some otherRule → otherRule.expression = rule.expression
  mentions : ∀ before name later otherBefore otherLater, order = before ++ name :: later →
    otherOrder = otherBefore ++ name :: otherLater → among name →
      ∀ id, evaluator.Mentions policy name id →
        (id ∈ before ↔ id ∈ otherBefore) ∧ (id ∈ before → among id)

/-- The induction is on the place of the rule in the order of the first run. -/
theorem Follows.outcome?_eq {among : String → Prop}
    (follows : whole.Follows evaluator policy features order)
    (followsOther : otherWhole.Follows evaluator other features otherOrder)
    (alike : Alike evaluator policy other order otherOrder among)
    {before later : List String} {name : String} (split : order = before ++ name :: later)
    (member : among name) :
    ∃ outcome, whole.outcome? name = some outcome ∧ otherWhole.outcome? name = some outcome := by
  induction size : before.length using Nat.strongRecOn generalizing before name later with
  | ind size ih =>
      subst size
      have here : name ∈ order := split ▸ List.mem_append_right before List.mem_cons_self
      rcases List.mem_iff_append.mp (alike.placed name here member) with
        ⟨otherBefore, otherLater, splitOther⟩
      rcases follows.ran split with ⟨rule, results, present, offers, ran⟩
      rcases followsOther.ran splitOther with
        ⟨otherRule, others, presentOther, offersOther, ranOther⟩
      have text := alike.expression name rule otherRule member present presentOther
      have at_name : rule.name = name := (Roster.get?_eq_some.mp present).2
      have other_name : otherRule.name = name := (Roster.get?_eq_some.mp presentOther).2
      have evaluated : evaluator.evaluateText ⟨features, results⟩ rule.expression =
          evaluator.evaluateText ⟨features, others⟩ rule.expression := by
        apply Evaluator.evaluateText_congr
        intro compiled compiles
        refine ⟨?_, fun _ _ => rfl⟩
        intro id mentioned
        obtain ⟨placed, again⟩ := alike.mentions before name later otherBefore otherLater split
          splitOther member id ⟨rule, compiled, present, compiles, mentioned⟩
        apply Scope.resolve_congr
        apply offers.lookup?_eq offersOther placed
        -- What is mentioned and has run stands nearer to the start, and is of the set.
        intro earlier
        rcases List.mem_iff_append.mp earlier with ⟨front, back, rfl⟩
        have shorter : front.length < (front ++ id :: back).length := by
          rw [List.length_append, List.length_cons]
          omega
        rw [List.append_assoc, List.cons_append] at split
        rcases ih _ shorter split (again earlier) rfl with ⟨outcome, found, foundOther⟩
        exact found.trans foundOther.symm
      refine ⟨_, ran, ?_⟩
      rw [ranOther, Evaluator.runRule, Evaluator.runRule, text, evaluated, at_name, other_name]

theorem Follows.outcome?_eq_none (follows : whole.Follows evaluator policy features order)
    {name : String} (absent : name ∉ order) : whole.outcome? name = none := by
  rw [outcome?, Roster.get?_eq_none]
  change name ∉ whole.order
  rw [follows.names]
  exact absent

end PolicyOutcome

namespace Policy

variable {evaluator : Evaluator} {policy other : Policy} {order otherOrder : List String}

theorem not_mem_before (scheduled : policy.schedule = .ok order) {before later : List String}
    {name : String} (split : order = before ++ name :: later) : name ∉ before := by
  have distinct := (schedule_ok scheduled).1
  rw [split, List.nodup_middle, List.nodup_cons] at distinct
  exact fun earlier => distinct.1 (List.mem_append_left later earlier)

theorem mem_keys_of_mem_before (scheduled : policy.schedule = .ok order)
    {before later : List String} {name id : String} (split : order = before ++ name :: later)
    (earlier : id ∈ before) : id ∈ policy.rules.keys := by
  apply ((schedule_ok scheduled).2 id).mp
  rw [split]
  exact List.mem_append_left _ earlier

theorem mem_before_of_transGen (scheduled : policy.schedule = .ok order)
    {before later : List String} {name id : String} (split : order = before ++ name :: later)
    (depends : Relation.TransGen policy.Depends name id) : id ∈ before := by
  have sorted := (schedule_ordered scheduled).2
  induction depends using Relation.TransGen.head_induction_on generalizing before later with
  | single depends =>
      exact sorted.after before _ later split id (mem_dependencies_ofPolicy.mpr depends)
  | head depends _ ih =>
      have first := sorted.after before _ later split _ (mem_dependencies_ofPolicy.mpr depends)
      rcases List.mem_iff_append.mp first with ⟨front, back, rfl⟩
      rw [List.append_assoc, List.cons_append] at split
      exact List.mem_append_left _ (ih split)

theorem depends_perm (permuted : other.rules.items.Perm policy.rules.items) :
    other.Depends = policy.Depends := by
  funext name dependency
  apply propext
  constructor
  · intro depends
    rcases depends with ⟨rule, member, held⟩
    exact ⟨rule, permuted.mem_iff.mp member, held⟩
  · intro depends
    rcases depends with ⟨rule, member, held⟩
    exact ⟨rule, permuted.mem_iff.mpr member, held⟩

theorem rule?_perm (permuted : other.rules.items.Perm policy.rules.items) (name : String) :
    other.rule? name = policy.rule? name := by
  apply Option.ext
  intro rule
  rw [rule?, rule?, Roster.get?_eq_some, Roster.get?_eq_some, permuted.mem_iff]

theorem keys_perm (permuted : other.rules.items.Perm policy.rules.items) (name : String) :
    name ∈ other.rules.keys ↔ name ∈ policy.rules.keys :=
  (permuted.map Rule.name).mem_iff

theorem validate_perm (permuted : other.rules.items.Perm policy.rules.items) {graph : RuleGraph}
    (valid : policy.validate = .ok graph) :
    other.validate = .ok (RuleGraph.ofPolicy other) := by
  rcases validate_eq_ok.mp valid with ⟨rfl, formed, acyclic⟩
  have admits : ∀ rule ∈ other.rules.items, other.Admits rule := by
    intro rule member
    rcases formed.admits rule (permuted.mem_iff.mp member) with ⟨named, written, declared⟩
    refine ⟨named, written, ?_⟩
    intro dependency listed
    exact (keys_perm permuted dependency).mpr (declared dependency listed)
  have nonempty : other.rules.items ≠ [] := by
    intro empty
    rw [empty] at permuted
    exact formed.nonempty permuted.nil_eq.symm
  refine validate_eq_ok.mpr ⟨rfl, ⟨nonempty, admits⟩, ?_⟩
  rw [RuleGraph.Acyclic, edge_ofPolicy admits, depends_perm permuted,
    ← edge_ofPolicy formed.admits]
  exact acyclic

/-- The rules of the policy that a rule mentions are those it depends on, directly or through
others, if not the rule itself. -/
def Closed (evaluator : Evaluator) (policy : Policy) : Prop :=
  ∀ name id, evaluator.Mentions policy name id → id ∈ policy.rules.keys →
    Relation.ReflTransGen policy.Depends name id

theorem Closed.mem_before (closed : policy.Closed evaluator)
    (scheduled : policy.schedule = .ok order) {before later : List String} {name id : String}
    (split : order = before ++ name :: later) (mentions : evaluator.Mentions policy name id)
    (declared : id ∈ policy.rules.keys) (apart : id ≠ name) : id ∈ before := by
  rcases Relation.reflTransGen_iff_eq_or_transGen.mp (closed name id mentions declared) with
    same | depends
  · exact absurd same apart
  · exact mem_before_of_transGen scheduled split depends

theorem Closed.perm (closed : policy.Closed evaluator)
    (permuted : other.rules.items.Perm policy.rules.items) : other.Closed evaluator := by
  intro name id mentions declared
  rcases mentions with ⟨rule, compiled, present, mentions⟩
  rw [rule?_perm permuted] at present
  rw [depends_perm permuted]
  apply closed name id ⟨rule, compiled, present, mentions⟩
  exact (keys_perm permuted id).mp declared

theorem Closed.alike (closed : policy.Closed evaluator)
    (permuted : other.rules.items.Perm policy.rules.items)
    (scheduled : policy.schedule = .ok order) (scheduledOther : other.schedule = .ok otherOrder) :
    PolicyOutcome.Alike evaluator policy other order otherOrder fun _ => True where
  placed := by
    intro name here _
    rw [(schedule_ok scheduled).2] at here
    exact ((schedule_ok scheduledOther).2 name).mpr ((keys_perm permuted name).mpr here)
  expression := by
    intro name rule otherRule _ present presentOther
    rw [rule?_perm permuted, present, Option.some.injEq] at presentOther
    rw [presentOther]
  mentions := by
    intro before name later otherBefore otherLater split splitOther _ id mentions
    have mentionsOther : evaluator.Mentions other name id := by
      rcases mentions with ⟨rule, compiled, present, mentions⟩
      exact ⟨rule, compiled, (rule?_perm permuted name).trans present, mentions⟩
    refine ⟨⟨?_, ?_⟩, fun _ => trivial⟩
    · intro earlier
      have declared := mem_keys_of_mem_before scheduled split earlier
      apply (closed.perm permuted).mem_before scheduledOther splitOther mentionsOther
        ((keys_perm permuted id).mpr declared)
      exact fun same => not_mem_before scheduled split (same ▸ earlier)
    · intro earlier
      have declared := mem_keys_of_mem_before scheduledOther splitOther earlier
      apply closed.mem_before scheduled split mentions ((keys_perm permuted id).mp declared)
      exact fun same => not_mem_before scheduledOther splitOther (same ▸ earlier)

structure SameBut (changed : String) (policy other : Policy) : Prop where
  declared : other.rules.items.map (fun rule => (rule.name, rule.dependencies)) =
    policy.rules.items.map fun rule => (rule.name, rule.dependencies)
  expression : ∀ name rule otherRule, name ≠ changed → policy.rule? name = some rule →
    other.rule? name = some otherRule → otherRule.expression = rule.expression

theorem SameBut.graph {changed : String} (same : policy.SameBut changed other) :
    RuleGraph.ofPolicy other = RuleGraph.ofPolicy policy := by
  simp only [RuleGraph.ofPolicy, same.declared]

theorem SameBut.schedule {changed : String} (same : policy.SameBut changed other)
    {graph otherGraph : RuleGraph} (valid : policy.validate = .ok graph)
    (validOther : other.validate = .ok otherGraph) : other.schedule = policy.schedule := by
  have ofPolicy := (validate_eq_ok.mp valid).1
  have ofOther := (validate_eq_ok.mp validOther).1
  rw [Policy.schedule, Policy.schedule, valid, validOther, ofPolicy, ofOther, same.graph]

theorem SameBut.alike {changed : String} (same : policy.SameBut changed other)
    (scheduled : policy.schedule = .ok order) :
    PolicyOutcome.Alike evaluator policy other order order fun name =>
      name ≠ changed ∧ ¬ Relation.TransGen (evaluator.Mentions policy) name changed where
  placed := fun _ here _ => here
  expression := fun name rule otherRule apart => same.expression name rule otherRule apart.1
  mentions := by
    intro before name later otherBefore otherLater split splitOther apart id mentions
    have distinct := (schedule_ok scheduled).1
    rw [split, List.nodup_middle, List.nodup_cons, List.mem_append, not_or] at distinct
    -- Both runs have one order, and a rule splits it in one place only.
    have once := (List.append_cons_inj_of_notMem distinct.1.1 distinct.1.2).mp
      (split.symm.trans splitOther)
    refine ⟨by rw [once.1], fun _ => ⟨?_, ?_⟩⟩
    · intro reached
      exact apart.2 (.single (reached ▸ mentions))
    · intro reached
      exact apart.2 (.head mentions reached)

end Policy

namespace Evaluator

variable {policy other : Policy}

/-- Where rules mention only what they depend on, the order of declaration does not matter. -/
theorem execute_perm (evaluator : Evaluator) (features : Features) {graph : RuleGraph}
    (valid : policy.validate = .ok graph) (closed : policy.Closed evaluator)
    (permuted : other.rules.items.Perm policy.rules.items) :
    ∃ whole otherWhole, evaluator.execute policy features = .ok whole ∧
      evaluator.execute other features = .ok otherWhole ∧
      (∀ rule ∈ policy.rules.items, ∃ outcome,
        whole.outcome? rule.name = some outcome ∧ otherWhole.outcome? rule.name = some outcome) ∧
      otherWhole.succeeded = whole.succeeded ∧ otherWhole.errors.Perm whole.errors := by
  rcases Policy.schedule_of_validate valid with ⟨order, scheduled⟩
  rcases Policy.schedule_of_validate (Policy.validate_perm permuted valid) with
    ⟨otherOrder, scheduledOther⟩
  rcases execute_of_schedule evaluator features scheduled with ⟨whole, executed, follows⟩
  rcases execute_of_schedule evaluator features scheduledOther with
    ⟨otherWhole, executedOther, followsOther⟩
  have every := (Policy.schedule_ok scheduled).2
  have everyOther := (Policy.schedule_ok scheduledOther).2
  have alike := closed.alike permuted scheduled scheduledOther
  have same : ∀ name ∈ order, ∃ outcome,
      whole.outcome? name = some outcome ∧ otherWhole.outcome? name = some outcome := by
    intro name here
    rcases List.mem_iff_append.mp here with ⟨before, later, split⟩
    exact follows.outcome?_eq followsOther alike split trivial
  have outcomes : otherWhole.outcomes.items.Perm whole.outcomes.items := by
    apply Roster.perm_of_get?_eq
    intro name
    by_cases here : name ∈ order
    · rcases same name here with ⟨outcome, found, foundOther⟩
      exact foundOther.trans found.symm
    · have absent : name ∉ otherOrder := by
        rw [everyOther, Policy.keys_perm permuted, ← every]
        exact here
      exact (followsOther.outcome?_eq_none absent).trans (follows.outcome?_eq_none here).symm
  have errors : otherWhole.errors.Perm whole.errors := by
    rw [follows.errors, followsOther.errors]
    exact outcomes.filterMap RuleOutcome.complaint?
  refine ⟨whole, otherWhole, executed, executedOther, ?_, ?_, errors⟩
  · intro rule member
    exact same rule.name ((every rule.name).mpr (List.mem_map_of_mem member))
  · rw [PolicyOutcome.succeeded, PolicyOutcome.succeeded, PolicyOutcome.hasErrors,
      PolicyOutcome.hasErrors, errors.isEmpty_eq]

def billRules (base : String) : List Rule :=
  [.ofExpression "base" base, (Rule.ofExpression "total" "base + 1").dependOn "base",
    (Rule.ofExpression "fee" "3 * 4").dependOn "base"]

def bill (rules : List Rule) : Policy := rules.foldl Policy.declare (Policy.named "bill" "1.0")

theorem mentions_bill {name id : String}
    (mentions : (ofOperators .standard).Mentions (bill (billRules "2")) name id) :
    name = "total" ∧ id = "base" := by
  have listed : ∀ rule ∈ (bill (billRules "2")).rules.items,
      ((ofOperators .standard).compile rule.expression).map CompiledExpr.names =
        .ok (if rule.name = "total" then ["base"] else []) := by decide +kernel
  have again := mentions
  rcases again with ⟨rule, compiled, present, -⟩
  rcases Roster.get?_eq_some.mp present with ⟨member, rfl⟩
  rw [mentions_iff present (listed rule member)] at mentions
  by_cases total : rule.name = "total"
  · rw [if_pos total, List.mem_singleton] at mentions
    exact ⟨total, mentions⟩
  · rw [if_neg total] at mentions
    contradiction

theorem bill_reversed :
    ∃ whole otherWhole,
      (ofOperators .standard).execute (bill (billRules "2")) .empty = .ok whole ∧
      (ofOperators .standard).execute (bill (billRules "2").reverse) .empty = .ok otherWhole ∧
      (∀ rule ∈ (bill (billRules "2")).rules.items, ∃ outcome,
        whole.outcome? rule.name = some outcome ∧ otherWhole.outcome? rule.name = some outcome) ∧
      otherWhole.succeeded = whole.succeeded ∧ otherWhole.errors.Perm whole.errors := by
  have valid : (bill (billRules "2")).validate.map (fun _ => ()) = .ok () := by decide +kernel
  rcases map_eq_ok.mp valid with ⟨graph, valid, -⟩
  apply execute_perm _ _ valid
  · intro name id mentions declared
    rcases mentions_bill mentions with ⟨rfl, rfl⟩
    exact .single ⟨(Rule.ofExpression "total" "base + 1").dependOn "base", by decide +kernel⟩
  · decide +kernel

/-- A change to the expression of one rule touches no rule that does not mention it, directly or
through others. -/
theorem execute_sameBut (evaluator : Evaluator) (features : Features) {changed : String}
    {graph otherGraph : RuleGraph} (valid : policy.validate = .ok graph)
    (validOther : other.validate = .ok otherGraph) (same : policy.SameBut changed other) :
    ∃ whole otherWhole, evaluator.execute policy features = .ok whole ∧
      evaluator.execute other features = .ok otherWhole ∧
      ∀ rule ∈ policy.rules.items, rule.name ≠ changed →
        ¬ Relation.TransGen (evaluator.Mentions policy) rule.name changed →
          ∃ outcome, whole.outcome? rule.name = some outcome ∧
            otherWhole.outcome? rule.name = some outcome := by
  rcases Policy.schedule_of_validate valid with ⟨order, scheduled⟩
  have scheduledOther := (same.schedule valid validOther).trans scheduled
  rcases execute_of_schedule evaluator features scheduled with ⟨whole, executed, follows⟩
  rcases execute_of_schedule evaluator features scheduledOther with
    ⟨otherWhole, executedOther, followsOther⟩
  refine ⟨whole, otherWhole, executed, executedOther, ?_⟩
  intro rule member apart unread
  have here : rule.name ∈ order :=
    ((Policy.schedule_ok scheduled).2 rule.name).mpr (List.mem_map_of_mem member)
  rcases List.mem_iff_append.mp here with ⟨before, later, split⟩
  exact follows.outcome?_eq followsOther (same.alike scheduled) split ⟨apart, unread⟩

theorem fee_apart_from_base :
    ∃ whole otherWhole,
      (ofOperators .standard).execute (bill (billRules "2")) .empty = .ok whole ∧
      (ofOperators .standard).execute (bill (billRules "2 / 0")) .empty = .ok otherWhole ∧
      ∃ outcome, whole.outcome? "fee" = some outcome ∧
        otherWhole.outcome? "fee" = some outcome := by
  have valid : ∀ base ∈ ["2", "2 / 0"],
      (bill (billRules base)).validate.map (fun _ => ()) = .ok () := by decide +kernel
  rcases map_eq_ok.mp (valid "2" (by decide)) with ⟨graph, validBill, -⟩
  rcases map_eq_ok.mp (valid "2 / 0" (by decide)) with ⟨otherGraph, validOther, -⟩
  have same : (bill (billRules "2")).SameBut "base" (bill (billRules "2 / 0")) := by
    have kept : ∀ rule ∈ (bill (billRules "2")).rules.items,
        ∀ otherRule ∈ (bill (billRules "2 / 0")).rules.items, rule.name ≠ "base" →
          otherRule.name = rule.name → otherRule.expression = rule.expression := by
      decide +kernel
    refine ⟨by decide +kernel, ?_⟩
    intro name rule otherRule apart present presentOther
    rcases Roster.get?_eq_some.mp present with ⟨member, rfl⟩
    rcases Roster.get?_eq_some.mp presentOther with ⟨memberOther, same_name⟩
    exact kept rule member otherRule memberOther apart same_name
  rcases execute_sameBut (ofOperators .standard) .empty validBill validOther same with
    ⟨whole, otherWhole, executed, executedOther, untouched⟩
  refine ⟨whole, otherWhole, executed, executedOther, ?_⟩
  have member : (Rule.ofExpression "fee" "3 * 4").dependOn "base" ∈
      (bill (billRules "2")).rules.items := by decide +kernel
  apply untouched _ member (by decide)
  intro reached
  rcases Relation.TransGen.head'_iff.mp reached with ⟨id, mentions, -⟩
  exact absurd (mentions_bill mentions).1 (by decide)

end Evaluator
end Rulebook
