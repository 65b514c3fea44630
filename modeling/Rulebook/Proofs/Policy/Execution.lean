import Rulebook.Policy.Execution
import Rulebook.Proofs.Policy.Schedule

/-!
What a run of a policy comes to.

Each rule that is run adds one outcome, and to it belong at most one error and at most one result
that later rules can read. `Follows` and `Offers` say so of a run that has come some way.
-/

namespace Rulebook

/-- What the rules of `before` leave to be read: the values of those that have one. -/
def PolicyOutcome.Offers (whole : PolicyOutcome) (before : List String) (results : RuleResults) :
    Prop :=
  ∀ name value, results.lookup? name = some value ↔
    name ∈ before ∧ ∃ outcome, whole.outcome? name = some outcome ∧ outcome.value? = some value

def RuleOutcome.complaint? (outcome : RuleOutcome) : Option String :=
  outcome.error?.map fun error => "规则 '" ++ outcome.rule ++ "' 执行失败: " ++ error

/-- The outcome of running the rules of `order`, each with what those before it offer. -/
structure PolicyOutcome.Follows (whole : PolicyOutcome) (evaluator : Evaluator) (policy : Policy)
    (features : Features) (order : List String) : Prop where
  names : whole.order = order
  outcome : ∀ before name later, order = before ++ name :: later →
    ∃ rule results outcome, policy.rule? name = some rule ∧ whole.Offers before results ∧
      whole.outcome? name = some outcome ∧
      outcome.outcome = (evaluator.evaluateText ⟨features, results⟩ rule.expression).mapError
        Failure.message
  errors : whole.errors = whole.outcomes.items.filterMap RuleOutcome.complaint?

namespace RuleOutcome

theorem value?_eq_some {outcome : RuleOutcome} {value : Value} :
    outcome.value? = some value ↔ outcome.outcome = .ok value := by
  rw [value?]
  cases outcome.outcome with
  | ok found => simp
  | error text => simp

theorem error?_eq_some {outcome : RuleOutcome} {text : String} :
    outcome.error? = some text ↔ outcome.outcome = .error text := by
  rw [error?]
  cases outcome.outcome with
  | ok found => simp
  | error text => simp

theorem succeeded_iff {outcome : RuleOutcome} :
    outcome.succeeded = true ↔ outcome.error? = none := by
  rw [succeeded, value?, error?]
  cases outcome.outcome with
  | ok value => simp
  | error text => simp

end RuleOutcome

namespace PolicyOutcome

variable {whole : PolicyOutcome} {outcome : RuleOutcome}

theorem items_record (fresh : outcome.rule ∉ whole.order) :
    (whole.record outcome).outcomes.items = whole.outcomes.items ++ [outcome] :=
  Roster.items_put fresh

theorem order_record (fresh : outcome.rule ∉ whole.order) :
    (whole.record outcome).order = whole.order ++ [outcome.rule] := by
  rw [order, Roster.keys, items_record fresh, List.map_append]
  rfl

theorem outcome?_record (whole : PolicyOutcome) (outcome : RuleOutcome) (name : String) :
    (whole.record outcome).outcome? name =
      if outcome.rule = name then some outcome else whole.outcome? name :=
  Roster.get?_put whole.outcomes outcome name

theorem errors_record (whole : PolicyOutcome) (outcome : RuleOutcome) :
    (whole.record outcome).errors = whole.errors ++ outcome.complaint?.toList := rfl

theorem Offers.record {before : List String} {results : RuleResults}
    (offers : whole.Offers before results) (fresh : outcome.rule ∉ before) :
    (whole.record outcome).Offers before results := by
  intro name value
  rw [offers name value, outcome?_record]
  constructor
  · intro offered
    have other : outcome.rule ≠ name := fun same => fresh (same ▸ offered.1)
    rw [if_neg other]
    exact offered
  · intro offered
    have other : outcome.rule ≠ name := fun same => fresh (same ▸ offered.1)
    rw [if_neg other] at offered
    exact offered

end PolicyOutcome

def Run.record (run : Run) (outcome : RuleOutcome) : Run where
  whole := run.whole.record outcome
  results :=
    match outcome.value? with
    | some value => Directory.insert run.results outcome.rule value
    | none => run.results

structure Run.Through (run : Run) (evaluator : Evaluator) (policy : Policy) (features : Features)
    (done : List String) : Prop where
  follows : run.whole.Follows evaluator policy features done
  offers : run.whole.Offers done run.results

namespace Run

variable {evaluator : Evaluator} {policy : Policy} {features : Features}

theorem offers_record {run : Run} {done : List String} {outcome : RuleOutcome}
    (offers : run.whole.Offers done run.results) (fresh : outcome.rule ∉ done) :
    (run.record outcome).whole.Offers (done ++ [outcome.rule]) (run.record outcome).results := by
  intro name value
  rw [record, PolicyOutcome.outcome?_record, List.mem_append, List.mem_singleton]
  by_cases same : outcome.rule = name
  · subst same
    have unread : run.results.lookup? outcome.rule ≠ some value := by
      intro read
      exact fresh ((offers outcome.rule value).mp read).1
    cases found : outcome.value? with
    | none => simp [found, unread]
    | some own => simp [found, Directory.lookup?_insert]
  · rw [if_neg same]
    have kept : (run.record outcome).results.lookup? name = run.results.lookup? name := by
      rw [record]
      cases outcome.value? with
      | none => rfl
      | some own => exact (Directory.lookup?_insert _ _ own name).trans (if_neg same)
    rw [record] at kept
    rw [kept, offers name value]
    simp [Ne.symm same]

theorem follows_record {run : Run} {done : List String} {rule : Rule} {outcome : RuleOutcome}
    (through : run.Through evaluator policy features done) (fresh : outcome.rule ∉ done)
    (present : policy.rule? outcome.rule = some rule)
    (evaluated : outcome.outcome =
      (evaluator.evaluateText ⟨features, run.results⟩ rule.expression).mapError Failure.message) :
    (run.record outcome).whole.Follows evaluator policy features (done ++ [outcome.rule]) := by
  have absent : outcome.rule ∉ run.whole.order := by
    rw [through.follows.names]
    exact fresh
  constructor
  · rw [record, PolicyOutcome.order_record absent, through.follows.names]
  · intro before name later split
    rcases split_concat split with ⟨rfl, rfl⟩ | ⟨rest, rfl⟩
    · refine ⟨rule, run.results, outcome, present, through.offers.record fresh, ?_, evaluated⟩
      exact (PolicyOutcome.outcome?_record _ _ _).trans (if_pos rfl)
    · rcases through.follows.outcome before name rest rfl with
        ⟨declared, results, old, found, offered, recorded, ran⟩
      rw [List.mem_append, not_or] at fresh
      have apart : outcome.rule ≠ name := fun same => fresh.2 (same ▸ List.mem_cons_self)
      refine ⟨declared, results, old, found, offered.record fresh.1, ?_, ran⟩
      rw [record, PolicyOutcome.outcome?_record, if_neg apart]
      exact recorded
  · rw [record, PolicyOutcome.errors_record, PolicyOutcome.items_record absent,
      List.filterMap_append, through.follows.errors, List.filterMap_cons, List.filterMap_nil]
    cases outcome.complaint? with
    | none => rfl
    | some complaint => rfl

theorem advance_eq {run : Run} {name : String} {rule : Rule}
    (present : policy.rule? name = some rule) :
    evaluator.advance policy features run name =
      run.record (evaluator.runRule ⟨features, run.results⟩ rule) := by
  have at_name : rule.name = name := (Roster.get?_eq_some.mp present).2
  subst at_name
  simp only [Evaluator.advance, present]
  rfl

theorem Through.advance {run : Run} {done : List String} {name : String}
    (through : run.Through evaluator policy features done) (fresh : name ∉ done)
    (declared : name ∈ policy.rules.keys) :
    (evaluator.advance policy features run name).Through evaluator policy features
      (done ++ [name]) := by
  rcases Option.isSome_iff_exists.mp (Roster.contains_iff.mpr declared) with ⟨rule, present⟩
  have at_name : rule.name = name := (Roster.get?_eq_some.mp present).2
  subst at_name
  rw [advance_eq present]
  exact ⟨follows_record through fresh present rfl, offers_record through.offers fresh⟩

theorem through_foldl {run : Run} {done order : List String}
    (through : run.Through evaluator policy features done) (distinct : (done ++ order).Nodup)
    (declared : ∀ name ∈ order, name ∈ policy.rules.keys) :
    (order.foldl (evaluator.advance policy features) run).Through evaluator policy features
      (done ++ order) := by
  induction order generalizing run done with
  | nil =>
      rw [List.append_nil]
      exact through
  | cons name rest ih =>
      rw [List.append_cons] at distinct ⊢
      have fresh : name ∉ done := by
        intro member
        have apart := (List.nodup_append.mp (List.nodup_append.mp distinct).1).2.2
        exact apart name member name (List.mem_singleton_self name) rfl
      apply ih (through.advance fresh (declared name List.mem_cons_self)) distinct
      intro other member
      exact declared other (List.mem_cons_of_mem name member)

theorem through_start (evaluator : Evaluator) (policy : Policy) (features : Features) :
    Run.Through ⟨.start policy.name policy.version, Roster.empty _⟩ evaluator policy features
      [] where
  follows := {
    names := rfl
    outcome := by simp
    errors := rfl }
  offers := by simp [PolicyOutcome.Offers]

end Run

namespace PolicyOutcome.Follows

variable {evaluator : Evaluator} {policy : Policy} {features : Features} {whole : PolicyOutcome}
  {order : List String} {outcome : RuleOutcome}

theorem ran (follows : whole.Follows evaluator policy features order)
    {before later : List String} {name : String} (split : order = before ++ name :: later) :
    ∃ rule results, policy.rule? name = some rule ∧ whole.Offers before results ∧
      whole.outcome? name = some (evaluator.runRule ⟨features, results⟩ rule) := by
  rcases follows.outcome before name later split with
    ⟨rule, results, ⟨of_rule, result⟩, present, offers, recorded, evaluated⟩
  have at_name : rule.name = name := (Roster.get?_eq_some.mp present).2
  have same : of_rule = name := (Roster.get?_eq_some.mp recorded).2
  refine ⟨rule, results, present, offers, ?_⟩
  rw [recorded, Evaluator.runRule, same, at_name, ← evaluated]

theorem error_ne_empty (follows : whole.Follows evaluator policy features order)
    (member : outcome ∈ whole.outcomes.items) {text : String}
    (failed : outcome.error? = some text) : text ≠ "" := by
  have present : outcome.rule ∈ order := follows.names ▸ List.mem_map_of_mem member
  rcases List.mem_iff_append.mp present with ⟨before, later, split⟩
  rcases follows.outcome before outcome.rule later split with
    ⟨rule, results, found, -, -, recorded, evaluated⟩
  have same : whole.outcome? outcome.rule = some outcome :=
    Roster.get?_eq_some.mpr ⟨member, rfl⟩
  rw [same, Option.some.injEq] at recorded
  rw [RuleOutcome.error?_eq_some, recorded, evaluated] at failed
  cases ran : evaluator.evaluateText ⟨features, results⟩ rule.expression with
  | ok value =>
      rw [ran] at failed
      contradiction
  | error failure =>
      rw [ran] at failed
      cases failed
      exact failure.message_ne_empty

theorem value_or_error (follows : whole.Follows evaluator policy features order)
    (member : outcome ∈ whole.outcomes.items) :
    (outcome.succeeded = true ∧ (∃ value, outcome.value? = some value) ∧ outcome.error? = none) ∨
      (outcome.succeeded = false ∧ outcome.value? = none ∧
        ∃ text, outcome.error? = some text ∧ text ≠ "") := by
  cases ran : outcome.outcome with
  | ok value =>
      left
      have valued := RuleOutcome.value?_eq_some.mpr ran
      refine ⟨?_, ⟨value, valued⟩, ?_⟩
      · rw [RuleOutcome.succeeded, valued, Option.isSome_some]
      · rw [RuleOutcome.error?, ran]
  | error text =>
      right
      have failed := RuleOutcome.error?_eq_some.mpr ran
      have unvalued : outcome.value? = none := by rw [RuleOutcome.value?, ran]
      refine ⟨?_, unvalued, text, failed, follows.error_ne_empty member failed⟩
      rw [RuleOutcome.succeeded, unvalued, Option.isSome_none]

theorem errors_eq_nil (follows : whole.Follows evaluator policy features order) :
    whole.errors = [] ↔ ∀ outcome ∈ whole.outcomes.items, outcome.succeeded = true := by
  rw [follows.errors, List.filterMap_eq_nil_iff]
  apply forall₂_congr
  intro outcome member
  rw [RuleOutcome.complaint?, Option.map_eq_none_iff, RuleOutcome.succeeded_iff]

theorem hasError_eq_false (follows : whole.Follows evaluator policy features order)
    (member : outcome ∈ whole.outcomes.items) :
    outcome.hasError = false ↔ outcome.succeeded = true := by
  rw [RuleOutcome.hasError, RuleOutcome.succeeded_iff]
  cases failed : outcome.error? with
  | none => simp
  | some text => simp [follows.error_ne_empty member failed]

end PolicyOutcome.Follows

namespace Policy

theorem schedule_ordered {policy : Policy} {order : List String}
    (scheduled : policy.schedule = .ok order) :
    order.Perm policy.rules.keys ∧ (RuleGraph.ofPolicy policy).Ordered order := by
  rcases bind_eq_ok.mp scheduled with ⟨graph, valid, ordered⟩
  rcases order_of_validate valid with ⟨found, same, perm, sorted⟩
  rw [ordered, Except.ok.injEq] at same
  subst same
  exact ⟨perm, (validate_eq_ok.mp valid).1 ▸ sorted⟩

theorem schedule_ok {policy : Policy} {order : List String}
    (scheduled : policy.schedule = .ok order) :
    order.Nodup ∧ ∀ name, name ∈ order ↔ name ∈ policy.rules.keys := by
  rcases schedule_ordered scheduled with ⟨perm, sorted⟩
  exact ⟨sorted.distinct, fun _ => perm.mem_iff⟩

theorem schedule_of_validate {policy : Policy} {graph : RuleGraph}
    (valid : policy.validate = .ok graph) : ∃ order, policy.schedule = .ok order := by
  rcases order_of_validate valid with ⟨order, ordered, -⟩
  exact ⟨order, by rw [schedule, valid]; exact ordered⟩

end Policy

namespace Evaluator

theorem execute_of_schedule (evaluator : Evaluator) {policy : Policy} (features : Features)
    {order : List String} (scheduled : policy.schedule = .ok order) :
    ∃ whole, evaluator.execute policy features = .ok whole ∧
      whole.Follows evaluator policy features order := by
  rcases Policy.schedule_ok scheduled with ⟨distinct, every⟩
  have start := Run.through_start evaluator policy features
  have through := Run.through_foldl start distinct fun name => (every name).mp
  exact ⟨_, by rw [execute, scheduled]; rfl, through.follows⟩

theorem follows_of_execute {evaluator : Evaluator} {policy : Policy} {features : Features}
    {whole : PolicyOutcome} (executed : evaluator.execute policy features = .ok whole) :
    ∃ order, policy.schedule = .ok order ∧ whole.Follows evaluator policy features order := by
  rcases bind_eq_ok.mp executed with ⟨order, scheduled, -⟩
  rcases execute_of_schedule evaluator features scheduled with ⟨same, again, follows⟩
  rw [executed, Except.ok.injEq] at again
  exact ⟨order, scheduled, again ▸ follows⟩

/-- A policy is run just if it has an order, and then all of its rules are run in that order, each
with the values of those before it. A rule that fails adds one error and offers nothing. -/
theorem execute_runs_each_rule (evaluator : Evaluator) (policy : Policy) (features : Features) :
    (∀ failure, evaluator.execute policy features = .error failure ↔
      policy.schedule = .error failure) ∧
    (∀ failure, evaluator.execute policy features = .error failure →
      (∃ fault, failure = .invalidPolicy fault) ∨ ∃ route, failure = .circularDependency route) ∧
    ∀ order, policy.schedule = .ok order →
      ∃ whole, evaluator.execute policy features = .ok whole ∧
        whole.Follows evaluator policy features order ∧ order.Nodup ∧
        (∀ name, name ∈ order ↔ name ∈ policy.rules.keys) ∧
        (∀ outcome ∈ whole.outcomes.items,
          (outcome.succeeded = true ∧ (∃ value, outcome.value? = some value) ∧
            outcome.error? = none) ∨
          (outcome.succeeded = false ∧ outcome.value? = none ∧
            ∃ text, outcome.error? = some text ∧ text ≠ "")) ∧
        (whole.succeeded = true ↔ whole.errors = []) ∧
        (whole.succeeded = true ↔ ∀ outcome ∈ whole.outcomes.items, outcome.succeeded = true) ∧
        (whole.succeeded = true ↔ ∀ outcome ∈ whole.outcomes.items, outcome.hasError = false) := by
  have refused : ∀ failure, evaluator.execute policy features = .error failure ↔
      policy.schedule = .error failure := by
    intro failure
    rw [execute, bind_eq_error]
    constructor
    · intro failed
      rcases failed with unordered | ⟨order, -, impossible⟩
      · exact unordered
      · contradiction
    · exact .inl
  refine ⟨refused, ?_, ?_⟩
  · intro failure failed
    have invalid := Policy.schedule_eq_error.mp ((refused failure).mp failed)
    rcases Policy.validate_error invalid with ⟨fault, same, -⟩ | circular
    · exact .inl ⟨fault, same⟩
    · exact .inr circular
  · intro order scheduled
    rcases Policy.schedule_ok scheduled with ⟨distinct, every⟩
    rcases execute_of_schedule evaluator features scheduled with
      ⟨whole, executed, follows⟩
    have succeeded : whole.succeeded = true ↔ whole.errors = [] := by
      rw [PolicyOutcome.succeeded, PolicyOutcome.hasErrors, Bool.not_not, List.isEmpty_iff]
    have each := succeeded.trans follows.errors_eq_nil
    refine ⟨whole, executed, follows, distinct, every, fun _ => follows.value_or_error, succeeded,
      each, each.trans ?_⟩
    apply forall₂_congr
    intro outcome member
    exact (follows.hasError_eq_false member).symm

end Evaluator
end Rulebook
