import Rulebook.Proofs.Evaluator.Finite
import Rulebook.Proofs.Policy.Execution

namespace Rulebook

theorem exists_first {holds : String → Prop} {names : List String} {name : String}
    (member : name ∈ names) (held : holds name) :
    ∃ before first later, names = before ++ first :: later ∧ name ∈ first :: later ∧
      holds first ∧ ∀ earlier ∈ before, ¬ holds earlier := by
  induction names with
  | nil => contradiction
  | cons head rest ih =>
      by_cases here : holds head
      · exact ⟨[], head, rest, rfl, member, here, List.forall_mem_nil _⟩
      · have further : name ∈ rest := by
          rcases List.mem_cons.mp member with rfl | later
          · contradiction
          · exact later
        obtain ⟨before, first, later, rfl, among, found, none_before⟩ := ih further
        exact ⟨head :: before, first, later, rfl, among, found,
          List.forall_mem_cons.mpr ⟨here, none_before⟩⟩

def PolicyOutcome.Unbounded (whole : PolicyOutcome) (name : String) : Prop :=
  ∃ outcome value, whole.outcome? name = some outcome ∧ outcome.value? = some value ∧
    ¬ value.Finite

namespace Evaluator

theorem bounded_of_finite {features : Features} {results : RuleResults}
    (finite : features.data.Finite)
    (earlier : ∀ id value, results.lookup? id = some value → value.Finite) :
    Bounded ⟨features, results⟩ where
  names := by
    intro id value resolved
    cases found : results.lookup? id with
    | some result =>
        simp only [Scope.resolve, found] at resolved
        obtain rfl := Except.ok.inj resolved
        exact earlier id _ found
    | none =>
        obtain ⟨node, held, scalar⟩ := (Scope.resolve_eq_ok found).mp resolved
        exact (finite.get? held).value scalar
  paths := fun _ _ => Features.finite_value finite

/-- The result of a rule comes from a source in it or in a rule before it, which reads finite values
only. -/
def Traced (limit : Nat) (policy : Policy) (features : Features) (whole : PolicyOutcome)
    (name : String) : Prop :=
  ∃ before first later rule results compiled, whole.order = before ++ first :: later ∧
    name ∈ first :: later ∧ policy.rule? first = some rule ∧ whole.Offers before results ∧
    Bounded ⟨features, results⟩ ∧ CompiledExpr.compile limit rule.expression = .ok compiled ∧
    ∃ (context : Expr.Context) (part : Expr), compiled.tree = context.fill part ∧
      (ofDepth .standard limit).Source ⟨features, results⟩ part

theorem traced_of_unbounded {limit : Nat} {policy : Policy} {features : Features}
    (finite : features.data.Finite) {whole : PolicyOutcome}
    (executed : (ofDepth .standard limit).execute policy features = .ok whole) {name : String}
    (unbounded : whole.Unbounded name) : Traced limit policy features whole name := by
  obtain ⟨order, -, follows⟩ := follows_of_execute executed
  have member : name ∈ order := by
    obtain ⟨outcome, value, recorded, -⟩ := unbounded
    have held := Roster.get?_eq_some.mp recorded
    rw [← follows.names, ← held.2]
    exact List.mem_map_of_mem held.1
  obtain ⟨before, first, later, split, among, found, none_before⟩ := exists_first member unbounded
  obtain ⟨rule, results, present, offers, ran⟩ := follows.ran split
  obtain ⟨outcome, value, recorded, valued, infinite⟩ := found
  have bounded : Bounded ⟨features, results⟩ := by
    apply bounded_of_finite finite
    intro id value held
    obtain ⟨earlier, outcome, recorded, valued⟩ := (offers id value).mp held
    by_contra unbounded
    exact none_before id earlier ⟨outcome, value, recorded, valued, unbounded⟩
  rw [ran, Option.some.injEq] at recorded
  subst recorded
  rw [RuleOutcome.value?_eq_some, runRule, mapError_eq_ok] at valued
  obtain ⟨compiled, compiles, evaluated⟩ := bind_eq_ok.mp valued
  rw [compile_ofDepth] at compiles
  rw [evaluate_of_compile compiles] at evaluated
  have source := exists_source rfl bounded ⟨value, evaluated, infinite⟩
  exact ⟨before, first, later, rule, results, compiled, follows.names.trans split, among, present,
    offers, bounded, compiles, source⟩

/-- Features that are read from a text give finite values, by path and by name, and so do all
operators but sums, differences and products: a quotient or a remainder that would not be finite is
an error of arithmetic. A result that is not finite comes from a literal that is not, or from a sum,
a difference or a product of finite numbers. -/
theorem unbounded_result_traced {limit : Nat} {policy : Policy} {text : String} {data : Json}
    (read : Json.ofText text = .ok data) {whole : PolicyOutcome}
    (executed : (ofDepth .standard limit).execute policy ⟨data⟩ = .ok whole) :
    Bounded ⟨⟨data⟩, .empty _⟩ ∧
    (∀ symbol left right value, (symbol, Arity.binary) ∉ Operator.unchecked →
      (ofDepth .standard limit).applyBinary symbol left right = .ok value → value.Finite) ∧
    (∀ left right a b, Value.doubles "/" left right = .ok (a, b) → (a.div b).isFinite = false →
      ∃ fault, Value.divide left right = .error (.arithmetic "/" fault)) ∧
    (∀ left right a b, Value.doubles "%" left right = .ok (a, b) →
      left.asInteger? = none ∨ right.asInteger? = none → (a.rem b).isFinite = false →
        ∃ fault, Value.modulo left right = .error (.arithmetic "%" fault)) ∧
    ∀ name, whole.Unbounded name → Traced limit policy ⟨data⟩ whole name := by
  have finite : data.Finite := Json.finite_ofText read
  refine ⟨bounded_of_finite finite ?_, ?_, ?_, ?_, ?_⟩
  · intro id value held
    rw [Directory.lookup?_empty] at held
    contradiction
  · intro symbol left right value checked
    exact applyBinary_finite rfl checked
  · intro left right a b
    exact Value.divide_of_not_finite
  · intro left right a b
    exact Value.modulo_of_not_finite
  · intro name
    exact traced_of_unbounded finite executed

def hugeFeature : String := "\x7b\"x\":1e308\x7d"

def scaledFeature : Policy :=
  (Policy.named "scale" "1.0").declare (.ofExpression "scaled" "x * 10")

theorem scaledFeature_run :
    ∃ data whole, Json.ofText hugeFeature = .ok data ∧
      (ofDepth .standard 256).execute scaledFeature ⟨data⟩ = .ok whole ∧
      ∃ outcome, whole.outcome? "scaled" = some outcome ∧
        outcome.value? = some (.double (.infinite false)) := by
  have ran : (Json.ofText hugeFeature).map (fun data =>
      ((ofDepth .standard 256).execute scaledFeature ⟨data⟩).map fun whole =>
        (whole.outcome? "scaled").bind RuleOutcome.value?) =
      .ok (.ok (some (.double (.infinite false)))) := by
    decide +kernel
  obtain ⟨data, read, mapped⟩ := map_eq_ok.mp ran
  obtain ⟨whole, executed, valued⟩ := map_eq_ok.mp mapped
  exact ⟨data, whole, read, executed, Option.bind_eq_some_iff.mp valued⟩

theorem scaledFeature_traced :
    ∃ data whole, Json.ofText hugeFeature = .ok data ∧
      (ofDepth .standard 256).execute scaledFeature ⟨data⟩ = .ok whole ∧
      whole.Unbounded "scaled" ∧ Traced 256 scaledFeature ⟨data⟩ whole "scaled" := by
  obtain ⟨data, whole, read, executed, outcome, recorded, valued⟩ := scaledFeature_run
  have unbounded : whole.Unbounded "scaled" := ⟨outcome, _, recorded, valued, Bool.false_ne_true⟩
  have traced := (unbounded_result_traced read executed).2.2.2.2 "scaled" unbounded
  exact ⟨data, whole, read, executed, unbounded, traced⟩

/-- The product of a finite feature and ten is infinite, and the rule succeeds with it. A number
written with 310 digits before the point is infinite as well. -/
theorem scaledFeature_infinite :
    (∃ data whole, Json.ofText hugeFeature = .ok data ∧
      (ofDepth .standard 256).execute scaledFeature ⟨data⟩ = .ok whole ∧
      ∃ outcome, whole.outcome? "scaled" = some outcome ∧ outcome.succeeded = true ∧
        outcome.value? = some (.double (.infinite false))) ∧
    Parser.numberValue? (String.ofList (List.replicate 310 '9' ++ ['.', '0'])) =
      some (.double (.infinite false)) := by
  constructor
  · obtain ⟨data, whole, read, executed, outcome, recorded, valued⟩ := scaledFeature_run
    have succeeded : outcome.succeeded = true := by
      rw [RuleOutcome.succeeded, valued]
      rfl
    exact ⟨data, whole, read, executed, outcome, recorded, succeeded, valued⟩
  · rw [Parser.numberValue?, String.toList_ofList]
    decide +kernel

end Evaluator
end Rulebook
