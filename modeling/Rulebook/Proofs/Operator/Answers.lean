import Mathlib.Data.List.Sort
import Mathlib.Data.Set.Card
import Mathlib.Data.String.Basic
import Rulebook.Proofs.Operator

namespace Rulebook

theorem insertName_ascending (name : String) {names : List String}
    (ascending : names.Pairwise (· < ·)) : (insertName name names).Pairwise (· < ·) := by
  induction names with
  | nil => exact List.pairwise_singleton _ _
  | cons first rest ih =>
      obtain ⟨least, rest_ascending⟩ := List.pairwise_cons.mp ascending
      rw [insertName]
      split
      · rename_i before
        refine List.pairwise_cons.mpr ⟨fun other member => ?_, ascending⟩
        rcases List.mem_cons.mp member with rfl | later
        · exact before
        · exact before.trans (least other later)
      · rename_i not_before
        split
        · exact ascending
        · rename_i distinct
          refine List.pairwise_cons.mpr ⟨fun other member => ?_, ih rest_ascending⟩
          rcases mem_insertName.mp member with rfl | later
          · exact lt_of_le_of_ne (not_lt.mp not_before) (Ne.symm distinct)
          · exact least other later

theorem sortedNames_ascending (names : List String) : (sortedNames names).Pairwise (· < ·) := by
  induction names with
  | nil => exact List.Pairwise.nil
  | cons name rest ih => exact insertName_ascending name ih

def Operator.Takes (operator : Operator) : Arity → Prop
  | .unary => ∃ run, operator.operation = .unary run ∧ operator.applyUnary = run
  | .binary => ∃ run, operator.operation = .binary run ∧ operator.applyBinary = run

theorem Operator.takes_arity (operator : Operator) : operator.Takes operator.arity := by
  rcases operator with ⟨symbol, precedence, category, run | run⟩
  · exact ⟨run, rfl, rfl⟩
  · exact ⟨run, rfl, rfl⟩

namespace OperatorSet

structure Answers (operators : OperatorSet) (bound : String × Arity → Option Operator) : Prop where
  lookup : ∀ symbol arity, operators.lookup symbol arity =
    match bound (symbol, arity) with
    | some operator => .ok operator
    | none => .error (.unsupportedOperator symbol arity.name)
  takes : ∀ symbol arity operator, bound (symbol, arity) = some operator →
    operator.symbol = symbol ∧ operator.Takes arity
  size : {key | bound key ≠ none}.encard = operators.size
  knows : ∀ symbol, operators.knows symbol = true ↔ ∃ arity, bound (symbol, arity) ≠ none
  symbols_ascending : operators.symbols.Pairwise (· < ·)
  mem_symbols : ∀ symbol, symbol ∈ operators.symbols ↔ ∃ arity, bound (symbol, arity) ≠ none
  category_nodup : ∀ category, (operators.ofCategory category).Nodup
  category_ascending : ∀ category,
    (operators.ofCategory category).Pairwise fun first second => first.symbol ≤ second.symbol
  mem_category : ∀ category operator, operator ∈ operators.ofCategory category ↔
    operator.category = category ∧ bound operator.key = some operator

variable (operators : OperatorSet)

theorem encard_keys : {key | operators.get? key ≠ none}.encard = operators.size := by
  have keys : {key | operators.get? key ≠ none} = (operators.keys.toFinset : Set _) := by
    ext key
    rw [Set.mem_ofPred_eq, Roster.get?_ne_none, Finset.mem_coe, List.mem_toFinset]
  have distinct : operators.keys.Nodup := operators.nodup
  rw [keys, Set.encard_coe_eq_coe_finsetCard, List.toFinset_card_of_nodup distinct, Roster.keys,
    List.length_map, Roster.size]

theorem knows_iff (symbol : String) :
    operators.knows symbol = true ↔ ∃ arity, operators.get? (symbol, arity) ≠ none := by
  simp only [knows, lookup?, Bool.or_eq_true, Option.isSome_iff_ne_none]
  constructor
  · rintro (unary | binary)
    · exact ⟨.unary, unary⟩
    · exact ⟨.binary, binary⟩
  · rintro ⟨arity, held⟩
    cases arity with
    | unary => exact .inl held
    | binary => exact .inr held

theorem mem_symbols_iff (symbol : String) :
    symbol ∈ operators.symbols ↔ ∃ arity, operators.get? (symbol, arity) ≠ none := by
  rw [symbols, mem_sortedNames, List.mem_map]
  simp only [Roster.get?_ne_none]
  constructor
  · rintro ⟨operator, held, rfl⟩
    exact ⟨operator.arity, List.mem_map_of_mem held⟩
  · rintro ⟨arity, member⟩
    obtain ⟨operator, held, same⟩ := List.mem_map.mp member
    exact ⟨operator, held, congrArg Prod.fst same⟩

theorem perm_by_arity :
    ((operators.items.filter fun operator => operator.arity = .binary) ++
      operators.items.filter fun operator => operator.arity = .unary).Perm operators.items := by
  have other : (fun operator : Operator => decide (operator.arity = .unary)) =
      fun operator => !decide (operator.arity = .binary) := by
    funext operator
    cases operator.arity <;> rfl
  rw [other]
  exact List.filter_append_perm _ operators.items

theorem ofCategory_perm (category : Category) :
    (operators.ofCategory category).Perm
      (operators.items.filter fun operator => operator.category = category) :=
  (List.mergeSort_perm _ _).trans (operators.perm_by_arity.filter _)

theorem ofCategory_ascending (category : Category) :
    (operators.ofCategory category).Pairwise fun first second => first.symbol ≤ second.symbol :=
  List.pairwise_mergeSort' (Order.Preimage Operator.symbol (· ≤ ·)) _

/-- The views of a set all follow from what is under each symbol and arity. -/
theorem answers_of_get? {operators : OperatorSet} {bound : String × Arity → Option Operator}
    (same : ∀ key, operators.get? key = bound key) : operators.Answers bound := by
  obtain rfl : operators.get? = bound := funext same
  exact {
    lookup := fun symbol arity => rfl
    takes := fun symbol arity operator found => by
      obtain ⟨rfl, rfl⟩ := key_of_lookup? found
      exact ⟨rfl, operator.takes_arity⟩
    size := operators.encard_keys
    knows := operators.knows_iff
    symbols_ascending := sortedNames_ascending _
    mem_symbols := operators.mem_symbols_iff
    category_nodup := fun category =>
      (operators.ofCategory_perm category).nodup_iff.mpr
        ((List.Nodup.of_map Operator.key operators.nodup).filter _)
    category_ascending := operators.ofCategory_ascending
    mem_category := fun category operator => by
      rw [(operators.ofCategory_perm category).mem_iff, List.mem_filter, Roster.get?_eq_some,
        and_comm]
      simp }

end OperatorSet
end Rulebook
