import Rulebook.Proofs.Evaluator.Depth
import Rulebook.Proofs.Expr.Printing
import Rulebook.Proofs.Features
import Rulebook.Proofs.Features.Location

namespace Rulebook

namespace Json.Hop

def words (hop : Hop) : List String :=
  match hop.index with
  | none => [".", hop.key]
  | some position => [".", hop.key, "[", position.repr, "]"]

theorem exists_pathStep (hop : Hop) (named : IsName hop.key) :
    ∃ step : PathStep, step.words = hop.words ∧ step.render = "." ++ hop.segment.raw := by
  obtain ⟨key, index, nonempty, plain, narrow⟩ := hop
  cases index with
  | none =>
      refine ⟨⟨key, [], named, nofun⟩, rfl, ?_⟩
      simp [PathStep.render, PathStep.renderSubscripts, segment, Path.Segment.renderIndex]
  | some position =>
      have numbered : ∀ digits ∈ [position.repr],
          digits ≠ "" ∧ ∀ c ∈ digits.toList, c.isDigit = true := by
        intro digits single
        obtain rfl := List.mem_singleton.mp single
        have written := digits_repr position
        exact ⟨fun empty => written.1 (String.toList_eq_nil_iff.mpr empty), written.2⟩
      refine ⟨⟨key, [position.repr], named, numbered⟩, rfl, ?_⟩
      simp [PathStep.render, PathStep.renderSubscripts, segment, Path.Segment.renderIndex,
        String.append_assoc]

theorem exists_pathSteps {location : List Hop} (nonempty : location ≠ [])
    (named : ∀ hop ∈ location, IsName hop.key) :
    ∃ steps : List PathStep, steps ≠ [] ∧
      steps.flatMap PathStep.words = location.flatMap words ∧
      PathStep.renderAll steps = "." ++ renderAll location := by
  induction location with
  | nil => contradiction
  | cons hop rest ih =>
      obtain ⟨step, step_words, step_text⟩ := hop.exists_pathStep (named hop List.mem_cons_self)
      cases rest with
      | nil =>
          refine ⟨[step], List.cons_ne_nil step [], ?_, ?_⟩
          · simp [step_words]
          · simp [PathStep.renderAll, step_text, renderAll, Path.renderSegments]
      | cons second later =>
          obtain ⟨steps, -, further_words, further_text⟩ := ih (List.cons_ne_nil second later)
            fun other member => named other (List.mem_cons_of_mem hop member)
          refine ⟨step :: steps, List.cons_ne_nil step steps, ?_, ?_⟩
          · rw [List.flatMap_cons, step_words, further_words]
            rfl
          · calc PathStep.renderAll (step :: steps)
              _ = step.render ++ PathStep.renderAll steps := by
                simp [PathStep.renderAll, String.join_cons]
              _ = "." ++ hop.segment.raw ++ ("." ++ renderAll (second :: later)) := by
                rw [step_text, further_text]
              _ = "." ++ renderAll (hop :: second :: later) := by
                simp [renderAll, Path.renderSegments, String.intercalate_cons_cons,
                  String.append_assoc]

end Json.Hop

theorem Value.ofJson?_eq_none {node : Json} :
    ofJson? node = none ↔ (∃ items, node = .array items) ∨ ∃ entries, node = .object entries := by
  cases node <;> simp [ofJson?]

theorem Features.value_of_find {features : Features} {path : String} {node : Json}
    (found : features.find path = .ok (some node)) :
    features.value path =
      match Value.ofJson? node with
      | some value => .ok value
      | none => .error (.invalidPath path .container) := by
  rw [value, found]
  rfl

namespace Evaluator

open Token (Cuts One Spaced)

variable {evaluator : Evaluator} {scope : Scope}

theorem evaluate_leaf (evaluator : Evaluator) (scope : Scope) :
    (∀ id, evaluator.evaluate scope (.name id) = located (.name id) (scope.resolve id)) ∧
      ∀ path, evaluator.evaluate scope (.feature path) =
        located (.feature path) (scope.features.value path) := by
  have shallow : ¬ evaluator.depth < 1 := Nat.not_lt.mpr evaluator.depth_pos
  exact ⟨fun id => if_neg shallow, fun path => if_neg shallow⟩

theorem evaluateText_of_cuts {tree : Expr} {text : String}
    (cuts : Cuts text.toList [] tree.Reads) (fits : tree.height ≤ evaluator.depth) :
    evaluator.evaluateText scope text = evaluator.evaluate scope tree := by
  have limit : tree.height ≤ max 1 evaluator.depth :=
    Nat.le_trans fits (Nat.le_max_right 1 evaluator.depth)
  exact evaluateText_of_compile (Expr.compile_of_cuts cuts limit).2

theorem evaluateText_feature {location : List Json.Hop} (nonempty : location ≠ [])
    (named : ∀ hop ∈ location, IsName hop.key) {text : String}
    (spaced : Spaced (featureRoot :: location.flatMap Json.Hop.words) text.toList) :
    evaluator.evaluateText scope text =
      evaluator.evaluate scope
        (.feature (featureRoot ++ "." ++ Json.Hop.renderAll location)) := by
  obtain ⟨steps, some_step, steps_words, steps_text⟩ :=
    Json.Hop.exists_pathSteps nonempty named
  rw [← steps_words] at spaced
  have cuts := Expr.cuts_feature some_step spaced Token.apart_nil
  rw [steps_text, ← String.append_assoc] at cuts
  exact evaluateText_of_cuts cuts evaluator.depth_pos

theorem evaluateText_name {id : String} (named : IsName id) {text : String}
    (spaced : Spaced [id] text.toList) :
    evaluator.evaluateText scope text = evaluator.evaluate scope (.name id) :=
  evaluateText_of_cuts (Expr.cuts_name named spaced Token.apart_nil) evaluator.depth_pos

/-- The value at a location, under names, of which each has one subscript at most, is what an
expression reads there. A container has no value, and the error names the path once. A name that no
rule has a result under reads the entry of that name. -/
theorem location_readable (evaluator : Evaluator) (scope : Scope) {location : List Json.Hop}
    (nonempty : location ≠ []) (named : ∀ hop ∈ location, IsName hop.key) {node : Json}
    (there : scope.features.data.at? location = some node) :
    (∀ text : String,
      Spaced (featureRoot :: location.flatMap Json.Hop.words) text.toList →
      evaluator.evaluateText scope text =
        let path := featureRoot ++ "." ++ Json.Hop.renderAll location
        match Value.ofJson? node with
        | some value => .ok value
        | none => .error (.evaluation path (.invalidPath path .container))) ∧
    (∀ hop : Json.Hop, location = [hop] → hop.index = none →
      scope.results.lookup? hop.key = none →
      ∀ text : String, Spaced [hop.key] text.toList →
      evaluator.evaluateText scope text =
        match Value.ofJson? node with
        | some value => .ok value
        | none => .error (.evaluation hop.key (.invalidPath hop.key .namedContainer))) ∧
    (Value.ofJson? node = none ↔
      (∃ items, node = .array items) ∨ ∃ entries, node = .object entries) := by
  refine ⟨?_, ?_, Value.ofJson?_eq_none⟩
  · intro text spaced
    have found := (Features.find_location nonempty).mpr there
    rw [evaluateText_feature nonempty named spaced, (evaluate_leaf evaluator scope).2,
      Features.value_of_find found]
    cases Value.ofJson? node <;> rfl
  · intro hop single plain absent text spaced
    subst single
    have entry : scope.features.data.get? hop.key = some node := by
      simpa [Json.at?, Json.child?, plain] using there
    rw [evaluateText_name (named hop List.mem_cons_self) spaced, (evaluate_leaf evaluator scope).1,
      Scope.resolve_eq, absent, entry, Option.map_some]
    cases Value.ofJson? node <;> rfl

def shelf : Scope where
  features :=
    ⟨.object [("featureMap", .null), ("items", .array [.object [("price", .integer 250)]])]⟩

def shelfRoot : List Json.Hop := [⟨featureRoot, none, by decide, by simp [featureRoot],
  Json.Hop.narrow_none⟩]

theorem shelf_readable :
    (shelf.features.data.at? Features.firstPrice = some (.integer 250) ∧
      (∀ hop ∈ Features.firstPrice, IsName hop.key) ∧
      (default : Evaluator).evaluateText shelf "featureMap .items[ 0\t].\n price" =
        .ok (.int 250)) ∧
    (shelf.features.data.at? shelfRoot = some .null ∧ (∀ hop ∈ shelfRoot, IsName hop.key) ∧
      (default : Evaluator).evaluateText shelf " featureMap" = .ok .null) := by
  have price_there : shelf.features.data.at? Features.firstPrice = some (.integer 250) := rfl
  have price_named : ∀ hop ∈ Features.firstPrice, IsName hop.key := by decide
  have price_spaced : Spaced (featureRoot :: Features.firstPrice.flatMap Json.Hop.words)
      "featureMap .items[ 0\t].\n price".toList := by
    have price : Spaced [".", "price"] ".\n price".toList :=
      (((Spaced.plain ["price"]).indent rfl).indent rfl).cons "."
    have position : Spaced ["0", "]", ".", "price"] "0\t].\n price".toList :=
      ((price.cons "]").indent rfl).cons "0"
    have items : Spaced [".", "items", "[", "0", "]", ".", "price"]
        ".items[ 0\t].\n price".toList :=
      (((position.indent rfl).cons "[").cons "items").cons "."
    exact (items.indent rfl).cons featureRoot
  have root_there : shelf.features.data.at? shelfRoot = some .null := rfl
  have root_named : ∀ hop ∈ shelfRoot, IsName hop.key := by decide
  have root_spaced : Spaced [featureRoot] " featureMap".toList :=
    (Spaced.plain [featureRoot]).indent rfl
  have price_read := (location_readable default shelf (List.cons_ne_nil _ _) price_named
    price_there).1 _ price_spaced
  have root_read := (location_readable default shelf (List.cons_ne_nil _ _) root_named
    root_there).2.1 _ rfl rfl rfl _ root_spaced
  exact ⟨⟨price_there, price_named, price_read⟩, root_there, root_named, root_read⟩

end Evaluator
end Rulebook
