import Rulebook.Evaluator
import Rulebook.Proofs.Steps

namespace Rulebook

namespace Json

inductive Step where
  | key (name : String)
  | item (position : Nat)
  deriving DecidableEq, Repr

def Elsewhere (key : String) (entries others : List (String × Json)) : Prop :=
  ∀ other ≠ key, entries.lookup other = others.lookup other

/-- Objects that differ at most in one place, which is below objects and array elements that both of
them have. At the place itself there may be nothing in one of them, if it is an entry. -/
inductive DifferAt : List Step → Json → Json → Prop where
  | entry {key : String} {entries others : List (String × Json)}
      (elsewhere : Elsewhere key entries others) :
      DifferAt [.key key] (.object entries) (.object others)
  | inEntry {key : String} {place : List Step} {entries others : List (String × Json)}
      {node changed : Json} (elsewhere : Elsewhere key entries others)
      (held : entries.lookup key = some node) (replaced : others.lookup key = some changed)
      (inner : DifferAt place node changed) :
      DifferAt (.key key :: place) (.object entries) (.object others)
  | element {key : String} {position : Nat} {entries others : List (String × Json)}
      {items : List Json} {changed : Json}
      (elsewhere : Elsewhere key entries others)
      (held : entries.lookup key = some (.array items))
      (replaced : others.lookup key = some (.array (items.set position changed))) :
      DifferAt [.key key, .item position] (.object entries) (.object others)
  | inElement {key : String} {position : Nat} {place : List Step}
      {entries others : List (String × Json)} {items : List Json} {node changed : Json}
      (elsewhere : Elsewhere key entries others)
      (held : entries.lookup key = some (.array items))
      (replaced : others.lookup key = some (.array (items.set position changed)))
      (present : items[position]? = some node) (inner : DifferAt place node changed) :
      DifferAt (.key key :: .item position :: place) (.object entries) (.object others)

theorem elsewhere_insertEntry (key : String) (value : Json) (entries : List (String × Json)) :
    Elsewhere key entries (insertEntry key value entries) := by
  intro other apart
  have skip : (other == key) = false := beq_eq_false_iff_ne.mpr apart
  induction entries with
  | nil => simp only [insertEntry, List.lookup_cons, skip]
  | cons entry rest ih =>
      obtain ⟨first, old⟩ := entry
      rw [insertEntry]
      split
      · simp only [List.lookup_cons, skip]
      · split
        · rename_i same
          subst same
          simp only [List.lookup_cons, skip]
        · simp only [List.lookup_cons, ih]

theorem differAt_insertEntry (key : String) (value : Json) (entries : List (String × Json)) :
    DifferAt [.key key] (.object entries) (.object (insertEntry key value entries)) :=
  .entry (elsewhere_insertEntry key value entries)

theorem DifferAt.objects {place : List Step} {data other : Json} (differ : DifferAt place data other) :
    ∃ entries others, data = .object entries ∧ other = .object others := by
  cases differ <;> exact ⟨_, _, rfl, rfl⟩

theorem Elsewhere.get?_scalar {key : String} {entries others : List (String × Json)}
    (elsewhere : Elsewhere key entries others) {name : String}
    (at_key : name = key →
      (entries.lookup key).map Value.ofJson? = (others.lookup key).map Value.ofJson?) :
    ((object entries).get? name).map Value.ofJson? =
      ((object others).get? name).map Value.ofJson? := by
  by_cases same : name = key
  · rw [get?, get?, same, at_key same]
  · rw [get?, get?, elsewhere name same]

theorem DifferAt.get?_scalar {place : List Step} {data other : Json}
    (differ : DifferAt place data other) {name : String} (unread : place ≠ [.key name]) :
    (data.get? name).map Value.ofJson? = (other.get? name).map Value.ofJson? := by
  cases differ with
  | entry elsewhere => exact elsewhere.get?_scalar fun same => absurd (same ▸ rfl) unread
  | inEntry elsewhere held replaced inner =>
      obtain ⟨_, _, rfl, rfl⟩ := inner.objects
      apply elsewhere.get?_scalar
      rw [held, replaced]
      exact fun _ => rfl
  | element elsewhere held replaced | inElement elsewhere held replaced =>
      apply elsewhere.get?_scalar
      rw [held, replaced]
      exact fun _ => rfl

end Json

namespace Path

open Json (Step DifferAt)

/-- The steps that a segment takes. A subscript that is no position takes none. -/
def Segment.steps (segment : Segment) : List Step :=
  match segment.index.bind Segment.position? with
  | none => [.key segment.key]
  | some position =>
    if 0 ≤ position then [.key segment.key, .item position.toNat] else [.key segment.key]

theorem Segment.key_prefix (segment : Segment) : [.key segment.key] <+: segment.steps := by
  rw [steps]
  split
  · exact List.prefix_rfl
  · split
    · exact ⟨[.item _], rfl⟩
    · exact List.prefix_rfl

def Reads (path : String) (place : List Step) : Prop :=
  ∃ segments, Path.segments path = .ok segments ∧ place <+: segments.flatMap Segment.steps

/-- What is told apart at the end of a path: nothing, a scalar, or some container. -/
def seen (parent : String) (node : Json) (segments : List Segment) :
    Except PathFault (Option (Option Value)) :=
  (follow parent node segments).map (Option.map Value.ofJson?)

theorem seen_cons (parent : String) (node : Json) (segment : Segment) (rest : List Segment) :
    seen parent node (segment :: rest) =
      step parent node segment rest.isEmpty >>= fun found =>
        match found with
        | none => .ok none
        | some next => seen segment.raw next rest := by
  rw [seen, follow]
  cases step parent node segment rest.isEmpty with
  | error fault => rfl
  | ok found => cases found <;> rfl

theorem seen_array (parent : String) (items others : List Json) (segments : List Segment) :
    seen parent (.array items) segments = seen parent (.array others) segments := by
  cases segments <;> rfl

theorem step_congr {entries others : List (String × Json)} {segment : Segment}
    (same : entries.lookup segment.key = others.lookup segment.key) (parent : String)
    (isLast : Bool) :
    step parent (.object entries) segment isLast = step parent (.object others) segment isLast := by
  simp only [step, stepKey, stepIndex, same]

theorem step_key {entries : List (String × Json)} {segment : Segment} {node : Json}
    (at_index : segment.index = none) (held : entries.lookup segment.key = some node)
    (present : node.isNull = false) (parent : String) (isLast : Bool) :
    step parent (.object entries) segment isLast = .ok (some node) := by
  simp only [step, at_index, stepKey, held, present, Bool.false_and, Bool.false_eq_true, if_false]

theorem Segment.steps_eq_item {segment : Segment} {position : Nat} :
    segment.steps = [.key segment.key, .item position] ↔
      ∃ index subscript, segment.index = some index ∧ position? index = some subscript ∧
        0 ≤ subscript ∧ subscript.toNat = position := by
  constructor
  · intro at_item
    rw [steps] at at_item
    split at at_item
    · simp at at_item
    · rename_i subscript read
      obtain ⟨index, at_index, read⟩ := Option.bind_eq_some_iff.mp read
      split at at_item
      · rename_i natural
        simp only [List.cons.injEq, Step.item.injEq, and_true, true_and] at at_item
        exact ⟨index, subscript, at_index, read, natural, at_item⟩
      · simp at at_item
  · rintro ⟨index, subscript, at_index, read, natural, rfl⟩
    rw [steps, at_index, Option.bind_some, read]
    exact if_pos natural

theorem step_item {entries : List (String × Json)} {items : List Json} {segment : Segment}
    {position : Nat} {node : Json} (at_item : segment.steps = [.key segment.key, .item position])
    (held : entries.lookup segment.key = some (.array items))
    (item : items[position]? = some node) (present : node.isNull = false) (parent : String)
    (isLast : Bool) : step parent (.object entries) segment isLast = .ok (some node) := by
  obtain ⟨index, subscript, at_index, read, natural, rfl⟩ := Segment.steps_eq_item.mp at_item
  simp only [step, at_index, stepIndex, held, read, if_pos natural, item, present, Bool.false_and,
    Bool.false_eq_true, if_false]

theorem step_set {entries others : List (String × Json)} {items : List Json} {changed : Json}
    {segment : Segment} {position : Nat} {index : String} (at_index : segment.index = some index)
    (held : entries.lookup segment.key = some (.array items))
    (replaced : others.lookup segment.key = some (.array (items.set position changed)))
    (apart : segment.steps ≠ [.key segment.key, .item position]) (parent : String)
    (isLast : Bool) :
    step parent (.object entries) segment isLast = step parent (.object others) segment isLast := by
  simp only [step, at_index, stepIndex, held, replaced, List.length_set]
  cases read : Segment.position? index with
  | none => rfl
  | some subscript =>
      have same : (if 0 ≤ subscript then items[subscript.toNat]? else none) =
          if 0 ≤ subscript then (items.set position changed)[subscript.toNat]? else none := by
        split
        · rename_i natural
          have beside : position ≠ subscript.toNat := fun here =>
            apart (Segment.steps_eq_item.mpr ⟨index, subscript, at_index, read, natural, here.symm⟩)
          rw [List.getElem?_set_ne beside]
        · rfl
      simp only [same]

section

variable {key : String} {entries others : List (String × Json)}
  (elsewhere : Json.Elsewhere key entries others)
include elsewhere

theorem seen_of_elsewhere {segments : List Segment} {parent : String}
    (at_key : ∀ segment rest, segments = segment :: rest → segment.key = key →
      seen parent (.object entries) segments = seen parent (.object others) segments) :
    seen parent (.object entries) segments = seen parent (.object others) segments := by
  cases segments with
  | nil => rfl
  | cons segment rest =>
      by_cases same : segment.key = key
      · exact at_key segment rest rfl same
      · rw [seen_cons, seen_cons, step_congr (elsewhere segment.key same)]

theorem seen_of_set {items : List Json} {position : Nat} {changed : Json}
    (held : entries.lookup key = some (.array items))
    (replaced : others.lookup key = some (.array (items.set position changed)))
    {segments : List Segment} {parent : String}
    (at_item : ∀ segment rest, segments = segment :: rest → segment.key = key →
      segment.steps = [.key key, .item position] →
      seen parent (.object entries) segments = seen parent (.object others) segments) :
    seen parent (.object entries) segments = seen parent (.object others) segments := by
  apply seen_of_elsewhere elsewhere
  rintro segment rest split rfl
  by_cases here : segment.steps = [.key segment.key, .item position]
  · exact at_item segment rest split rfl here
  · rw [split, seen_cons, seen_cons]
    cases at_index : segment.index with
    | none =>
        -- Without a subscript the array is a container, whatever it holds.
        rw [step_key at_index held rfl, step_key at_index replaced rfl]
        exact seen_array segment.raw items _ rest
    | some index => rw [step_set at_index held replaced here]

end

/-- Data that differ in a place that a path does not read give the same along that path. -/
theorem seen_of_differAt {place : List Step} {data other : Json} (differ : DifferAt place data other)
    {segments : List Segment} (unread : ¬ place <+: segments.flatMap Segment.steps)
    (parent : String) : seen parent data segments = seen parent other segments := by
  -- The path goes down along the place for as long as both take the same steps.
  induction differ generalizing segments parent with
  | entry elsewhere =>
      apply seen_of_elsewhere elsewhere
      rintro segment rest rfl rfl
      exact absurd (segment.key_prefix.trans (List.prefix_append _ _)) unread
  | inEntry elsewhere held replaced inner ih =>
      apply seen_of_elsewhere elsewhere
      rintro segment rest rfl rfl
      obtain ⟨_, _, rfl, rfl⟩ := inner.objects
      rw [seen_cons, seen_cons]
      cases at_index : segment.index with
      | none =>
          rw [step_key at_index held rfl, step_key at_index replaced rfl]
          apply ih
          intro leads
          apply unread
          rw [List.flatMap_cons, Segment.steps, at_index]
          exact (List.prefix_cons_inj _).mpr leads
      | some index =>
          -- There is an object where the subscript looks for an array, and it stays one.
          simp only [step, at_index, stepIndex, held, replaced]
  | element elsewhere held replaced =>
      apply seen_of_set elsewhere held replaced
      rintro segment rest rfl rfl here
      rw [List.flatMap_cons, here] at unread
      exact absurd (List.prefix_append _ _) unread
  | inElement elsewhere held replaced present inner ih =>
      apply seen_of_set elsewhere held replaced
      rintro segment rest rfl rfl here
      obtain ⟨within, -⟩ := List.getElem?_eq_some_iff.mp present
      obtain ⟨_, _, rfl, rfl⟩ := inner.objects
      rw [seen_cons, seen_cons, step_item here held present rfl,
        step_item here replaced (List.getElem?_set_self within) rfl]
      apply ih
      intro leads
      rw [List.flatMap_cons, here] at unread
      exact unread ((List.prefix_append_right_inj [_, _]).mpr leads)

end Path

theorem Features.value_eq (features : Features) (path : String) :
    features.value path =
      match Path.segments path >>= Path.seen featureRoot features.data with
      | .error fault => .error (.invalidPath path fault)
      | .ok none => .ok .null
      | .ok (some none) => .error (.invalidPath path .container)
      | .ok (some (some value)) => .ok value := by
  rw [value, find]
  cases Path.segments path with
  | error fault => rfl
  | ok segments =>
      simp only [ok_bind, Path.seen]
      cases Path.follow featureRoot features.data segments with
      | error fault => rfl
      | ok found =>
          cases found with
          | none => rfl
          | some node =>
              rw [mapError_ok, ok_bind]
              dsimp only [Except.map, Option.map_some]
              cases Value.ofJson? node <;> rfl

theorem Features.value_of_differAt {features : Features} {place : List Json.Step} {data : Json}
    (differ : features.data.DifferAt place data) {path : String}
    (unread : ¬ Path.Reads path place) : features.value path = Features.value ⟨data⟩ path := by
  rw [value_eq, value_eq]
  cases read : Path.segments path with
  | error fault => rfl
  | ok segments =>
      have apart : ¬ place <+: segments.flatMap Path.Segment.steps :=
        fun leads => unread ⟨segments, read, leads⟩
      rw [ok_bind, ok_bind, Path.seen_of_differAt differ apart]

theorem Scope.resolve_eq (scope : Scope) (id : String) :
    scope.resolve id =
      match scope.results.lookup? id, (scope.features.data.get? id).map Value.ofJson? with
      | some value, _ => .ok value
      | none, none => .error (.unknownName id)
      | none, some none => .error (.invalidPath id .namedContainer)
      | none, some (some value) => .ok value := by
  rw [resolve, Features.get?]
  cases scope.results.lookup? id with
  | some value => rfl
  | none =>
      cases scope.features.data.get? id with
      | none => rfl
      | some node =>
          dsimp only [Option.map_some]
          cases Value.ofJson? node <;> rfl

theorem Scope.resolve_of_differAt {scope : Scope} {place : List Json.Step} {data : Json}
    (differ : scope.features.data.DifferAt place data) {id : String}
    (unread : place ≠ [.key id]) :
    scope.resolve id = resolve { scope with features := ⟨data⟩ } id := by
  rw [resolve_eq, resolve_eq, differ.get?_scalar unread]

end Rulebook
