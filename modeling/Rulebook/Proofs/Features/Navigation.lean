import Rulebook.Proofs.Expr.Numeral
import Rulebook.Proofs.Features.Written

/-! Paths as ways down into the feature data.

A path leads to a node if its segments go there, one after the other, through objects and the arrays
in them. It comes to nothing if it ends at a key that an object does not have, or asks for an element
of an array that is not there. There is no third way for a path to give a result. -/

namespace Rulebook

namespace Path

namespace Segment

/-- A subscript writes a number of 64 bits, with blanks around it or none. An array has no more
elements than such a number can tell apart. -/
def Denotes (index : String) (number : Int) : Prop :=
  (-0x8000000000000000 ≤ number ∧ number < 0x8000000000000000) ∧
    ∃ before numeral after, index.toList = before ++ numeral ++ after ∧
      (∀ c ∈ before, isBlank c = true) ∧ (∀ c ∈ after, isBlank c = true) ∧ Numeral numeral number

inductive Enters : Json → Segment → Json → Prop where
  | entry {entries : List (String × Json)} {raw key : String} {node : Json}
      (held : entries.lookup key = some node) : Enters (.object entries) ⟨raw, key, none⟩ node
  | element {entries : List (String × Json)} {raw key index : String} {items : List Json}
      {position : Nat} {node : Json} (held : entries.lookup key = some (.array items))
      (denotes : Denotes index position) (item : items[position]? = some node) :
      Enters (.object entries) ⟨raw, key, some index⟩ node

/-- An object lacks what a segment asks for: it has no entry under the key, or it has null where the
segment asks for an array. -/
inductive Lacks : Json → Segment → Prop where
  | entry {entries : List (String × Json)} {raw key : String}
      (absent : entries.lookup key = none) : Lacks (.object entries) ⟨raw, key, none⟩
  | array {entries : List (String × Json)} {raw key index : String}
      (absent : entries.lookup key = none ∨ entries.lookup key = some .null) :
      Lacks (.object entries) ⟨raw, key, some index⟩

theorem position?_eq_some {index : String} {number : Int} :
    position? index = some number ↔ Denotes index number := by
  have narrow : ∀ value : Int, (int64? value).map Int64.toInt = some number ↔
      value = number ∧ -0x8000000000000000 ≤ number ∧ number < 0x8000000000000000 := by
    intro value
    rw [Option.map_eq_some_iff]
    constructor
    · rintro ⟨word, fits, rfl⟩
      have low := Int64.le_toInt word
      have high := Int64.toInt_lt word
      exact ⟨(toInt_of_int64? fits).symm, by omega, by omega⟩
    · rintro ⟨rfl, range⟩
      have fits : int64? value = some (Int64.ofInt value) := if_pos range
      exact ⟨_, fits, toInt_of_int64? fits⟩
  rw [position?, Option.bind_eq_some_iff]
  constructor
  · rintro ⟨value, read, fits⟩
    obtain ⟨rfl, range⟩ := (narrow value).mp fits
    exact ⟨range, readInt?_trimBlank.mp read⟩
  · rintro ⟨range, written⟩
    exact ⟨number, readInt?_trimBlank.mpr written, (narrow number).mpr ⟨rfl, range⟩⟩

end Segment

inductive LeadsTo : Json → List Segment → Json → Prop where
  | here (node : Json) : LeadsTo node [] node
  | onward {node next final : Json} {segment : Segment} {rest : List Segment}
      (enters : segment.Enters node next) (present : rest = [] ∨ next.isNull = false)
      (further : LeadsTo next rest final) : LeadsTo node (segment :: rest) final

/-- Segments come to nothing: after some of them there is a node that lacks what the next one asks
for. For a plain key that has to be the last one. -/
inductive ComesToNothing : Json → List Segment → Prop where
  | lacking {node : Json} {segment : Segment} {rest : List Segment} (lacks : segment.Lacks node)
      (last : segment.index = none → rest = []) : ComesToNothing node (segment :: rest)
  | onward {node next : Json} {segment : Segment} {rest : List Segment}
      (enters : segment.Enters node next) (present : next.isNull = false)
      (further : ComesToNothing next rest) : ComesToNothing node (segment :: rest)

section

variable {key : String} {entries : List (String × Json)} {found next : Json} {isLast : Bool}
  {fault : PathFault}

theorem unless_null_eq_some :
    (if found.isNull && !isLast then .error fault else .ok (some found)) =
        (.ok (some next) : Except PathFault (Option Json)) ↔
      found = next ∧ (isLast = true ∨ next.isNull = false) := by
  constructor
  · intro passes
    split at passes
    · contradiction
    · rename_i allowed
      obtain rfl := Option.some.inj (Except.ok.inj passes)
      refine ⟨rfl, ?_⟩
      cases isLast <;> simp_all
  · rintro ⟨rfl, allowed⟩
    rw [if_neg]
    rcases allowed with rfl | present <;> simp_all

theorem unless_null_ne_none :
    (if found.isNull && !isLast then .error fault else .ok (some found)) ≠
      (.ok none : Except PathFault (Option Json)) := by
  split <;> nofun

theorem stepKey_eq_some :
    stepKey key isLast entries = .ok (some next) ↔
      entries.lookup key = some next ∧ (isLast = true ∨ next.isNull = false) := by
  rw [stepKey]
  cases entries.lookup key with
  | none => cases isLast <;> simp
  | some found =>
      dsimp only
      rw [unless_null_eq_some, Option.some.injEq]

theorem stepKey_eq_none :
    stepKey key isLast entries = .ok none ↔ entries.lookup key = none ∧ isLast = true := by
  rw [stepKey]
  cases entries.lookup key with
  | none => cases isLast <;> simp
  | some found => exact ⟨fun nothing => absurd nothing unless_null_ne_none, nofun⟩

theorem element_eq_some {items : List Json} {number : Int} :
    (if 0 ≤ number then items[number.toNat]? else none) = some found ↔
      ∃ position : Nat, number = position ∧ items[position]? = some found := by
  constructor
  · intro item
    split at item
    · rename_i natural
      exact ⟨number.toNat, (Int.toNat_of_nonneg natural).symm, item⟩
    · contradiction
  · rintro ⟨position, rfl, item⟩
    rwa [if_pos (Int.natCast_nonneg position), Int.toNat_natCast]

variable {segment : Segment} {index : String}

theorem stepIndex_array {items : List Json}
    (held : entries.lookup segment.key = some (.array items)) :
    stepIndex segment index isLast entries = .ok (some next) ↔
      ∃ position : Nat, Segment.Denotes index position ∧ items[position]? = some next ∧
        (isLast = true ∨ next.isNull = false) := by
  simp only [stepIndex, held]
  constructor
  · intro found
    split at found
    · contradiction
    · rename_i number read
      split at found
      · contradiction
      · rename_i item at_number
        obtain ⟨rfl, allowed⟩ := unless_null_eq_some.mp found
        obtain ⟨position, rfl, element⟩ := element_eq_some.mp at_number
        exact ⟨position, Segment.position?_eq_some.mp read, element, allowed⟩
  · rintro ⟨position, denotes, element, allowed⟩
    rw [Segment.position?_eq_some.mpr denotes]
    dsimp only
    rw [element_eq_some.mpr ⟨position, rfl, element⟩]
    exact unless_null_eq_some.mpr ⟨rfl, allowed⟩

theorem stepIndex_eq_some :
    stepIndex segment index isLast entries = .ok (some next) ↔
      ∃ (items : List Json) (position : Nat), entries.lookup segment.key = some (.array items) ∧
        Segment.Denotes index position ∧ items[position]? = some next ∧
        (isLast = true ∨ next.isNull = false) := by
  by_cases held : ∃ items, entries.lookup segment.key = some (.array items)
  · obtain ⟨items, held⟩ := held
    rw [stepIndex_array held, held]
    simp
  · constructor
    · intro found
      rw [stepIndex] at found
      split at found <;> simp_all
    · rintro ⟨items, position, present, -⟩
      exact absurd ⟨items, present⟩ held

theorem stepIndex_eq_none :
    stepIndex segment index isLast entries = .ok none ↔
      entries.lookup segment.key = none ∨ entries.lookup segment.key = some .null := by
  rw [stepIndex]
  split
  · rename_i absent
    exact ⟨fun _ => .inl absent, fun _ => rfl⟩
  · rename_i null
    exact ⟨fun _ => .inr null, fun _ => rfl⟩
  · rename_i items held
    rw [held]
    simp only [reduceCtorEq, or_self, Option.some.injEq, iff_false]
    split
    · nofun
    · split
      · nofun
      · exact unless_null_ne_none
  · simp_all

end

theorem step_eq_some {parent : String} {node next : Json} {segment : Segment} {isLast : Bool} :
    step parent node segment isLast = .ok (some next) ↔
      segment.Enters node next ∧ (isLast = true ∨ next.isNull = false) := by
  obtain ⟨raw, key, index⟩ := segment
  constructor
  · intro found
    cases node with
    | object entries =>
        cases index with
        | none =>
            obtain ⟨held, allowed⟩ := stepKey_eq_some.mp found
            exact ⟨.entry held, allowed⟩
        | some index =>
            obtain ⟨items, position, held, denotes, item, allowed⟩ := stepIndex_eq_some.mp found
            exact ⟨.element held denotes item, allowed⟩
    | null | boolean | integer | real | string | array => contradiction
  · rintro ⟨enters, allowed⟩
    cases enters with
    | entry held => exact stepKey_eq_some.mpr ⟨held, allowed⟩
    | element held denotes item =>
        exact stepIndex_eq_some.mpr ⟨_, _, held, denotes, item, allowed⟩

theorem step_eq_none {parent : String} {node : Json} {segment : Segment} {isLast : Bool} :
    step parent node segment isLast = .ok none ↔
      segment.Lacks node ∧ (segment.index = none → isLast = true) := by
  obtain ⟨raw, key, index⟩ := segment
  constructor
  · intro lacking
    cases node with
    | object entries =>
        cases index with
        | none =>
            obtain ⟨absent, last⟩ := stepKey_eq_none.mp lacking
            exact ⟨.entry absent, fun _ => last⟩
        | some index => exact ⟨.array (stepIndex_eq_none.mp lacking), nofun⟩
    | null | boolean | integer | real | string | array => contradiction
  · rintro ⟨lacks, last⟩
    cases lacks with
    | entry absent => exact stepKey_eq_none.mpr ⟨absent, last rfl⟩
    | array absent => exact stepIndex_eq_none.mpr absent

theorem follow_eq_some {parent : String} {node final : Json} {segments : List Segment} :
    follow parent node segments = .ok (some final) ↔ LeadsTo node segments final := by
  induction segments generalizing parent node with
  | nil =>
      constructor
      · intro same
        obtain rfl := Option.some.inj (Except.ok.inj same)
        exact .here node
      · intro leads
        cases leads
        rfl
  | cons segment rest ih =>
      rw [follow, bind_eq_ok]
      constructor
      · rintro ⟨found, stepped, further⟩
        cases found with
        | none => cases further
        | some next =>
            obtain ⟨enters, allowed⟩ := step_eq_some.mp stepped
            exact .onward enters (allowed.imp_left List.isEmpty_iff.mp) (ih.mp further)
      · intro leads
        cases leads with
        | onward enters present further =>
            have allowed := present.imp_left List.isEmpty_iff.mpr
            exact ⟨_, step_eq_some.mpr ⟨enters, allowed⟩, ih.mpr further⟩

theorem follow_eq_none {parent : String} {node : Json} {segments : List Segment} :
    follow parent node segments = .ok none ↔ ComesToNothing node segments := by
  induction segments generalizing parent node with
  | nil => exact ⟨nofun, nofun⟩
  | cons segment rest ih =>
      rw [follow, bind_eq_ok]
      constructor
      · rintro ⟨found, stepped, further⟩
        cases found with
        | none =>
            obtain ⟨lacks, last⟩ := step_eq_none.mp stepped
            exact .lacking lacks fun plain => List.isEmpty_iff.mp (last plain)
        | some next =>
            obtain ⟨enters, allowed⟩ := step_eq_some.mp stepped
            have present : next.isNull = false := by
              refine allowed.resolve_left fun last => ?_
              rw [List.isEmpty_iff.mp last] at further
              cases further
            exact .onward enters present (ih.mp further)
      · intro nothing
        cases nothing with
        | lacking lacks last =>
            refine ⟨none, step_eq_none.mpr ⟨lacks, fun plain => ?_⟩, rfl⟩
            exact List.isEmpty_iff.mpr (last plain)
        | onward enters present further =>
            exact ⟨_, step_eq_some.mpr ⟨enters, .inr present⟩, ih.mpr further⟩

end Path

namespace Features

theorem find_eq_ok {features : Features} {path : String} {found : Option Json} :
    features.find path = .ok found ↔
      ∃ segments, Path.Writes path segments ∧
        Path.follow featureRoot features.data segments = .ok found := by
  simp only [find, mapError_eq_ok, bind_eq_ok, Path.segments_eq_ok]

theorem find_error {features : Features} {path : String} {failure : Failure}
    (fails : features.find path = .error failure) :
    ∃ fault, failure = .invalidPath path fault := by
  obtain ⟨fault, -, rfl⟩ := mapError_eq_error.mp fails
  exact ⟨fault, rfl⟩

theorem find_eq_some {features : Features} {path : String} {node : Json} :
    features.find path = .ok (some node) ↔
      ∃ segments, Path.Writes path segments ∧ Path.LeadsTo features.data segments node := by
  rw [find_eq_ok]
  simp only [Path.follow_eq_some]

theorem find_eq_none {features : Features} {path : String} :
    features.find path = .ok none ↔
      ∃ segments, Path.Writes path segments ∧ Path.ComesToNothing features.data segments := by
  rw [find_eq_ok]
  simp only [Path.follow_eq_none]

end Features
end Rulebook
