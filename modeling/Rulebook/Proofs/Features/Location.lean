import Rulebook.Proofs.Features.Navigation

namespace Rulebook

namespace Json

/-- A step down into data: to an entry of an object, or on to an element of the array there. The key
is one that a path can write. No array is longer than numbers of 64 bits can count. -/
structure Hop where
  key : String
  index : Option Nat
  nonempty : key ≠ ""
  plain : ∀ c ∈ key.toList, c ≠ '.' ∧ c ≠ '[' ∧ c ≠ ']'
  narrow : ∀ position ∈ index, position < 0x8000000000000000

def item? : Json → Nat → Option Json
  | .array items, position => items[position]?
  | _, _ => none

def child? (node : Json) (hop : Hop) : Option Json :=
  match hop.index with
  | none => node.get? hop.key
  | some position => (node.get? hop.key).bind fun found => found.item? position

def at? (node : Json) : List Hop → Option Json
  | [] => some node
  | hop :: rest => (node.child? hop).bind fun next => next.at? rest

namespace Hop

open Rulebook.Path (Segment)

def segment (hop : Hop) : Segment :=
  let index := hop.index.map Nat.repr
  ⟨hop.key ++ Segment.renderIndex index, hop.key, index⟩

def renderAll (location : List Hop) : String := Path.renderSegments (location.map segment)

variable {hop : Hop}

theorem narrow_none : ∀ position ∈ (none : Option Nat), position < 0x8000000000000000 := nofun

theorem digits_repr (position : Nat) : Digits position.repr.toList := by
  rw [Nat.repr_eq_ofList_toDigits, String.toList_ofList]
  exact digits_toDigits position

theorem not_special_of_digit {c : Char} (digit : c.isDigit = true) :
    c ≠ '.' ∧ c ≠ '[' ∧ c ≠ ']' := by
  refine ⟨?_, ?_, ?_⟩ <;> rintro rfl <;> contradiction

theorem written_segment (hop : Hop) : hop.segment.Written where
  nonempty := hop.nonempty
  plain := by
    intro c member
    simp [Segment.isBracket, hop.plain c member]
  plain_index := by
    intro index present c member
    obtain ⟨position, -, rfl⟩ := Option.map_eq_some_iff.mp present
    simp [Segment.isBracket, not_special_of_digit ((digits_repr position).2 c member)]
  raw := rfl

theorem unpointed_segment (hop : Hop) : '.' ∉ hop.segment.raw.toList := by
  intro point
  rw [segment, String.toList_append, List.mem_append] at point
  rcases point with in_key | in_index
  · exact (hop.plain '.' in_key).1 rfl
  · cases at_index : hop.index with
    | none => simp [at_index, Segment.renderIndex] at in_index
    | some position =>
        have digit : '.' ∈ position.repr.toList := by
          simpa [at_index, Segment.renderIndex] using in_index
        exact (not_special_of_digit ((digits_repr position).2 '.' digit)).1 rfl

theorem denotes_repr {position : Nat} (narrow : position < 0x8000000000000000) {number : Int} :
    Segment.Denotes position.repr number ↔ number = position := by
  have written : Segment.Denotes position.repr position := by
    refine ⟨by omega, [], position.repr.toList, [], by simp, nofun, nofun, ?_⟩
    have numeral := Numeral.unsigned (digits_repr position)
    rw [Nat.repr_eq_ofList_toDigits, String.toList_ofList] at numeral ⊢
    rwa [digitsValue_toDigits] at numeral
  constructor
  · intro denotes
    have read := Segment.position?_eq_some.mpr denotes
    rw [Segment.position?_eq_some.mpr written] at read
    exact (Option.some.inj read).symm
  · rintro rfl
    exact written

theorem enters_segment {node next : Json} :
    hop.segment.Enters node next ↔ node.child? hop = some next := by
  obtain ⟨key, index, nonempty, plain, narrow⟩ := hop
  constructor
  · intro enters
    cases index with
    | none =>
        cases enters with
        | entry held => exact held
    | some position =>
        cases enters with
        | element held denotes item =>
            have same := (denotes_repr (narrow position rfl)).mp denotes
            rw [Int.ofNat_inj.mp same] at item
            simp only [child?, get?, held, Option.bind_some, item?, item]
  · intro child
    cases node with
    | object entries =>
        cases index with
        | none => exact .entry child
        | some position =>
            obtain ⟨found, held, item⟩ := Option.bind_eq_some_iff.mp child
            cases found with
            | array items =>
                exact .element held ((denotes_repr (narrow position rfl)).mpr rfl) item
            | null | boolean | integer | real | string | object => contradiction
    | null | boolean | integer | real | string | array =>
        cases index <;> contradiction

theorem leadsTo_segments {node final : Json} {location : List Hop} :
    Path.LeadsTo node (location.map segment) final ↔ node.at? location = some final := by
  induction location generalizing node with
  | nil =>
      constructor
      · intro leads
        cases leads
        rfl
      · intro here
        obtain rfl := Option.some.inj here
        exact .here node
  | cons hop rest ih =>
      rw [at?, Option.bind_eq_some_iff, List.map_cons]
      constructor
      · intro leads
        cases leads with
        | onward enters present further => exact ⟨_, enters_segment.mp enters, ih.mp further⟩
      · rintro ⟨next, child, further⟩
        refine .onward (enters_segment.mpr child) ?_ (ih.mpr further)
        cases rest with
        | nil => exact .inl rfl
        | cons second later =>
            -- From a null there is no way on.
            refine .inr ?_
            cases next with
            | null =>
                obtain ⟨deeper, grandchild, _⟩ := Option.bind_eq_some_iff.mp further
                cases at_index : second.index <;> simp [child?, get?, at_index] at grandchild
            | boolean | integer | real | string | array | object => rfl

theorem writes_renderAll {location : List Hop} (nonempty : location ≠ []) {path : String}
    (visible : ∃ c ∈ path.toList, isBlank c = false)
    (text : path = featureRoot ++ "." ++ renderAll location ∨
      path = renderAll location ∧ ∀ rest, path ≠ featureRoot ++ "." ++ rest) :
    Path.Writes path (location.map segment) where
  visible := visible
  nonempty := fun empty => nonempty (List.map_eq_nil_iff.mp empty)
  written := by
    intro written member
    obtain ⟨hop, -, rfl⟩ := List.mem_map.mp member
    exact hop.written_segment
  unpointed := by
    intro written member
    obtain ⟨hop, -, rfl⟩ := List.mem_map.mp member
    exact hop.unpointed_segment
  text := text

end Hop
end Json

namespace Features

/-- A location that a path writes is where the path leads. -/
theorem find_of_writes {features : Features} {path : String} {location : List Json.Hop}
    (writes : Path.Writes path (location.map Json.Hop.segment)) {node : Json} :
    features.find path = .ok (some node) ↔ features.data.at? location = some node := by
  rw [find_eq_some, ← Json.Hop.leadsTo_segments]
  constructor
  · rintro ⟨segments, others, leads⟩
    have same := Path.segments_eq_ok.mpr others
    rw [Path.segments_eq_ok.mpr writes] at same
    rwa [Except.ok.inj same]
  · intro leads
    exact ⟨_, writes, leads⟩

theorem find_location {features : Features} {location : List Json.Hop} (nonempty : location ≠ [])
    {node : Json} :
    features.find (featureRoot ++ "." ++ Json.Hop.renderAll location) = .ok (some node) ↔
      features.data.at? location = some node := by
  refine find_of_writes (Json.Hop.writes_renderAll nonempty ⟨'f', ?_, rfl⟩ (.inl rfl))
  simp [featureRoot]

/-- A path leads to a node, comes to nothing, or is invalid: it is invalid just if it writes no
segments or they do neither. What stands at a location is what a path that writes it leads to. -/
theorem find_navigates (features : Features) (path : String) :
    (∀ node, features.find path = .ok (some node) ↔
      ∃ segments, Path.Writes path segments ∧ Path.LeadsTo features.data segments node) ∧
    (features.find path = .ok none ↔
      ∃ segments, Path.Writes path segments ∧ Path.ComesToNothing features.data segments) ∧
    ((∃ fault, features.find path = .error (.invalidPath path fault)) ↔
      ∀ segments, Path.Writes path segments →
        ¬ Path.ComesToNothing features.data segments ∧
          ∀ node, ¬ Path.LeadsTo features.data segments node) ∧
    ∀ (location : List Json.Hop) (node : Json), location ≠ [] →
      (path = featureRoot ++ "." ++ Json.Hop.renderAll location ∨
        path = Json.Hop.renderAll location ∧ (∃ c ∈ path.toList, isBlank c = false) ∧
          ∀ rest, path ≠ featureRoot ++ "." ++ rest) →
      (features.find path = .ok (some node) ↔ features.data.at? location = some node) := by
  refine ⟨fun node => find_eq_some, find_eq_none, ?_, ?_⟩
  · constructor
    · rintro ⟨fault, fails⟩ segments writes
      refine ⟨fun nothing => ?_, fun node leads => ?_⟩
      · rw [find_eq_none.mpr ⟨segments, writes, nothing⟩] at fails
        contradiction
      · rw [find_eq_some.mpr ⟨segments, writes, leads⟩] at fails
        contradiction
    · intro nowhere
      cases result : features.find path with
      | error failure =>
          obtain ⟨fault, rfl⟩ := find_error result
          exact ⟨fault, rfl⟩
      | ok found =>
          cases found with
          | none =>
              obtain ⟨segments, writes, nothing⟩ := find_eq_none.mp result
              exact absurd nothing (nowhere segments writes).1
          | some node =>
              obtain ⟨segments, writes, leads⟩ := find_eq_some.mp result
              exact absurd leads ((nowhere segments writes).2 node)
  · intro location node nonempty text
    rcases text with rfl | ⟨rfl, visible, apart⟩
    · exact find_location nonempty
    · exact find_of_writes (Json.Hop.writes_renderAll nonempty visible (.inr ⟨rfl, apart⟩))

def stock : Features :=
  ⟨.object [("items", .array [.object [("price", .integer 250)], .object [], .null])]⟩

def firstPrice : List Json.Hop :=
  [⟨"items", some 0, by decide, by simp, by simp⟩,
    ⟨"price", none, by decide, by simp, Json.Hop.narrow_none⟩]

theorem stock_firstPrice :
    stock.data.at? firstPrice = some (.integer 250) ∧
      stock.find "featureMap.items[0].price" = .ok (some (.integer 250)) := by
  have there : stock.data.at? firstPrice = some (.integer 250) := rfl
  have text : "featureMap.items[0].price" = featureRoot ++ "." ++ Json.Hop.renderAll firstPrice := by
    decide +kernel
  have nonempty : firstPrice ≠ [] := List.cons_ne_nil _ _
  obtain ⟨-, -, -, located⟩ := find_navigates stock "featureMap.items[0].price"
  exact ⟨there, (located firstPrice (.integer 250) nonempty (.inl text)).mpr there⟩

end Features
end Rulebook
