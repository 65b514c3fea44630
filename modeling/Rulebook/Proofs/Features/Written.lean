import Rulebook.Features
import Rulebook.Proofs.Steps
import Rulebook.Proofs.Text

namespace Rulebook.Path

namespace Segment

def Plain (text : String) : Prop := ∀ c ∈ text.toList, isBracket c = false

def renderIndex : Option String → String
  | none => ""
  | some index => "[" ++ index ++ "]"

structure Written (segment : Segment) : Prop where
  nonempty : segment.key ≠ ""
  plain : Plain segment.key
  plain_index : ∀ index ∈ segment.index, Plain index
  raw : segment.raw = segment.key ++ renderIndex segment.index

theorem any_isBracket {text : List Char} :
    text.any isBracket = false ↔ ∀ c ∈ text, isBracket c = false := by
  simp

theorem ofText_plain {raw : List Char} (nonempty : raw ≠ [])
    (plain : ∀ c ∈ raw, isBracket c = false) :
    ofText raw = .ok ⟨String.ofList raw, String.ofList raw, none⟩ := by
  simp only [ofText, List.isEmpty_eq_false_iff.mpr nonempty, any_isBracket.mpr plain,
    Bool.false_eq_true, if_false, Bool.not_false, if_true]

theorem ofText_indexed {key index : List Char} (nonempty : key ≠ [])
    (plain : ∀ c ∈ key, isBracket c = false) (plain_index : ∀ c ∈ index, isBracket c = false) :
    ofText (key ++ '[' :: (index ++ [']'])) =
      .ok ⟨String.ofList (key ++ '[' :: (index ++ [']'])), String.ofList key,
        some (String.ofList index)⟩ := by
  have within : ∀ c ∈ key, (!isBracket c) = true := by simpa using plain
  have within_index : ∀ c ∈ index, (!isBracket c) = true := by simpa using plain_index
  have opens : ∀ c ∈ ('[' :: (index ++ [']'])).head?, (!isBracket c) = false := by simp [isBracket]
  have closes : ∀ c ∈ [']'].head?, (!isBracket c) = false := by simp [isBracket]
  have bracket : (key ++ '[' :: (index ++ [']'])).any isBracket = true := by simp [isBracket]
  have filled : (key ++ '[' :: (index ++ [']'])).isEmpty = false := by simp
  simp only [ofText, filled, bracket, takeWhile_append_stop within opens,
    dropWhile_append_stop within opens, takeWhile_append_stop within_index closes,
    dropWhile_append_stop within_index closes, List.isEmpty_eq_false_iff.mpr nonempty]
  rfl

theorem written_of_ofText {raw : List Char} {segment : Segment}
    (read : ofText raw = .ok segment) : segment.Written ∧ segment.raw.toList = raw := by
  rw [ofText] at read
  split at read
  · contradiction
  rename_i filled
  split at read
  · rename_i plain
    obtain rfl := Except.ok.inj read
    refine ⟨⟨?_, ?_, nofun, ?_⟩, String.toList_ofList⟩
    · simpa using filled
    · rw [Plain, String.toList_ofList]
      exact any_isBracket.mp (Bool.not_eq_true' _ ▸ plain)
    · exact String.append_empty.symm
  · dsimp only at read
    split at read
    · rename_i inner behind
      split at read
      · contradiction
      · rename_i proper
        obtain rfl := Except.ok.inj read
        simp only [Bool.or_eq_true, List.isEmpty_iff, decide_eq_true_eq, not_or, ne_eq,
          Decidable.not_not] at proper
        obtain ⟨nonempty, closes⟩ := proper
        -- The key and the subscript are the runs without brackets, cut off with the brackets left.
        have parted : raw = raw.takeWhile (fun c => !isBracket c) ++ '[' ::
            (inner.takeWhile (fun c => !isBracket c) ++ [']']) := by
          rw [← closes, List.takeWhile_append_dropWhile, ← behind, List.takeWhile_append_dropWhile]
        refine ⟨⟨?_, ?_, ?_, ?_⟩, String.toList_ofList⟩
        · simpa using nonempty
        · intro c member
          rw [String.toList_ofList] at member
          simpa using List.mem_takeWhile_imp member
        · rintro index same c member
          obtain rfl := Option.some.inj same
          rw [String.toList_ofList] at member
          simpa using List.mem_takeWhile_imp member
        · apply String.toList_injective
          simpa [renderIndex] using parted
    · contradiction

theorem ofText_eq_ok {raw : List Char} {segment : Segment} :
    ofText raw = .ok segment ↔ segment.Written ∧ segment.raw.toList = raw := by
  constructor
  · exact written_of_ofText
  · rintro ⟨written, rfl⟩
    obtain ⟨raw, key, index⟩ := segment
    obtain ⟨nonempty, plain, plain_index, same⟩ := written
    dsimp only at nonempty plain plain_index same ⊢
    subst same
    have filled : key.toList ≠ [] := fun empty => nonempty (String.toList_eq_nil_iff.mp empty)
    cases index with
    | none =>
        simp only [renderIndex, String.append_empty, ofText_plain filled plain, String.ofList_toList]
    | some index =>
        have text : (key ++ renderIndex (some index)).toList =
            key.toList ++ '[' :: (index.toList ++ [']']) := by
          simp [renderIndex]
        rw [text, ofText_indexed filled plain (plain_index index rfl), ← text]
        simp only [String.ofList_toList]

theorem mapM_ofText {pieces : List (List Char)} {segments : List Segment} :
    pieces.mapM ofText = .ok segments ↔
      pieces = segments.map (fun segment => segment.raw.toList) ∧
        ∀ segment ∈ segments, segment.Written := by
  rw [mapM_eq_ok]
  simp only [ofText_eq_ok]
  induction segments generalizing pieces with
  | nil => simp
  | cons segment rest ih =>
      rw [List.forall₂_cons_right_iff, List.map_cons, List.forall_mem_cons]
      constructor
      · rintro ⟨raw, further, ⟨written, rfl⟩, later, rfl⟩
        obtain ⟨rfl, others⟩ := ih.mp later
        exact ⟨rfl, written, others⟩
      · rintro ⟨rfl, written, others⟩
        exact ⟨_, _, ⟨written, rfl⟩, ih.mpr ⟨rfl, others⟩, rfl⟩

end Segment

def renderSegments (segments : List Segment) : String :=
  ".".intercalate (segments.map Segment.raw)

/-- A path writes segments: it is not blank, and it consists of them and the points between them,
after the name of the feature root and a point if it begins so. -/
structure Writes (path : String) (segments : List Segment) : Prop where
  visible : ∃ c ∈ path.toList, isBlank c = false
  nonempty : segments ≠ []
  written : ∀ segment ∈ segments, segment.Written
  unpointed : ∀ segment ∈ segments, '.' ∉ segment.raw.toList
  text : path = featureRoot ++ "." ++ renderSegments segments ∨
    path = renderSegments segments ∧ ∀ rest, path ≠ featureRoot ++ "." ++ rest

theorem relative_root (rest : String) :
    relative (featureRoot ++ "." ++ rest).toList = rest.toList := by
  have text : (featureRoot ++ "." ++ rest).toList = (featureRoot.toList ++ ['.']) ++ rest.toList := by
    simp
  rw [text, relative]
  rw [if_pos (List.isPrefixOf_iff_prefix.mpr (List.prefix_append _ _)), List.drop_left]

theorem relative_other {path : String} (apart : ∀ rest, path ≠ featureRoot ++ "." ++ rest) :
    relative path.toList = path.toList := by
  rw [relative, if_neg]
  intro begins
  obtain ⟨rest, parted⟩ := List.isPrefixOf_iff_prefix.mp begins
  apply apart (String.ofList rest)
  apply String.toList_injective
  rw [← parted]
  simp

theorem relative_eq_iff {path rest : String} :
    relative path.toList = rest.toList ↔
      path = featureRoot ++ "." ++ rest ∨
        path = rest ∧ ∀ other, path ≠ featureRoot ++ "." ++ other := by
  by_cases begins : ∃ other, path = featureRoot ++ "." ++ other
  · obtain ⟨other, rfl⟩ := begins
    rw [relative_root, String.toList_inj]
    constructor
    · rintro rfl
      exact .inl rfl
    · rintro (same | ⟨-, apart⟩)
      · exact (String.append_right_inj _).mp same
      · exact absurd rfl (apart other)
  · have apart : ∀ other, path ≠ featureRoot ++ "." ++ other := not_exists.mp begins
    rw [relative_other apart, String.toList_inj]
    constructor
    · exact fun same => .inr ⟨same, apart⟩
    · rintro (same | ⟨same, -⟩)
      · exact absurd same (apart rest)
      · exact same

/-- The segments of a path are those that it writes. -/
theorem segments_eq_ok {path : String} {found : List Segment} :
    segments path = .ok found ↔ Writes path found := by
  have text : (renderSegments found).toList =
      ['.'].intercalate (found.map fun segment => segment.raw.toList) := by
    rw [renderSegments, String.toList_intercalate, List.map_map]
    rfl
  have shown : isBlankText path = false ↔ ∃ c ∈ path.toList, isBlank c = false := by
    rw [isBlankText, List.all_eq_false]
    simp
  rw [segments]
  split
  · rename_i blank
    constructor
    · nofun
    · intro writes
      rw [shown.mpr writes.visible] at blank
      contradiction
  · rename_i visible
    rw [Segment.mapM_ofText, piecesAt_eq_iff, ← text, relative_eq_iff]
    constructor
    · rintro ⟨⟨nonempty, unpointed, whole⟩, written⟩
      refine ⟨shown.mp (Bool.eq_false_iff.mpr visible), ?_, written, ?_, whole⟩
      · exact fun empty => nonempty (by rw [empty, List.map_nil])
      · exact fun segment member => unpointed _ (List.mem_map_of_mem member)
    · intro writes
      refine ⟨⟨?_, ?_, writes.text⟩, writes.written⟩
      · exact fun empty => writes.nonempty (List.map_eq_nil_iff.mp empty)
      · intro piece member
        obtain ⟨segment, held, rfl⟩ := List.mem_map.mp member
        exact writes.unpointed segment held

end Rulebook.Path
