import Rulebook.Proofs.Features.Navigation

/-! Paths that are refused for the way they are written.

A path is malformed if it is blank, or if one of its segments is empty or has brackets that are no
subscript behind a key. Just these paths are refused whatever the data, and with the same fault. What
stands in a subscript is read only when there is an array to look into, so that a subscript which is
no number is a fault of the path in some data and not in others. -/

namespace Rulebook

namespace Path

namespace Segment

def BadBrackets (text : List Char) : Prop :=
  (∃ c ∈ text, isBracket c = true) ∧
    ∀ key index : List Char, key ≠ [] → (∀ c ∈ key, isBracket c = false) →
      (∀ c ∈ index, isBracket c = false) → text ≠ key ++ '[' :: (index ++ [']'])

def Unreadable (segment : Segment) : Prop :=
  ∃ index, segment.index = some index ∧ ∀ number, ¬ Denotes index number

theorem ofText_fails {text : List Char} :
    (∃ fault, ofText text = .error fault) ↔ text = [] ∨ BadBrackets text := by
  constructor
  · intro refused
    rcases refused with ⟨fault, refused⟩
    by_cases empty : text = []
    · exact .inl empty
    · refine .inr ⟨?_, ?_⟩
      · by_contra no_bracket
        have plain : ∀ c ∈ text, isBracket c = false := by simpa using no_bracket
        rw [ofText_plain empty plain] at refused
        contradiction
      · intro key index nonempty plain plain_index same
        rw [same, ofText_indexed nonempty plain plain_index] at refused
        contradiction
  · intro malformed
    cases read : ofText text with
    | error fault => exact ⟨fault, rfl⟩
    | ok segment =>
        rcases written_of_ofText read with ⟨⟨nonempty, plain, plain_index, raw⟩, same⟩
        have filled : segment.key.toList ≠ [] := fun none =>
          nonempty (String.toList_eq_nil_iff.mp none)
        rw [raw, String.toList_append] at same
        rcases malformed with rfl | ⟨⟨c, member, bracket⟩, no_subscript⟩
        · exact absurd (List.append_eq_nil_iff.mp same).1 filled
        · cases at_index : segment.index with
          | none =>
              rw [at_index, renderIndex, String.toList_empty, List.append_nil] at same
              rw [← same] at member
              rw [plain c member] at bracket
              contradiction
          | some index =>
              have subscript : text = segment.key.toList ++ '[' :: (index.toList ++ [']']) := by
                rw [← same, at_index]
                simp [renderIndex]
              exact absurd subscript
                (no_subscript _ _ filled plain (plain_index index at_index))

theorem Unreadable.of_position? {segment : Segment} {index : String}
    (at_index : segment.index = some index) (read : position? index = none) :
    segment.Unreadable := by
  refine ⟨index, at_index, ?_⟩
  intro number denotes
  rw [position?_eq_some.mpr denotes] at read
  contradiction

theorem Unreadable.not_enters {segment : Segment} (unreadable : segment.Unreadable)
    {node next : Json} : ¬ segment.Enters node next := by
  rcases unreadable with ⟨index, at_index, no_number⟩
  intro enters
  cases enters with
  | entry => contradiction
  | element held denotes item =>
      cases at_index
      exact no_number _ denotes

end Segment

/-- A path that is blank, or has a segment that is empty or not of either form. Segments stand
between the points, behind the name of the feature root and its point if the path begins so. -/
def Malformed (path : String) : Prop :=
  (∀ c ∈ path.toList, isBlank c = true) ∨
    ∃ text ∈ (relative path.toList).splitOn '.', text = [] ∨ Segment.BadBrackets text

theorem segments_fails {path : String} :
    (∃ fault, segments path = .error fault) ↔ Malformed path := by
  rw [segments, Malformed]
  split
  · rename_i blank
    exact iff_of_true ⟨_, rfl⟩ (.inl (List.all_eq_true.mp blank))
  · rename_i visible
    have visible : ¬ ∀ c ∈ path.toList, isBlank c = true := fun blank =>
      visible (List.all_eq_true.mpr blank)
    rw [mapM_fails, piecesAt_eq_splitOn, or_iff_right visible]
    simp only [Segment.ofText_fails]

variable {node final : Json} {before after : List Segment} {segment : Segment}

/-- Any segments come to nothing in some data, which is made from their end. -/
theorem exists_comesToNothing {segments : List Segment} (nonempty : segments ≠ []) :
    ∃ entries, ComesToNothing (.object entries) segments := by
  induction segments with
  | nil => contradiction
  | cons segment rest ih =>
      rcases segment with ⟨raw, key, index⟩
      cases index with
      | some index => exact ⟨[], .lacking (.array (.inl rfl)) nofun⟩
      | none =>
          by_cases last : rest = []
          · exact ⟨[], .lacking (.entry rfl) fun _ => last⟩
          · rcases ih last with ⟨entries, nothing⟩
            have held : [(key, Json.object entries)].lookup key = some (.object entries) :=
              List.lookup_cons_self
            exact ⟨_, .onward (.entry held) rfl nothing⟩

theorem not_leadsTo_of_unreadable (unreadable : segment.Unreadable) :
    ¬ LeadsTo node (before ++ segment :: after) final := by
  intro leads
  induction before generalizing node with
  | nil =>
      cases leads with
      | onward enters => exact unreadable.not_enters enters
  | cons first before ih =>
      cases leads with
      | onward enters present further => exact ih further

theorem comesToNothing_of_unreadable (unreadable : segment.Unreadable) :
    ComesToNothing node (before ++ segment :: after) ↔
      ComesToNothing node (before ++ [segment]) := by
  have indexed : segment.index ≠ none := by
    rcases unreadable with ⟨index, at_index, -⟩
    simp [at_index]
  induction before generalizing node with
  | nil =>
      constructor
      · intro nothing
        cases nothing with
        | lacking lacks last => exact .lacking lacks fun _ => rfl
        | onward enters => exact absurd enters unreadable.not_enters
      · intro nothing
        cases nothing with
        | lacking lacks last => exact .lacking lacks fun plain => absurd plain indexed
        | onward enters => exact absurd enters unreadable.not_enters
  | cons first before ih =>
      constructor
      · intro nothing
        cases nothing with
        | lacking lacks last => exact .lacking lacks fun plain => by simpa using last plain
        | onward enters present further => exact .onward enters present (ih.mp further)
      · intro nothing
        cases nothing with
        | lacking lacks last => exact .lacking lacks fun plain => by simpa using last plain
        | onward enters present further => exact .onward enters present (ih.mpr further)

end Path

namespace Features

open Rulebook.Path (Malformed Segment)

theorem find_of_malformed {path : String} (malformed : Malformed path) :
    ∃ fault, ∀ features : Features, features.find path = .error (.invalidPath path fault) := by
  rcases Path.segments_fails.mpr malformed with ⟨fault, refused⟩
  refine ⟨fault, ?_⟩
  intro features
  rw [find, refused]
  rfl

theorem exists_find {path : String} (formed : ¬ Malformed path) :
    ∃ features : Features, features.find path = .ok none := by
  cases read : Path.segments path with
  | error fault => exact absurd (Path.segments_fails.mp ⟨fault, read⟩) formed
  | ok segments =>
      have writes := Path.segments_eq_ok.mp read
      rcases Path.exists_comesToNothing writes.nonempty with ⟨entries, nothing⟩
      exact ⟨⟨.object entries⟩, find_eq_none.mpr ⟨segments, writes, nothing⟩⟩

/-- A malformed path is refused with the same fault in all data, and no other path is refused in all
data. A path that has a subscript which is no number is refused unless, in this subscript or before
it, it asks for an array that is not there; then it comes to nothing. -/
theorem malformed_refused (path : String) :
    (Malformed path →
      ∃ fault, ∀ features : Features, features.find path = .error (.invalidPath path fault)) ∧
    (¬ Malformed path → ∃ features : Features, features.find path = .ok none) ∧
    ∀ before segment after, Path.Writes path (before ++ segment :: after) → segment.Unreadable →
      ∀ features : Features,
        (Path.ComesToNothing features.data (before ++ [segment]) → features.find path = .ok none) ∧
        (¬ Path.ComesToNothing features.data (before ++ [segment]) →
          ∃ fault, features.find path = .error (.invalidPath path fault)) := by
  refine ⟨find_of_malformed, exists_find, ?_⟩
  intro before segment after writes unreadable features
  have cut : Path.ComesToNothing features.data (before ++ segment :: after) ↔
      Path.ComesToNothing features.data (before ++ [segment]) :=
    Path.comesToNothing_of_unreadable unreadable
  rw [← cut]
  constructor
  · intro nothing
    exact find_eq_none.mpr ⟨_, writes, nothing⟩
  · intro something
    have same : ∀ segments, Path.Writes path segments → segments = before ++ segment :: after := by
      intro segments others
      have read := Path.segments_eq_ok.mpr others
      rw [Path.segments_eq_ok.mpr writes] at read
      exact (Except.ok.inj read).symm
    cases result : features.find path with
    | error failure =>
        rcases find_error result with ⟨fault, rfl⟩
        exact ⟨fault, rfl⟩
    | ok found =>
        cases found with
        | none =>
            rcases find_eq_none.mp result with ⟨segments, others, nothing⟩
            rw [same segments others] at nothing
            exact absurd nothing something
        | some node =>
            rcases find_eq_some.mp result with ⟨segments, others, leads⟩
            rw [same segments others] at leads
            exact absurd leads (Path.not_leadsTo_of_unreadable unreadable)

def shops : Features :=
  ⟨.object [("shops", .array [.object [("articles", .array [])], .object []])]⟩

def shopSegment (shop : String) : Segment := ⟨"shops[" ++ shop ++ "]", "shops", some shop⟩

def badArticle : Segment := ⟨"articles[x]", "articles", some "x"⟩

def priceSegment : Segment := ⟨"price", "price", none⟩

/-- An empty segment is a fault in all data. The subscript is one only in the shop with articles. -/
theorem badArticle_refused :
    (∃ fault, ∀ features : Features,
      features.find "shops..articles" = .error (.invalidPath "shops..articles" fault)) ∧
    (∃ fault, shops.find "shops[0].articles[x].price" =
      .error (.invalidPath "shops[0].articles[x].price" fault)) ∧
    shops.find "shops[1].articles[x].price" = .ok none := by
  have unreadable : badArticle.Unreadable := .of_position? rfl (by decide +kernel)
  refine ⟨?_, ?_, ?_⟩
  · apply (malformed_refused "shops..articles").1
    exact .inr ⟨[], by decide +kernel, .inl rfl⟩
  · have writes : Path.Writes "shops[0].articles[x].price"
        ([shopSegment "0"] ++ badArticle :: [priceSegment]) :=
      Path.segments_eq_ok.mp (by decide +kernel)
    apply ((malformed_refused _).2.2 _ _ _ writes unreadable shops).2
    have stuck : Path.follow "" shops.data ([shopSegment "0"] ++ [badArticle]) =
        .error (.badIndex "x") := rfl
    intro nothing
    rw [Path.follow_eq_none.mpr nothing] at stuck
    contradiction
  · have writes : Path.Writes "shops[1].articles[x].price"
        ([shopSegment "1"] ++ badArticle :: [priceSegment]) :=
      Path.segments_eq_ok.mp (by decide +kernel)
    apply ((malformed_refused _).2.2 _ _ _ writes unreadable shops).1
    have nothing : Path.follow "" shops.data ([shopSegment "1"] ++ [badArticle]) = .ok none := rfl
    exact Path.follow_eq_none.mp nothing

/-- A subscript that is no number passes where there is no array to look into. -/
theorem badIndex_passes :
    Path.Writes "items[x]" [⟨"items[x]", "items", some "x"⟩] ∧
      Segment.Unreadable ⟨"items[x]", "items", some "x"⟩ ∧
      Features.empty.find "items[x]" = .ok none ∧
      Features.find ⟨.object [("items", .array [])]⟩ "items[x]" =
        .error (.invalidPath "items[x]" (.badIndex "x")) := by
  have writes : Path.Writes "items[x]" [⟨"items[x]", "items", some "x"⟩] :=
    Path.segments_eq_ok.mp (by decide +kernel)
  exact ⟨writes, .of_position? rfl (by decide +kernel), rfl, rfl⟩

end Features
end Rulebook
