import Mathlib.Data.List.Forall2
import Rulebook.Json.Fields
import Rulebook.Proofs.Json.Text

/-! What readers make of the text of a value.

A reader reads a value as something if it does so wherever the text of the value stands, and stops at
its end. Arrays and objects are read so if their items and entries are; over the entries of an object
this is an induction on the states that they lead through. -/

namespace Rulebook.Json.Reader

open JsonToken (scan)

variable {α β σ : Type} {bound wider : Nat}

def Yields (result : Except JsonFault (Reading α bound)) (item : α) (rest : List JsonToken) : Prop :=
  ∃ shorter, result = .ok ⟨item, rest, shorter⟩

theorem Yields.bind {first : Except JsonFault (Reading α bound)}
    {next : Reading α bound → Except JsonFault (Reading β wider)} {item : α} {content : β}
    {rest after : List JsonToken} (read : Yields first item rest)
    (further : ∀ shorter, Yields (next ⟨item, rest, shorter⟩) content after) :
    Yields (first >>= next) content after := by
  obtain ⟨shorter, rfl⟩ := read
  exact further shorter

def Reads (reader : Reader α) (json : Json) (item : α) : Prop :=
  ∀ after : List Char, Yields (reader (scan (json.render.toList ++ after))) item (scan after)

def ReadsBehindKey (reader : Reader α) (json : Json) (item : α) : Prop :=
  ∀ after : List Char,
    Yields (reader (scan (':' :: (json.render.toList ++ after)))) item (scan after)

theorem string_reads (content : String) : Reads string (.string content) content := by
  intro after
  rw [Json.render, JsonToken.scan_renderText]
  exact ⟨_, rfl⟩

theorem skip_reads (content : String) : Reads skip (.string content) () := by
  intro after
  rw [Json.render, JsonToken.scan_renderText]
  exact ⟨_, rfl⟩

section

variable {item : Reader α} {json : Json} {content : α}

theorem afterColon_reads (read : Reads item json content) :
    ReadsBehindKey (afterColon item) json content := by
  intro after
  rw [JsonToken.scan_mark _ .colon]
  exact (read after).bind fun _ => ⟨_, rfl⟩

theorem fill_reads (read : Reads item json content) (put : α → σ) :
    ReadsBehindKey (fill item none put) json (put content) := by
  intro after
  exact (afterColon_reads read after).bind fun _ => ⟨_, rfl⟩

theorem pass_reads (read : Reads skip json ()) (state : σ) :
    ReadsBehindKey (pass state) json state := by
  intro after
  exact (afterColon_reads read after).bind fun _ => ⟨_, rfl⟩

theorem moreItems_yields {items : List Json} {contents : List α}
    (read : List.Forall₂ (Reads item) items contents) (after : List Char) :
    Yields (moreItems item (scan (furtherItems items ++ ']' :: after))) contents (scan after) := by
  induction read with
  | nil =>
      rw [furtherItems, List.flatMap_nil, List.nil_append, JsonToken.scan_mark _ .closeArray,
        moreItems]
      exact ⟨_, rfl⟩
  | @cons first _ others _ read_first _ ih =>
      have text : furtherItems (first :: others) ++ ']' :: after =
          ',' :: (first.render.toList ++ (furtherItems others ++ ']' :: after)) := by
        simp [furtherItems]
      rw [text, JsonToken.scan_mark _ .comma, moreItems]
      exact (read_first _).bind fun _ => ih.bind fun _ => ⟨_, rfl⟩

/-- An array is read item by item, where no item can be taken for the end of it. -/
theorem items_reads (no_end : ∀ rest content left, ¬ Yields (item (.closeArray :: rest)) content left)
    {items : List Json} {contents : List α} (read : List.Forall₂ (Reads item) items contents) :
    Reads (Reader.items item) (.array items) contents := by
  intro after
  rw [scan_array]
  cases read with
  | nil =>
      rw [renderItems, String.toList_empty, List.nil_append, JsonToken.scan_mark _ .closeArray]
      exact ⟨_, rfl⟩
  | @cons first _ others _ read_first read_others =>
      rw [renderItems_cons, List.append_assoc, Reader.items]
      · exact (read_first _).bind fun _ =>
          (moreItems_yields read_others _).bind fun _ => ⟨_, rfl⟩
      · intro rest ends
        have read_end := read_first (furtherItems others ++ ']' :: after)
        rw [ends] at read_end
        exact no_end _ _ _ read_end

end

inductive Entries (entry : Entry σ) : σ → List (String × Json) → σ → Prop
  | nil (state : σ) : Entries entry state [] state
  | cons {state next final : σ} {key : String} {json : Json} {entries : List (String × Json)}
      (first : ReadsBehindKey (entry state key) json next)
      (others : Entries entry next entries final) :
      Entries entry state ((key, json) :: entries) final

section

variable {entry : Entry σ} {state final : σ} {entries : List (String × Json)}

theorem moreEntries_yields (read : Entries entry state entries final) (after : List Char) :
    Yields (moreEntries entry state (scan (furtherEntries entries ++ '\x7d' :: after))) final
      (scan after) := by
  induction read with
  | nil state =>
      rw [furtherEntries, List.flatMap_nil, List.nil_append, JsonToken.scan_mark _ .closeObject,
        moreEntries]
      exact ⟨_, rfl⟩
  | @cons state next final key json entries first others ih =>
      have text : furtherEntries ((key, json) :: entries) ++ '\x7d' :: after =
          ',' :: ((renderText key).toList ++
            ':' :: (json.render.toList ++ (furtherEntries entries ++ '\x7d' :: after))) := by
        simp [furtherEntries]
      rw [text, JsonToken.scan_mark _ .comma, JsonToken.scan_renderText, moreEntries]
      exact (first _).bind fun _ => ih.bind fun _ => ⟨_, rfl⟩

theorem object_reads (read : Entries entry state entries final) :
    Reads (object entry state) (.object entries) final := by
  intro after
  rw [scan_object]
  cases read with
  | nil =>
      rw [renderEntries, String.toList_empty, List.nil_append, JsonToken.scan_mark _ .closeObject]
      exact ⟨_, rfl⟩
  | @cons _ next _ key json others first more =>
      have behind : (renderEntries ((key, json) :: others)).toList ++ '\x7d' :: after =
          (renderText key).toList ++
            ':' :: (json.render.toList ++ (furtherEntries others ++ '\x7d' :: after)) := by
        rw [renderEntries_cons]
        simp
      rw [behind, JsonToken.scan_renderText, object]
      exact (first _).bind fun _ => (moreEntries_yields more _).bind fun _ => ⟨_, rfl⟩

end

theorem run_render {reader : Reader α} {json : Json} {content : α}
    (read : Reads reader json content) : reader.run json.render = .ok content := by
  have whole := read []
  rw [List.append_nil, scan] at whole
  obtain ⟨shorter, taken⟩ := whole
  rw [run, taken]
  rfl

end Rulebook.Json.Reader
