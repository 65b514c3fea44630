import Mathlib.Data.List.Induction
import Mathlib.Data.List.Nodup
import Rulebook.Roster

namespace Rulebook

section

variable {κ : Type} [DecidableEq κ]

theorem eraseDups_concat (entries : List κ) (last : κ) :
    (entries ++ [last]).eraseDups =
      if last ∈ entries then entries.eraseDups else entries.eraseDups ++ [last] := by
  rw [List.eraseDups_append]
  by_cases present : last ∈ entries
  · simp [List.removeAll, present]
  · simp [List.removeAll, present, List.eraseDups_cons]

theorem nodup_eraseDups (entries : List κ) : entries.eraseDups.Nodup := by
  induction entries using List.reverseRecOn with
  | nil => exact List.nodup_nil
  | append_singleton entries last ih =>
      rw [eraseDups_concat]
      split
      · exact ih
      · rename_i absent
        rw [← List.concat_eq_append]
        exact List.Nodup.concat (fun member => absent (List.mem_eraseDups.mp member)) ih

end

namespace Roster

variable {α κ : Type} {key : α → κ} [DecidableEq κ]

omit [DecidableEq κ] in
theorem eq_of_items {roster other : Roster key} (same : roster.items = other.items) :
    roster = other := by
  rcases roster with ⟨items, nodup⟩
  cases same
  rfl

theorem get?_eq_some {roster : Roster key} {k : κ} {item : α} :
    roster.get? k = some item ↔ item ∈ roster.items ∧ key item = k := by
  rcases roster with ⟨items, nodup⟩
  simp only [get?]
  induction items with
  | nil => simp
  | cons first rest ih =>
      rcases List.nodup_cons.mp nodup with ⟨absent, distinct⟩
      rw [List.find?_cons]
      by_cases same : key first = k
      · simp only [same, decide_true, Option.some.injEq, List.mem_cons]
        constructor
        · intro same_item
          subst same_item
          exact ⟨.inl rfl, same⟩
        · intro held
          rcases held with ⟨rfl | present, at_key⟩
          · rfl
          · exact absurd (List.mem_map.mpr ⟨item, present, at_key.trans same.symm⟩) absent
      · simp only [same, decide_false, List.mem_cons]
        rw [ih distinct]
        constructor
        · intro found
          rcases found with ⟨present, at_key⟩
          exact ⟨.inr present, at_key⟩
        · intro held
          rcases held with ⟨rfl | present, at_key⟩
          · exact absurd at_key same
          · exact ⟨present, at_key⟩

theorem get?_eq_none {roster : Roster key} {k : κ} : roster.get? k = none ↔ k ∉ roster.keys := by
  simp [get?, keys, List.find?_eq_none]

theorem get?_ne_none {roster : Roster key} {k : κ} : roster.get? k ≠ none ↔ k ∈ roster.keys := by
  rw [ne_eq, get?_eq_none, Classical.not_not]

theorem contains_iff {roster : Roster key} {k : κ} :
    roster.contains k = true ↔ k ∈ roster.keys := by
  rw [contains, Option.isSome_iff_ne_none, get?_ne_none]

theorem find?_enter (item : α) (items : List α) (k : κ) :
    ((enter key item items).find? fun other => key other = k) =
      if key item = k then some item else items.find? fun other => key other = k := by
  induction items with
  | nil => by_cases same : key item = k <;> simp [enter, same]
  | cons first rest ih =>
      rw [enter]
      by_cases replaced : key first = key item
      · by_cases same : key item = k
        · simp [replaced, same]
        · simp [replaced, same]
      · rw [if_neg replaced, List.find?_cons, List.find?_cons, ih]
        by_cases same : key first = k
        · have other : key item ≠ k := fun h => replaced (same.trans h.symm)
          simp [same, other]
        · simp [same]

theorem get?_put (roster : Roster key) (item : α) (k : κ) :
    (roster.put item).get? k = if key item = k then some item else roster.get? k :=
  find?_enter item roster.items k

theorem enter_fresh {item : α} {items : List α} (fresh : key item ∉ items.map key) :
    enter key item items = items ++ [item] := by
  induction items with
  | nil => rfl
  | cons first rest ih =>
      simp only [List.map_cons, List.mem_cons, not_or] at fresh
      rw [enter, if_neg fun h => fresh.1 h.symm, ih fresh.2, List.cons_append]

theorem items_put {roster : Roster key} {item : α} (fresh : key item ∉ roster.keys) :
    (roster.put item).items = roster.items ++ [item] :=
  enter_fresh fresh

theorem items_foldl_put {items : List α} {start : Roster key}
    (distinct : (start.keys ++ items.map key).Nodup) :
    (items.foldl put start).items = start.items ++ items := by
  induction items generalizing start with
  | nil => exact (List.append_nil _).symm
  | cons first rest ih =>
      have fresh : key first ∉ start.keys := fun member =>
        List.disjoint_of_nodup_append distinct member List.mem_cons_self
      have keys : (start.put first).keys = start.keys ++ [key first] := by
        rw [keys_put, if_neg fresh]
      rw [List.foldl_cons, ih, items_put fresh, List.append_assoc, List.singleton_append]
      rwa [keys, List.append_assoc]

theorem items_ofList {items : List α} (distinct : (items.map key).Nodup) :
    (ofList key items).items = items :=
  items_foldl_put distinct

theorem ofList_items (roster : Roster key) : ofList key roster.items = roster :=
  eq_of_items (items_ofList roster.nodup)

theorem ofList_concat (items : List α) (item : α) :
    ofList key (items ++ [item]) = (ofList key items).put item :=
  List.foldl_concat put _ item items

theorem keys_ofList (items : List α) : (ofList key items).keys = (items.map key).eraseDups := by
  induction items using List.reverseRecOn with
  | nil => rfl
  | append_singleton items item ih =>
      rw [ofList_concat, keys_put, ih, List.map_append, List.map_singleton, eraseDups_concat]
      simp only [List.mem_eraseDups]

theorem get?_ofList (items : List α) (k : κ) :
    (ofList key items).get? k = items.reverse.find? fun item => key item = k := by
  induction items using List.reverseRecOn with
  | nil => rfl
  | append_singleton items item ih =>
      rw [ofList_concat, get?_put, ih, List.reverse_concat, List.find?_cons]
      by_cases same : key item = k
      · simp [same]
      · simp [same]

section

variable {β : Type} {seen : β → κ} {view : α → β} (keyed : ∀ item, seen (view item) = key item)

include keyed

theorem map_view_enter (item : α) (items : List α) :
    (enter key item items).map view = enter seen (view item) (items.map view) := by
  induction items with
  | nil => rfl
  | cons first rest ih =>
      rw [enter, List.map_cons, enter, keyed, keyed]
      split
      · rfl
      · rw [List.map_cons, ih]

/-- Entering items and then looking at them in another way, in which they have the same keys, comes
to the same as entering what is seen. -/
theorem map_view_ofList (items : List α) :
    (ofList key items).items.map view = (ofList seen (items.map view)).items := by
  induction items using List.reverseRecOn with
  | nil => rfl
  | append_singleton items item ih =>
      rw [List.map_append, List.map_singleton, ofList_concat, ofList_concat, put, put,
        map_view_enter keyed, ih]

end

omit [DecidableEq κ] in
def paired (roster : Roster key) : Roster (Prod.fst : κ × α → κ) where
  items := roster.items.map fun item => (key item, item)
  nodup := by
    rw [List.map_map]
    exact roster.nodup

theorem paired_put (roster : Roster key) (item : α) :
    (roster.put item).paired = roster.paired.put (key item, item) := by
  have beside (other : α) : Prod.fst (key other, other) = key other := rfl
  exact eq_of_items (map_view_enter beside item roster.items)

theorem paired_ofList (items : List α) :
    (ofList key items).paired = ofList Prod.fst (items.map fun item => (key item, item)) := by
  have beside (other : α) : Prod.fst (key other, other) = key other := rfl
  exact eq_of_items (map_view_ofList beside items)

theorem mem_of_mem_enter {item other : α} {items : List α} (member : other ∈ enter key item items) :
    other = item ∨ other ∈ items := by
  induction items with
  | nil => exact .inl (List.mem_singleton.mp member)
  | cons first rest ih =>
      rw [enter] at member
      split at member
      · rcases List.mem_cons.mp member with same | present
        · exact .inl same
        · exact .inr (List.mem_cons_of_mem first present)
      · rcases List.mem_cons.mp member with same | present
        · exact .inr (same ▸ List.mem_cons_self)
        · exact (ih present).imp_right (List.mem_cons_of_mem first)

theorem mem_of_mem_foldl_put {item : α} {items : List α} {start : Roster key}
    (member : item ∈ (items.foldl put start).items) : item ∈ start.items ∨ item ∈ items := by
  induction items generalizing start with
  | nil => exact .inl member
  | cons first rest ih =>
      rcases ih member with entered | present
      · rcases mem_of_mem_enter entered with rfl | before
        · exact .inr List.mem_cons_self
        · exact .inl before
      · exact .inr (List.mem_cons_of_mem first present)

theorem mem_of_mem_ofList {item : α} {items : List α} (member : item ∈ (ofList key items).items) :
    item ∈ items :=
  (mem_of_mem_foldl_put member).resolve_left List.not_mem_nil

theorem perm_of_get?_eq {roster other : Roster key} (same : ∀ k, roster.get? k = other.get? k) :
    roster.items.Perm other.items := by
  rw [List.perm_ext_iff_of_nodup (List.Nodup.of_map key roster.nodup)
    (List.Nodup.of_map key other.nodup)]
  intro item
  have held : ∀ items : Roster key, items.get? (key item) = some item ↔ item ∈ items.items := by
    intro items
    rw [get?_eq_some]
    exact and_iff_left rfl
  rw [← held roster, ← held other, same]

end Roster

namespace Directory

variable {α : Type}

theorem lookup?_eq_some {directory : Directory α} {name : String} {value : α} :
    directory.lookup? name = some value ↔ (name, value) ∈ directory.items := by
  rw [lookup?, Option.map_eq_some_iff]
  constructor
  · intro held
    rcases held with ⟨⟨key, found⟩, present, rfl⟩
    rcases Roster.get?_eq_some.mp present with ⟨member, rfl⟩
    exact member
  · intro member
    exact ⟨(name, value), Roster.get?_eq_some.mpr ⟨member, rfl⟩, rfl⟩

theorem lookup?_insert (directory : Directory α) (name : String) (value : α) (other : String) :
    (directory.insert name value).lookup? other =
      if name = other then some value else directory.lookup? other := by
  rw [lookup?, insert, Roster.get?_put]
  split <;> rfl

@[simp] theorem lookup?_empty (name : String) :
    Directory.lookup? (Roster.empty Prod.fst : Directory α) name = none := rfl

end Directory
end Rulebook
