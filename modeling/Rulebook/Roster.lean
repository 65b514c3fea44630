/-!
Rosters: items under distinct names, in the order in which the names were first entered. Entering
an item under a name that is already there replaces the old item in its place.
-/

namespace Rulebook

structure Roster {α κ : Type} (key : α → κ) where
  items : List α
  nodup : (items.map key).Nodup

namespace Roster

variable {α κ : Type} {key : α → κ}

def empty (key : α → κ) : Roster key := ⟨[], List.nodup_nil⟩

instance : Inhabited (Roster key) := ⟨empty key⟩

def keys (roster : Roster key) : List κ := roster.items.map key

def size (roster : Roster key) : Nat := roster.items.length

variable [DecidableEq κ]

def get? (roster : Roster key) (k : κ) : Option α :=
  roster.items.find? fun item => key item = k

def contains (roster : Roster key) (k : κ) : Bool :=
  (roster.get? k).isSome

def enter (key : α → κ) (item : α) : List α → List α
  | [] => [item]
  | old :: rest => if key old = key item then item :: rest else old :: enter key item rest

theorem map_enter (item : α) (items : List α) :
    (enter key item items).map key =
      if key item ∈ items.map key then items.map key else items.map key ++ [key item] := by
  induction items with
  | nil => simp [enter]
  | cons old rest ih =>
      by_cases h : key old = key item
      · simp [enter, h]
      · have h' : key item ≠ key old := fun e => h e.symm
        by_cases m : key item ∈ rest.map key
        · simp [enter, h, h', ih, m]
        · simp [enter, h, h', ih, m]

theorem nodup_enter (item : α) (items : List α) (h : (items.map key).Nodup) :
    ((enter key item items).map key).Nodup := by
  rw [map_enter]
  split
  · exact h
  · rename_i absent
    refine List.nodup_append.2 ⟨h, by simp, ?_⟩
    intro a present b single
    rw [List.mem_singleton] at single
    subst single
    exact fun e => absent (e ▸ present)

def put (roster : Roster key) (item : α) : Roster key :=
  ⟨enter key item roster.items, nodup_enter item roster.items roster.nodup⟩

def ofList (key : α → κ) (items : List α) : Roster key :=
  items.foldl put (empty key)

def erase (roster : Roster key) (k : κ) : Roster key :=
  ⟨roster.items.filter fun item => key item ≠ k,
    roster.nodup.sublist (List.filter_sublist.map key)⟩

theorem keys_put (roster : Roster key) (item : α) :
    (roster.put item).keys =
      if key item ∈ roster.keys then roster.keys else roster.keys ++ [key item] :=
  map_enter item roster.items

end Roster

abbrev Directory (α : Type) := Roster (Prod.fst : String × α → String)

namespace Directory

variable {α : Type}

def lookup? (directory : Directory α) (name : String) : Option α :=
  (Roster.get? directory name).map Prod.snd

def insert (directory : Directory α) (name : String) (value : α) : Directory α :=
  Roster.put directory (name, value)

end Directory

/-- Puts a name where it belongs in an ascending list, unless it is there. Names are ordered by code
points, which is also the order of their UTF-8 bytes. -/
def insertName (name : String) : List String → List String
  | [] => [name]
  | first :: rest =>
    if name < first then name :: first :: rest
    else if name = first then first :: rest
    else first :: insertName name rest

def sortedNames (names : List String) : List String :=
  names.foldr insertName []

theorem mem_insertName {name x : String} {names : List String} :
    x ∈ insertName name names ↔ x = name ∨ x ∈ names := by
  induction names with
  | nil => simp [insertName]
  | cons first rest ih =>
      unfold insertName
      split
      · simp
      · split
        · rename_i same
          simp [same]
        · simp only [List.mem_cons, ih]
          exact or_left_comm

theorem mem_sortedNames {x : String} {names : List String} :
    x ∈ sortedNames names ↔ x ∈ names := by
  induction names with
  | nil => simp [sortedNames]
  | cons name rest ih =>
      rw [show sortedNames (name :: rest) = insertName name (sortedNames rest) from rfl,
        mem_insertName, ih, List.mem_cons]

end Rulebook
