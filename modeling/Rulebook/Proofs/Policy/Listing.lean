import Rulebook.Policy.Document
import Rulebook.Proofs.Json.View
import Rulebook.Proofs.Roster

namespace Rulebook

open Json Json.Reader

namespace Rule

theorem names_read (names : List String) :
    Reads (items string) (.array (names.map Json.string)) names := by
  refine items_reads nofun ?_
  rw [List.forall₂_map_left_iff]
  exact List.forall₂_same.mpr fun name _ => string_reads name

def draft (rule : Rule) : Draft :=
  ⟨some rule.expression, some rule.description, some rule.dependencies⟩

theorem draft_reads (rule : Rule) : Reads Draft.reader rule.toJson rule.draft := by
  have passed : ReadsBehindKey (Draft.entry {} "name") (.string rule.name) {} :=
    pass_reads (skip_reads rule.name) ({} : Draft)
  have expression : ReadsBehindKey (Draft.entry {} "expression") (.string rule.expression)
      ⟨some rule.expression, none, none⟩ :=
    fill_reads (string_reads rule.expression) _
  have description : ReadsBehindKey (Draft.entry ⟨some rule.expression, none, none⟩ "description")
      (.string rule.description) ⟨some rule.expression, some rule.description, none⟩ :=
    fill_reads (string_reads rule.description) _
  have dependencies : ReadsBehindKey
      (Draft.entry ⟨some rule.expression, some rule.description, none⟩ "dependencies")
      (.array (rule.dependencies.map Json.string)) rule.draft :=
    fill_reads (names_read rule.dependencies) _
  intro after
  have whole := object_reads
    (.cons passed (.cons expression (.cons description (.cons dependencies (.nil _))))) after
  rw [scan_object] at whole
  rw [toJson, scan_object]
  exact whole

end Rule

namespace Policy

/-- A policy as a document gives it. Each rule stands as often as it is defined, under its key. -/
structure Listing where
  name : String
  description : String
  version : String
  rules : List (String × Rule.Draft)

namespace Listing

structure Draft where
  name : Option String := none
  description : Option String := none
  version : Option String := none
  rules : Option (List (String × Rule.Draft)) := none

def Draft.complete (draft : Draft) : Except JsonFault Listing :=
  match draft.name with
  | none => .error .mismatched
  | some name =>
    .ok ⟨name, draft.description.getD "", draft.version.getD "", draft.rules.getD []⟩

def ruleEntry : Entry (List (String × Rule.Draft)) := fun rules key tokens => do
  let draft ← afterColon Rule.Draft.reader tokens
  return draft.map fun draft => rules ++ [(key, draft)]

def rulesReader : Json.Reader (List (String × Rule.Draft)) := object ruleEntry []

def Draft.entry : Entry Draft := fun draft key =>
  match key with
  | "name" | "policyName" => fill string draft.name fun text => { draft with name := some text }
  | "description" => fill string draft.description fun text => { draft with description := some text }
  | "version" => fill string draft.version fun text => { draft with version := some text }
  | "rules" => fill rulesReader draft.rules fun rules => { draft with rules := some rules }
  | _ => pass draft

def reader : Json.Reader Listing
  | .openArray :: rest => do
    let name ← nextItem true string rest
    if name.item.isNone then throw .mismatched
    let description ← nextItem false string name.rest
    let version ← nextItem false string description.rest
    let rules ← nextItem false rulesReader version.rest
    let listing ← Draft.complete ⟨name.item, description.item, version.item, rules.item⟩
    let ending ← arrayEnd rules.rest
    let whole := ending.map fun _ => listing
    return name.within (description.within (version.within (rules.within whole.behind)))
  | tokens => do
    let draft ← object Draft.entry {} tokens
    let listing ← draft.item.complete
    return draft.map fun _ => listing

def ofText (text : String) : Except JsonFault Listing := reader.run text

def definitions (listing : Listing) : List Rule :=
  listing.rules.map fun (key, draft) => draft.complete key

def gather (rules : List (String × Rule.Draft)) : Roster Rule.name :=
  Roster.ofList Rule.name (rules.map fun (key, draft) => draft.complete key)

def policy (listing : Listing) : Policy :=
  ⟨listing.name, listing.description, listing.version, gather listing.rules⟩

def Draft.gathered (draft : Draft) : Policy.Draft :=
  ⟨draft.name, draft.description, draft.version, draft.rules.map gather⟩

theorem complete_gathered (draft : Draft) :
    draft.gathered.complete = policy <$> draft.complete := by
  rcases draft with ⟨_ | name, description, version, _ | rules⟩ <;> rfl

theorem gather_concat (rules : List (String × Rule.Draft)) (key : String) (draft : Rule.Draft) :
    gather (rules ++ [(key, draft)]) = (gather rules).put (draft.complete key) := by
  rw [gather, List.map_append]
  exact Roster.ofList_concat _ _

theorem rulesReader_sees : Sees gather rulesReader Policy.rulesReader := by
  refine object_sees ?_ []
  intro rules key tokens
  rw [Policy.ruleEntry, ruleEntry, map_bind]
  apply bind_congr
  intro draft
  simp only [map_pure, Rulebook.Reading.map, gather_concat]

theorem entry_sees (draft : Draft) (key : String) :
    Sees Draft.gathered (Draft.entry draft key) (Policy.Draft.entry draft.gathered key) := by
  unfold Draft.entry
  split
  · exact fill_sees (sees_self string) rfl fun _ => rfl
  · exact fill_sees (sees_self string) rfl fun _ => rfl
  · exact fill_sees (sees_self string) rfl fun _ => rfl
  · exact fill_sees (sees_self string) rfl fun _ => rfl
  · exact fill_sees rulesReader_sees Option.isSome_map fun _ => rfl
  · rw [Policy.Draft.entry]
    · exact pass_sees draft
    all_goals assumption

theorem reader_sees : Sees policy reader Policy.reader := by
  intro tokens
  by_cases opened : ∃ rest, tokens = .openArray :: rest
  · -- Fields by place: up to the rules both read the same, and the name is there before that.
    obtain ⟨rest, rfl⟩ := opened
    rw [Policy.reader, reader, map_bind]
    apply bind_congr
    intro read
    rcases read with ⟨name, left, shorter⟩
    cases name with
    | none => rfl
    | some name =>
        simp only [Option.isNone_some, Bool.false_eq_true, if_false]
        rw [map_bind]
        apply bind_congr
        intro description
        rw [map_bind]
        apply bind_congr
        intro version
        rw [map_bind, nextItem_sees rulesReader_sees, bind_map_left]
        apply bind_congr
        intro rules
        change ((Draft.gathered
          ⟨some name, description.item, version.item, rules.item⟩).complete >>= _) = _
        rw [complete_gathered, bind_map_left, map_bind]
        apply bind_congr
        intro listing
        rw [map_bind]
        rfl
  · -- Fields by name: each entry leads to the gathered draft.
    have unopened : ∀ rest, tokens ≠ .openArray :: rest := fun rest same => opened ⟨rest, same⟩
    rw [Policy.reader, reader, map_bind]
    · change (object Policy.Draft.entry (Draft.gathered {}) tokens >>= _) = _
      rw [object_sees entry_sees, bind_map_left]
      apply bind_congr
      intro draft
      change (draft.item.gathered.complete >>= _) = _
      rw [complete_gathered, bind_map_left, map_bind]
      rfl
    · exact unopened
    · exact unopened

/-- A document that defines rules under keys. A key can stand more than once, and need not be the
name that is written with the rule. -/
def document (name description version : String) (rules : List (String × Rule)) : Json :=
  .object [("name", .string name), ("description", .string description),
    ("version", .string version),
    ("rules", .object (rules.map fun (key, rule) => (key, rule.toJson)))]

theorem rules_entries (rules : List (String × Rule)) (before : List (String × Rule.Draft)) :
    Entries ruleEntry before (rules.map fun (key, rule) => (key, rule.toJson))
      (before ++ rules.map fun (key, rule) => (key, rule.draft)) := by
  induction rules generalizing before with
  | nil =>
      rw [List.map_nil, List.map_nil, List.append_nil]
      exact .nil before
  | cons first others ih =>
      rcases first with ⟨key, rule⟩
      have further := ih (before ++ [(key, rule.draft)])
      rw [List.append_assoc] at further
      refine .cons ?_ further
      intro after
      exact (afterColon_reads rule.draft_reads after).bind fun _ => ⟨_, rfl⟩

/-- A document is read definition by definition, and the names written with the rules do not count. -/
theorem document_reads (name description version : String) (rules : List (String × Rule)) :
    Reads reader (document name description version rules)
      ⟨name, description, version, rules.map fun (key, rule) => (key, rule.draft)⟩ := by
  have named : ReadsBehindKey (Draft.entry {} "name") (.string name) ⟨some name, none, none, none⟩ :=
    fill_reads (string_reads name) _
  have described : ReadsBehindKey (Draft.entry ⟨some name, none, none, none⟩ "description")
      (.string description) ⟨some name, some description, none, none⟩ :=
    fill_reads (string_reads description) _
  have versioned : ReadsBehindKey
      (Draft.entry ⟨some name, some description, none, none⟩ "version") (.string version)
      ⟨some name, some description, some version, none⟩ :=
    fill_reads (string_reads version) _
  have listed : ReadsBehindKey
      (Draft.entry ⟨some name, some description, some version, none⟩ "rules")
      (.object (rules.map fun (key, rule) => (key, rule.toJson)))
      ⟨some name, some description, some version,
        some (rules.map fun (key, rule) => (key, rule.draft))⟩ :=
    fill_reads (object_reads (rules_entries rules [])) _
  intro after
  have whole := object_reads
    (.cons named (.cons described (.cons versioned (.cons listed (.nil _))))) after
  rw [scan_object] at whole
  rw [document, scan_object]
  exact whole.bind fun _ => ⟨_, rfl⟩

end Listing
end Policy
end Rulebook
