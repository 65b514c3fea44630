import Rulebook.Json.Fields
import Rulebook.Policy

/-!
Policies as JSON documents.

A document is written with the fields of a policy in a fixed order and the rules by name. It is
read with fields in any order, or as an array of them in that order; fields but the name of the
policy may be left out and others are passed over. The name of a rule is the key it stands under.
-/

namespace Rulebook

namespace Rule

structure Draft where
  expression : Option String := none
  description : Option String := none
  dependencies : Option (List String) := none

def Draft.complete (draft : Draft) (name : String) : Rule :=
  ⟨name, draft.expression.getD "", draft.description.getD "", draft.dependencies.getD []⟩

open Json Json.Reader

def Draft.entry : Entry Draft := fun draft key =>
  match key with
  | "expression" => fill string draft.expression fun text => { draft with expression := some text }
  | "description" => fill string draft.description fun text => { draft with description := some text }
  | "dependencies" =>
    fill (items string) draft.dependencies fun names => { draft with dependencies := some names }
  | _ => pass draft

def Draft.reader : Json.Reader Draft
  | .openArray :: rest => do
    let expression ← nextItem true string rest
    let description ← nextItem false string expression.rest
    let dependencies ← nextItem false (items string) description.rest
    let ending ← arrayEnd dependencies.rest
    let draft := ending.map fun _ => ⟨expression.item, description.item, dependencies.item⟩
    return expression.within (description.within (dependencies.within draft.behind))
  | tokens => object Draft.entry {} tokens

def toJson (rule : Rule) : Json :=
  .object [("name", .string rule.name), ("expression", .string rule.expression),
    ("description", .string rule.description),
    ("dependencies", .array (rule.dependencies.map Json.string))]

end Rule

namespace Policy

structure Draft where
  name : Option String := none
  description : Option String := none
  version : Option String := none
  rules : Option (Roster Rule.name) := none

open Json Json.Reader

def Draft.complete (draft : Draft) : Except JsonFault Policy :=
  match draft.name with
  | none => .error .mismatched
  | some name =>
    .ok ⟨name, draft.description.getD "", draft.version.getD "",
      draft.rules.getD (Roster.empty Rule.name)⟩

def ruleEntry : Entry (Roster Rule.name) := fun rules name tokens => do
  let draft ← afterColon Rule.Draft.reader tokens
  return draft.map fun draft => rules.put (draft.complete name)

/-- Reads rules by name. The last one of a name counts, in the place of the first. -/
def rulesReader : Json.Reader (Roster Rule.name) := object ruleEntry (Roster.empty Rule.name)

def Draft.entry : Entry Draft := fun draft key =>
  match key with
  | "name" | "policyName" => fill string draft.name fun text => { draft with name := some text }
  | "description" => fill string draft.description fun text => { draft with description := some text }
  | "version" => fill string draft.version fun text => { draft with version := some text }
  | "rules" => fill rulesReader draft.rules fun rules => { draft with rules := some rules }
  | _ => pass draft

def reader : Json.Reader Policy
  | .openArray :: rest => do
    let name ← nextItem true string rest
    if name.item.isNone then throw .mismatched
    let description ← nextItem false string name.rest
    let version ← nextItem false string description.rest
    let rules ← nextItem false rulesReader version.rest
    let policy ← Draft.complete ⟨name.item, description.item, version.item, rules.item⟩
    let ending ← arrayEnd rules.rest
    let whole := ending.map fun _ => policy
    return name.within (description.within (version.within (rules.within whole.behind)))
  | tokens => do
    let draft ← object Draft.entry {} tokens
    let policy ← draft.item.complete
    return draft.map fun _ => policy

def ofText (text : String) : Except JsonFault Policy := reader.run text

def toJson (policy : Policy) : Json :=
  .object [("name", .string policy.name), ("description", .string policy.description),
    ("version", .string policy.version),
    ("rules", .object (policy.rules.items.map fun rule => (rule.name, rule.toJson)))]

def toText (policy : Policy) : String := policy.toJson.render

end Policy
end Rulebook
