import Rulebook.Roster
import Rulebook.Settings.Document
import Rulebook.Settings.Tree
import Rulebook.Toml.Document

/-!
Loading settings in layers, each going before the one under it: the names of the service and of the
environment, the file for all, the file of the environment, the file of the service, and the
variables of the environment. A file is looked for under its name, and failing that under its name
with the ending of a format.
-/

namespace Rulebook

namespace SettingsFile

/-- The way from a directory to a file in it, without the pieces that stay where they are; `none` if
a name leads out of the directory. -/
def way? (name : String) : Option (List String) :=
  let pieces := (piecesAt '/' name.toList).map String.ofList
  if pieces.head? = some "" ∨ ".." ∈ pieces then none
  else some (pieces.filter fun piece => piece ≠ "" ∧ piece ≠ ".")

def find? (files : Directory String) (name : String) : Option String := do
  let way ← way? name
  files.items.findSome? fun (other, text) => if way? other = some way then some text else none

def ending : String := ".toml"

/-- The endings that are tried after a name, each with whether a file with it can be read. -/
def laterEndings : List (String × Bool) :=
  [(".toml", true), (".ini", true), (".json", false), (".json5", false), (".ron", false),
    (".yaml", false), (".yml", false)]

def read? (text : String) : Option SettingTree := do
  return .table (SettingTree.ofEntries (← Toml.ofText? (Toml.withoutMark text.toList)))

def load? (files : Directory String) (name : String) : Option SettingTree :=
  let full := name ++ ending
  match find? files full with
  | some text =>
    if (way? full).bind List.getLast? = some ending then some (.table []) else read? text
  | none =>
    match laterEndings.findSome? fun (other, reads) =>
        (find? files (full ++ other)).map fun text => (reads, text) with
    | some (true, text) => read? text
    | some (false, _) => none
    | none => some (.table [])

end SettingsFile

namespace Settings

def variableLead : List Char := "policy_".toList

def environmentVariable : String := "POLICY_ENV"
def defaultEnvironment : String := "development"

def pointed : List Char → List Char
  | [] => []
  | '_' :: '_' :: rest => '.' :: pointed rest
  | c :: rest => c :: pointed rest

abbrev Layer := List (SettingTree.Place × SettingTree)

def ofVariable? (name value : String) : Option (SettingTree.Place × SettingTree) :=
  let lower := name.toList.map Char.toLower
  if variableLead.isPrefixOf lower then
    let place := String.ofList (pointed (lower.drop variableLead.length))
    some (.ofText place, .leaf (.ofText value))
  else none

def ofFile (tree : SettingTree) : Layer :=
  tree.entries.map fun (key, entry) => (.ofText key, entry)

def addLayer (tree : SettingTree) (layer : Layer) : SettingTree :=
  layer.foldl (fun tree (place, upper) => upper.put place tree) tree

section

variable {α : Type}

/-- Reads a field of a record, or takes the default if it is not there. A record is a table with the
fields under their keys, or an array of the fields in order. -/
def field? (record : SettingTree) (index : Nat) (key : String) (default : α)
    (read : SettingTree → Option α) : Option α :=
  match record with
  | .table entries => ((entries.lookup key).map read).getD (some default)
  | .array items => (items[index]?.map read).getD (some default)
  | _ => none

def scalar? (read : Scalar → Option α) : SettingTree → Option α
  | .leaf scalar => read scalar
  | _ => none

end

def textOf? : SettingTree → Option String := scalar? fun scalar => some scalar.toText

def engineOf? (record : SettingTree) : Option EngineSettings := do
  let defaults : EngineSettings := {}
  return ⟨← field? record 0 "max_expression_depth" defaults.maxExpressionDepth
      (scalar? Scalar.toNat?),
    ← field? record 1 "slow_rule_threshold_ms" defaults.slowRuleThresholdMs
      (scalar? Scalar.toNat?)⟩

def logsOf? (record : SettingTree) : Option LogSettings := do
  let defaults : LogSettings := {}
  return ⟨← field? record 0 "log_level" defaults.logLevel textOf?,
    ← field? record 1 "json_logs" defaults.jsonLogs (scalar? Scalar.toFlag?),
    ← field? record 2 "metrics_enabled" defaults.metricsEnabled (scalar? Scalar.toFlag?)⟩

def ofTree? (record : SettingTree) : Option Settings := do
  let defaults : Settings := {}
  return ⟨← field? record 0 "service_name" defaults.serviceName textOf?,
    ← field? record 1 "environment" defaults.environment textOf?,
    ← field? record 2 "engine" defaults.engine engineOf?,
    ← field? record 3 "observability" defaults.observability logsOf?⟩

def loadFor (files settingTexts : Directory String) (service environment : String) :
    Option Settings := do
  let names : Layer :=
    [([.key "service_name"], .leaf (.text service)),
      ([.key "environment"], .leaf (.text environment))]
  let inFiles ← ["default", environment, service].mapM (SettingsFile.load? files)
  let inVariables := settingTexts.items.filterMap fun (name, value) => ofVariable? name value
  let layers := names :: inFiles.map ofFile ++ [inVariables]
  ofTree? (layers.foldl addLayer (.table []))

def load (files settingTexts : Directory String) (service : String) : Option Settings :=
  loadFor files settingTexts service
    ((Directory.lookup? settingTexts environmentVariable).getD defaultEnvironment)

end Settings

end Rulebook
