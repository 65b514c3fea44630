import Rulebook.Json.Fields

namespace Rulebook

open Json Json.Reader

/-- Bounds of the evaluation. The depth holds for parentheses and signs as well as for the height of
an expression. A rule that takes longer than the threshold is worth a warning. -/
structure EngineSettings where
  maxExpressionDepth : Nat := 256
  slowRuleThresholdMs : Nat := 100
  deriving DecidableEq, Repr

structure LogSettings where
  logLevel : String := "info"
  jsonLogs : Bool := false
  metricsEnabled : Bool := true
  deriving DecidableEq, Repr

structure Settings where
  serviceName : String := ""
  environment : String := ""
  engine : EngineSettings := {}
  observability : LogSettings := {}
  deriving DecidableEq, Repr

def Settings.isProduction (settings : Settings) : Bool := settings.environment = "production"

namespace EngineSettings

structure Draft where
  maxExpressionDepth : Option Nat := none
  slowRuleThresholdMs : Option Nat := none

def Draft.complete (draft : Draft) : EngineSettings :=
  let defaults : EngineSettings := {}
  ⟨draft.maxExpressionDepth.getD defaults.maxExpressionDepth,
    draft.slowRuleThresholdMs.getD defaults.slowRuleThresholdMs⟩

def Draft.entry : Entry Draft := fun draft key =>
  match key with
  | "max_expression_depth" =>
    fill natural draft.maxExpressionDepth fun depth => { draft with maxExpressionDepth := some depth }
  | "slow_rule_threshold_ms" =>
    fill natural draft.slowRuleThresholdMs fun time => { draft with slowRuleThresholdMs := some time }
  | _ => pass draft

def reader : Json.Reader EngineSettings
  | .openArray :: rest => do
    let depth ← nextItem true natural rest
    let time ← nextItem false natural depth.rest
    let ending ← arrayEnd time.rest
    let settings := ending.map fun _ => Draft.complete ⟨depth.item, time.item⟩
    return depth.within (time.within settings.behind)
  | tokens => do
    return (← object Draft.entry {} tokens).map Draft.complete

def ofText (text : String) : Except JsonFault EngineSettings := reader.run text

end EngineSettings

namespace LogSettings

structure Draft where
  logLevel : Option String := none
  jsonLogs : Option Bool := none
  metricsEnabled : Option Bool := none

def Draft.complete (draft : Draft) : LogSettings :=
  let defaults : LogSettings := {}
  ⟨draft.logLevel.getD defaults.logLevel, draft.jsonLogs.getD defaults.jsonLogs,
    draft.metricsEnabled.getD defaults.metricsEnabled⟩

def Draft.entry : Entry Draft := fun draft key =>
  match key with
  | "log_level" => fill string draft.logLevel fun level => { draft with logLevel := some level }
  | "json_logs" => fill boolean draft.jsonLogs fun flag => { draft with jsonLogs := some flag }
  | "metrics_enabled" =>
    fill boolean draft.metricsEnabled fun flag => { draft with metricsEnabled := some flag }
  | _ => pass draft

def reader : Json.Reader LogSettings
  | .openArray :: rest => do
    let level ← nextItem true string rest
    let json ← nextItem false boolean level.rest
    let metrics ← nextItem false boolean json.rest
    let ending ← arrayEnd metrics.rest
    let settings := ending.map fun _ => Draft.complete ⟨level.item, json.item, metrics.item⟩
    return level.within (json.within (metrics.within settings.behind))
  | tokens => do
    return (← object Draft.entry {} tokens).map Draft.complete

end LogSettings

namespace Settings

structure Draft where
  serviceName : Option String := none
  environment : Option String := none
  engine : Option EngineSettings := none
  observability : Option LogSettings := none

def Draft.complete (draft : Draft) : Settings :=
  let defaults : Settings := {}
  ⟨draft.serviceName.getD defaults.serviceName, draft.environment.getD defaults.environment,
    draft.engine.getD defaults.engine, draft.observability.getD defaults.observability⟩

def Draft.entry : Entry Draft := fun draft key =>
  match key with
  | "service_name" => fill string draft.serviceName fun name => { draft with serviceName := some name }
  | "environment" => fill string draft.environment fun name => { draft with environment := some name }
  | "engine" =>
    fill EngineSettings.reader draft.engine fun engine => { draft with engine := some engine }
  | "observability" =>
    fill LogSettings.reader draft.observability fun logs => { draft with observability := some logs }
  | _ => pass draft

def reader : Json.Reader Settings
  | .openArray :: rest => do
    let service ← nextItem true string rest
    let environment ← nextItem false string service.rest
    let engine ← nextItem false EngineSettings.reader environment.rest
    let logs ← nextItem false LogSettings.reader engine.rest
    let ending ← arrayEnd logs.rest
    let settings := ending.map fun _ =>
      Draft.complete ⟨service.item, environment.item, engine.item, logs.item⟩
    return service.within (environment.within (engine.within (logs.within settings.behind)))
  | tokens => do
    return (← object Draft.entry {} tokens).map Draft.complete

def ofText (text : String) : Except JsonFault Settings := reader.run text

end Settings

end Rulebook
