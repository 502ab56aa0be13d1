import CallAtlas.Json.Record
import CallAtlas.Settings.Basic

/-!
# Settings.Codec — the exchange form of settings

Every part may be left out. A part of a section that is left out has the default of that section,
except that a `limits` table fills its own gaps with the general limits. How a weight is written is
up to the caller.
-/

namespace CallAtlas

open Json (Record)
open Json.Record (required withDefault optional)

namespace TraversalLimits

def toJson (l : TraversalLimits) : Json :=
  .obj [("max_depth", .ofNat l.maxDepth), ("max_visits", .ofNat l.maxVisits)]

def ofJson? : Json → Option TraversalLimits := Record.read? do
  let d : TraversalLimits := {}
  let maxDepth ← withDefault "max_depth" d.maxDepth Json.nat?
  let maxVisits ← withDefault "max_visits" d.maxVisits Json.nat?
  return ⟨maxDepth, maxVisits⟩

end TraversalLimits

namespace ExtractionSettings

def toJson (s : ExtractionSettings) : Json :=
  .obj [("max_file_bytes", .ofNat s.maxFileBytes), ("workers", .ofOption .ofNat s.workers),
    ("http_clients", .ofStrings s.httpClients), ("data_clients", .ofStrings s.dataClients),
    ("data_modules", .ofStrings s.dataModules)]

def ofJson? : Json → Option ExtractionSettings := Record.read? do
  let d : ExtractionSettings := {}
  let strings := Json.list? Json.string?
  let maxFileBytes ← withDefault "max_file_bytes" d.maxFileBytes Json.nat?
  let workers ← optional "workers" Json.nat?
  let httpClients ← withDefault "http_clients" d.httpClients strings
  let dataClients ← withDefault "data_clients" d.dataClients strings
  let dataModules ← withDefault "data_modules" d.dataModules strings
  return { maxFileBytes, workers, httpClients, dataClients, dataModules }

end ExtractionSettings

namespace HotspotSettings

def toJson (float : Float → Json) (s : HotspotSettings) : Json :=
  .obj [("weight_in", float s.weightIn), ("weight_out", float s.weightOut)]

def ofJson? : Json → Option HotspotSettings := Record.read? do
  let d : HotspotSettings := {}
  let weightIn ← withDefault "weight_in" d.weightIn Json.float?
  let weightOut ← withDefault "weight_out" d.weightOut Json.float?
  return ⟨weightIn, weightOut⟩

end HotspotSettings

namespace RiskPolicy

def ofJson? : Json → Option RiskPolicy := Record.read? do
  let highDistance ← required "high_distance" Json.nat?
  let highFanIn ← required "high_fan_in" Json.nat?
  let mediumDistance ← required "medium_distance" Json.nat?
  return ⟨highDistance, highFanIn, mediumDistance⟩

end RiskPolicy

namespace ImpactSettings

def toJson (s : ImpactSettings) : Json :=
  .obj [("high_distance", .ofNat s.highDistance), ("high_fan_in", .ofNat s.highFanIn),
    ("medium_distance", .ofNat s.mediumDistance), ("limits", s.limits.toJson)]

def ofJson? : Json → Option ImpactSettings := Record.read? do
  let d : ImpactSettings := {}
  let highDistance ← withDefault "high_distance" d.highDistance Json.nat?
  let highFanIn ← withDefault "high_fan_in" d.highFanIn Json.nat?
  let mediumDistance ← withDefault "medium_distance" d.mediumDistance Json.nat?
  let limits ← withDefault "limits" d.limits TraversalLimits.ofJson?
  return { highDistance, highFanIn, mediumDistance, limits }

end ImpactSettings

namespace JourneySettings

def toJson (s : JourneySettings) : Json :=
  .obj [("include_unresolved", .bool s.includeUnresolved), ("limits", s.limits.toJson)]

def ofJson? : Json → Option JourneySettings := Record.read? do
  let d : JourneySettings := {}
  let includeUnresolved ← withDefault "include_unresolved" d.includeUnresolved Json.bool?
  let limits ← withDefault "limits" d.limits TraversalLimits.ofJson?
  return { includeUnresolved, limits }

end JourneySettings

namespace ErrorSettings

def toJson (s : ErrorSettings) : Json := .obj [("limits", s.limits.toJson)]

def ofJson? : Json → Option ErrorSettings := Record.read? do
  let d : ErrorSettings := {}
  let limits ← withDefault "limits" d.limits TraversalLimits.ofJson?
  return { limits }

end ErrorSettings

namespace DataFlowSettings

def toJson (s : DataFlowSettings) : Json := .obj [("max_findings", .ofNat s.maxFindings)]

def ofJson? : Json → Option DataFlowSettings := Record.read? do
  let d : DataFlowSettings := {}
  let maxFindings ← withDefault "max_findings" d.maxFindings Json.nat?
  return { maxFindings }

end DataFlowSettings

namespace MatchScope

def toJson (s : MatchScope) : Json := .str s.label

def ofJson? (isEmpty : Json → Bool) : Json → Option MatchScope :=
  Json.variant? isEmpty (all.map fun s => (s.label, s))

end MatchScope

namespace FeatureRuleText

def toJson (r : FeatureRuleText) : Json :=
  .obj [("pattern", .str r.pattern), ("features", .ofStrings r.features), ("scope", r.scope.toJson)]

/-- The predicate `isEmpty` says which values stand for a variant without data. -/
def ofJson? (isEmpty : Json → Bool) : Json → Option FeatureRuleText := Record.read? do
  let pattern ← required "pattern" Json.string?
  let features ← required "features" (Json.list? Json.string?)
  let scope ← withDefault "scope" .any (MatchScope.ofJson? isEmpty)
  return { pattern, features, scope }

end FeatureRuleText

namespace Settings

def toJson (float : Float → Json) (s : Settings) : Json :=
  .obj [("extraction", s.extraction.toJson), ("hotspots", s.hotspots.toJson float),
    ("impact", s.impact.toJson), ("journey", s.journey.toJson), ("errors", s.errors.toJson),
      ("dataflow", s.dataflow.toJson),
    ("features", .arr (s.features.map FeatureRuleText.toJson))]

def ofJson? (isEmpty : Json → Bool) : Json → Option Settings := Record.read? do
  let extraction ← withDefault "extraction" {} ExtractionSettings.ofJson?
  let hotspots ← withDefault "hotspots" {} HotspotSettings.ofJson?
  let impact ← withDefault "impact" {} ImpactSettings.ofJson?
  let journey ← withDefault "journey" {} JourneySettings.ofJson?
  let errors ← withDefault "errors" {} ErrorSettings.ofJson?
  let dataflow ← withDefault "dataflow" {} DataFlowSettings.ofJson?
  let features ← withDefault "features" [] (Json.list? (FeatureRuleText.ofJson? isEmpty))
  return { extraction, hotspots, impact, journey, errors, dataflow, features }

end Settings

end CallAtlas
