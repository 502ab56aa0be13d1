import CallAtlas.Impact.Risk

/-!
# Settings — what an analysis can be told

Every part has a default, so that no settings at all are usable ones. Walks over the call graph are
always bounded. `Settings.problem?` names the first part that makes no sense.
-/

namespace CallAtlas

/-- Bounds of one walk over the call graph. -/
structure TraversalLimits where
  maxDepth : Nat := 10
  maxVisits : Nat := 2000
deriving DecidableEq, Repr

namespace TraversalLimits

def isZero (l : TraversalLimits) : Bool := l.maxDepth == 0 || l.maxVisits == 0

end TraversalLimits

structure ExtractionSettings where
  /-- Larger files are skipped. -/
  maxFileBytes : Nat := 1024 * 1024
  /-- Number of files read at the same time. -/
  workers : Option Nat := none
  /-- Receivers whose method calls are requests. -/
  httpClients : List String := ["axios"]
  /-- Names that mark a call chain as a call of a data client. -/
  dataClients : List String := ["supabase", "prisma"]
  /-- Import sources that make a file a candidate for data access. -/
  dataModules : List String :=
    ["@supabase/supabase-js", "@prisma/client", "supabase", "prisma", "db"]
deriving DecidableEq, Repr

/-- Weights of incoming and outgoing calls in the score of a hotspot. -/
structure HotspotSettings where
  weightIn : Float := 1.0
  weightOut : Float := 1.0

structure ImpactSettings extends RiskPolicy where
  limits : TraversalLimits := {}
deriving DecidableEq, Repr

structure JourneySettings where
  /-- Whether calls that were resolved to nothing are steps. -/
  includeUnresolved : Bool := false
  limits : TraversalLimits := ⟨12, 500⟩
deriving DecidableEq, Repr

structure ErrorSettings where
  limits : TraversalLimits := ⟨5, 500⟩
deriving DecidableEq, Repr

structure DataFlowSettings where
  /-- Sources and destinations reported for one trace. -/
  maxFindings : Nat := 200
deriving DecidableEq, Repr

/-- Which identifiers a feature rule is tested against. -/
inductive MatchScope where
  | any | path | name
deriving DecidableEq, Repr

namespace MatchScope

def all : List MatchScope := [.any, .path, .name]

def label : MatchScope → String
  | .any => "any"
  | .path => "path"
  | .name => "name"

end MatchScope

/-- A feature rule as it is written. -/
structure FeatureRuleText where
  /-- Regular expression, whose letters match in either case. -/
  pattern : String
  features : List String
  scope : MatchScope := .any
deriving DecidableEq, Repr

structure Settings where
  extraction : ExtractionSettings := {}
  hotspots : HotspotSettings := {}
  impact : ImpactSettings := {}
  journey : JourneySettings := {}
  errors : ErrorSettings := {}
  dataflow : DataFlowSettings := {}
  /-- Own feature rules; none means the built-in table. -/
  features : List FeatureRuleText := []

namespace Settings

/-- Why settings are refused. -/
inductive Problem where
  | zeroLimits (part : String)
  | zeroHighDistance
  | mediumBelowHigh
  | badWeight (name : String)
  | zeroFindings
  | zeroFileBytes
  | zeroWorkers
deriving DecidableEq, Repr

def Problem.message : Problem → String
  | zeroLimits part => part ++ ".limits: max_depth and max_visits must be at least 1"
  | zeroHighDistance => "impact.high_distance must be at least 1"
  | mediumBelowHigh => "impact.medium_distance must not be below impact.high_distance"
  | badWeight name => "hotspots." ++ name ++ " must be a non-negative number"
  | zeroFindings => "dataflow.max_findings must be at least 1"
  | zeroFileBytes => "extraction.max_file_bytes must be at least 1"
  | zeroWorkers => "extraction.workers must be at least 1"

/-- A weight is finite and not below zero. -/
def isWeight (w : Float) : Bool := w.isFinite && !(w < 0.0)

/-- The first problem, in the order in which they are reported. -/
def problem? (s : Settings) : Option Problem :=
  if s.impact.limits.isZero then some (.zeroLimits "impact")
  else if s.journey.limits.isZero then some (.zeroLimits "journey")
  else if s.errors.limits.isZero then some (.zeroLimits "errors")
  else if s.impact.highDistance = 0 then some .zeroHighDistance
  else if s.impact.mediumDistance < s.impact.highDistance then some .mediumBelowHigh
  else if !isWeight s.hotspots.weightIn then some (.badWeight "weight_in")
  else if !isWeight s.hotspots.weightOut then some (.badWeight "weight_out")
  else if s.dataflow.maxFindings = 0 then some .zeroFindings
  else if s.extraction.maxFileBytes = 0 then some .zeroFileBytes
  else if s.extraction.workers = some 0 then some .zeroWorkers
  else none

end Settings

end CallAtlas
