import CallAtlas.Feature.Basic
import CallAtlas.Impact.Reach

/-!
# Impact.Report — what a change to a declaration affects
-/

namespace CallAtlas

/-- A caller, direct or not, of a changed declaration. -/
structure AffectedNode where
  id : String
  name : String
  filePath : String
  /-- Number of calls from the changed declaration. -/
  distance : Nat
  fanIn : Nat
  risk : RiskLevel
deriving DecidableEq, Repr

structure ImpactReport where
  targetId : String
  targetName : String
  /-- By distance and then by id. -/
  affected : List AffectedNode
  featuresAffected : List Feature
  affectedEntryPoints : List String
  /-- The highest risk among the affected. -/
  highestRisk : Option RiskLevel
  truncated : Bool
deriving DecidableEq, Repr

namespace ImpactReport

def directCallers (r : ImpactReport) : List AffectedNode := r.affected.filter (·.distance = 1)

/-- One line that names at most three features. -/
def featureSummary (r : ImpactReport) : String :=
  let names := r.featuresAffected.map (·.name)
  let count := names.length
  if count = 0 then "No user-facing features affected."
  else if count ≤ 3 then "Affected features: " ++ Text.join ", " names
  else "Affected features: " ++ Text.join ", " (names.take 3) ++ " and " ++
    Text.decimal (count - 3) ++ " more"

def affectedNode (g : CallGraph) (policy : RiskPolicy) (d : Declaration)
    (distance : Nat) : AffectedNode :=
  let fanIn := g.fanIn d.id
  ⟨d.id, d.qualifiedName, d.filePath, distance, fanIn, policy.assess distance fanIn⟩

/-- The report on a declaration of the graph. `featuresOf` is the source of the features. -/
def ofTarget (g : CallGraph) (settings : ImpactSettings) (featuresOf : Declaration → List Feature)
    (target : Declaration) : ImpactReport :=
  let reach := Reach.callersOf g settings.limits target.id
  let nodes := reach.reached.filterMap fun (id, distance) => (g.node? id).map (·, distance)
  let sorted := Order.sortOn (Order.lex Order.count Order.text) (fun n => (n.2, n.1.id)) nodes
  let affected := sorted.map fun (d, distance) => affectedNode g settings.toRiskPolicy d distance
  { targetId := target.id
    targetName := target.qualifiedName
    affected
    featuresAffected := Feature.merge ((target :: sorted.map (·.1)).map featuresOf)
    affectedEntryPoints := Text.sort ((target.id :: affected.map (·.id)).filter g.isEntryPoint)
    highestRisk := RiskLevel.highest? (affected.map (·.risk))
    truncated := reach.truncated }

/-- The report on an id or a name. -/
def compute (g : CallGraph) (settings : ImpactSettings) (featuresOf : Declaration → List Feature)
    (query : String) : Except AnalysisError ImpactReport :=
  (g.resolveTarget query).map (ofTarget g settings featuresOf)

end ImpactReport

end CallAtlas
