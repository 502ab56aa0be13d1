import CallAtlas.Impact.EntryPaths
import CallAtlas.Impact.Report
import CallAtlas.Json.Record

/-!
# Impact.Codec — the exchange form of features, reports and paths
-/

namespace CallAtlas

open Json (Record)
open Json.Record (required nullable)

namespace RiskLevel

def toJson (l : RiskLevel) : Json := .str l.name

def ofJson? : Json → Option RiskLevel := Json.variant? Json.isNull (all.map fun l => (l.name, l))

end RiskLevel

namespace Feature

def toJson (f : Feature) : Json :=
  .obj [("name", .str f.name), ("matched_via", .ofStrings f.matchedVia)]

def ofJson? : Json → Option Feature := Record.read? do
  let name ← required "name" Json.string?
  let matchedVia ← required "matched_via" (Json.list? Json.string?)
  return ⟨name, matchedVia⟩

end Feature

namespace AffectedNode

def toJson (n : AffectedNode) : Json :=
  .obj [("id", .str n.id), ("name", .str n.name), ("file_path", .str n.filePath),
    ("distance", .ofNat n.distance), ("fan_in", .ofNat n.fanIn), ("risk", n.risk.toJson)]

def ofJson? : Json → Option AffectedNode := Record.read? do
  let id ← required "id" Json.string?
  let name ← required "name" Json.string?
  let filePath ← required "file_path" Json.string?
  let distance ← required "distance" Json.nat?
  let fanIn ← required "fan_in" Json.nat?
  let risk ← required "risk" RiskLevel.ofJson?
  return { id, name, filePath, distance, fanIn, risk }

end AffectedNode

namespace ImpactReport

def toJson (r : ImpactReport) : Json :=
  .obj [("target_id", .str r.targetId), ("target_name", .str r.targetName),
    ("affected", .arr (r.affected.map (·.toJson))),
      ("features_affected", .arr (r.featuresAffected.map (·.toJson))),
    ("affected_entry_points", .ofStrings r.affectedEntryPoints),
    ("highest_risk", .ofOption RiskLevel.toJson r.highestRisk), ("truncated", .bool r.truncated)]

def ofJson? : Json → Option ImpactReport := Record.read? do
  let targetId ← required "target_id" Json.string?
  let targetName ← required "target_name" Json.string?
  let affected ← required "affected" (Json.list? AffectedNode.ofJson?)
  let featuresAffected ← required "features_affected" (Json.list? Feature.ofJson?)
  let affectedEntryPoints ← required "affected_entry_points" (Json.list? Json.string?)
  let highestRisk ← nullable "highest_risk" RiskLevel.ofJson?
  let truncated ← required "truncated" Json.bool?
  return { targetId, targetName, affected, featuresAffected, affectedEntryPoints,
           highestRisk, truncated }

end ImpactReport

namespace EntryPaths

def toJson (p : EntryPaths) : Json :=
  .obj [("paths", .arr (p.paths.map .ofStrings)), ("truncated", .bool p.truncated)]

end EntryPaths

end CallAtlas
