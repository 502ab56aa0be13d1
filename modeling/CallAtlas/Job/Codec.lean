import CallAtlas.Job.Table
import CallAtlas.Pipeline.Codec

/-!
# Job.Codec — the exchange form of job states
-/

namespace CallAtlas.JobState

def toJson : JobState → Json
  | pending => .obj [("state", .str "pending")]
  | running phase => .obj (("state", .str "running") :: Json.present "phase" (.str ·.name) phase)
  | completed summary => .obj [("state", .str "completed"), ("summary", summary.toJson)]
  | failed error => .obj [("state", .str "failed"), ("error", .str error)]

end CallAtlas.JobState
