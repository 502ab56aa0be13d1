import CallAtlas.Graph.Codec
import CallAtlas.Journey.Codec
import CallAtlas.Pipeline

/-!
# Pipeline.Codec — the exchange form of what a run produces

How the score of a hotspot is written is up to the caller.
-/

namespace CallAtlas

namespace Hotspot

def toJson (float : Float → Json) (h : Hotspot) : Json :=
  .obj [("id", .str h.id), ("name", .str h.name), ("file_path", .str h.filePath),
    ("fan_in", .ofNat h.fanIn), ("fan_out", .ofNat h.fanOut), ("score", float h.score)]

end Hotspot

namespace SkippedFile

def toJson (s : SkippedFile) : Json := .obj [("path", .str s.path), ("reason", .str s.reason)]

end SkippedFile

namespace RunSummary

def toJson (s : RunSummary) : Json :=
  .obj [("files_analyzed", .ofNat s.filesAnalyzed), ("files_skipped", .ofNat s.filesSkipped),
    ("graph", s.graph.toJson), ("journeys", .ofNat s.journeys),
      ("truncated_journeys", .ofNat s.truncatedJourneys),
    ("files_truncated", .ofNat s.filesTruncated)]

end RunSummary

namespace ProgressEvent

def toJson : ProgressEvent → Json
  | started phase items =>
    .obj [("event", .str "phase_started"), ("phase", .str phase.name), ("items", .ofNat items)]
  | completed phase items =>
    .obj [("event", .str "phase_completed"), ("phase", .str phase.name), ("items", .ofNat items)]

end ProgressEvent

end CallAtlas
