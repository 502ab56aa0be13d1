import CallAtlas.Code.Codec
import CallAtlas.ErrorFlow.Profile

/-!
# ErrorFlow.Codec — the exchange form of error traces and profiles
-/

namespace CallAtlas

namespace ErrorTrace

def toJson (t : ErrorTrace) : Json :=
  let hop : String × Nat → Json := fun (id, distance) => .obj [("id", .str id),
    ("distance", .ofNat distance)]
  .obj [("origin_id", .str t.originId), ("reached", .arr (t.reached.map hop)),
    ("handled_by", .ofStrings t.handledBy), ("entry_points", .ofStrings t.entryPoints),
      ("truncated", .bool t.truncated)]

end ErrorTrace

namespace ErrorProfile

def toJson (p : ErrorProfile) : Json :=
  .obj <| [("id", Json.str p.id), ("name", .str p.name), ("file_path", .str p.filePath),
    ("line", .ofNat p.line),
      ("is_async", .bool p.isAsync), ("handling", p.handling.toJson),
        ("raises", .ofStrings p.raises),
      ("receives_from", .ofStrings p.receivesFrom),
        ("propagates_to_callers", .bool p.propagatesToCallers),
      ("risk", .str p.risk.name)]
    ++ Json.present "reason" .str p.reason

end ErrorProfile

end CallAtlas
