import CallAtlas.Journey.Walk
import CallAtlas.Json.Basic

/-!
# Journey.Codec — the exchange form of journeys
-/

namespace CallAtlas

namespace Trigger

def toJson (t : Trigger) : Json :=
  .obj <| [("kind", Json.str t.kind.name)] ++ Json.present "element" .str t.element
    ++ [("handler", .str t.handler), ("label", .str t.label)]

end Trigger

namespace JourneyStep

def toJson (s : JourneyStep) : Json :=
  .obj <| [("order", Json.ofNat s.order), ("declaration_id", .str s.declarationId),
    ("label", .str s.label),
      ("is_external_call", .bool s.isExternalCall), ("looped", .bool s.looped),
        ("depth", .ofNat s.depth),
      ("kind", .str s.kind.name)]
    ++ Json.present "line" .ofNat s.line
    ++ [("awaited", .bool s.awaited), ("conditional", .bool s.conditional)]

end JourneyStep

namespace Journey

def toJson (j : Journey) : Json :=
  .obj [("entry_id", .str j.entryId), ("title", .str j.title), ("trigger", j.trigger.toJson),
    ("steps", .arr (j.steps.map (·.toJson))), ("truncated", .bool j.truncated)]

end Journey

end CallAtlas
