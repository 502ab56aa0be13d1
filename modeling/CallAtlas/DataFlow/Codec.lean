import CallAtlas.DataFlow.Basic
import CallAtlas.Json.Record

/-!
# DataFlow.Codec — the exchange form of data-flow traces
-/

namespace CallAtlas.DataFlow

open Json (Record)
open Json.Record (required withDefault optional)

namespace Direction

def ofJson? : Json → Option Direction := Json.variant? Json.isNull (all.map fun d => (d.name, d))

end Direction

namespace Source

def toJson (s : Source) : Json :=
  .obj <| [("kind", Json.str s.kind.name), ("line", .ofNat s.line), ("detail", .str s.detail)]
    ++ Json.present "declaration_id" .str s.declarationId
    ++ (if s.linkedIds.isEmpty then [] else [("linked_ids", .ofStrings s.linkedIds)])

def ofJson? : Json → Option Source := Record.read? do
  let kind ← required "kind" (Json.variant? Json.isNull (SourceKind.all.map fun k => (k.name, k)))
  let line ← required "line" Json.nat?
  let detail ← required "detail" Json.string?
  let declarationId ← optional "declaration_id" Json.string?
  let linkedIds ← withDefault "linked_ids" [] (Json.list? Json.string?)
  return { kind, line, detail, declarationId, linkedIds }

end Source

namespace Destination

def toJson (d : Destination) : Json :=
  .obj <| [("kind", Json.str d.kind.name), ("line", .ofNat d.line), ("detail", .str d.detail)]
    ++ Json.present "declaration_id" .str d.declarationId ++
      Json.present "callee_id" .str d.calleeId

def ofJson? : Json → Option Destination := Record.read? do
  let kind ← required "kind" (Json.variant? Json.isNull
    (DestinationKind.all.map fun k => (k.name, k)))
  let line ← required "line" Json.nat?
  let detail ← required "detail" Json.string?
  let declarationId ← optional "declaration_id" Json.string?
  let calleeId ← optional "callee_id" Json.string?
  return { kind, line, detail, declarationId, calleeId }

end Destination

namespace Trace

def toJson (t : Trace) : Json :=
  .obj <| [("file", Json.str t.file), ("identifier", .str t.identifier)] ++
    Json.present "scope_id" .str t.scopeId
    ++ [("sources", .arr (t.sources.map (·.toJson))),
      ("destinations", .arr (t.destinations.map (·.toJson))), ("truncated", .bool t.truncated)]

def ofJson? : Json → Option Trace := Record.read? do
  let file ← required "file" Json.string?
  let identifier ← required "identifier" Json.string?
  let scopeId ← optional "scope_id" Json.string?
  let sources ← required "sources" (Json.list? Source.ofJson?)
  let destinations ← required "destinations" (Json.list? Destination.ofJson?)
  let truncated ← required "truncated" Json.bool?
  return { file, identifier, scopeId, sources, destinations, truncated }

end Trace

end CallAtlas.DataFlow
