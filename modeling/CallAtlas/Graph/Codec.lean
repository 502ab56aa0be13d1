import CallAtlas.Code.Codec
import CallAtlas.Graph.Query
import CallAtlas.Registry.Basic

/-!
# Graph.Codec — the exchange form of graphs and routes
-/

namespace CallAtlas

namespace GraphStats

def toJson (s : GraphStats) : Json :=
  .obj [("files", .ofNat s.files), ("declarations", .ofNat s.declarations),
    ("call_edges", .ofNat s.callEdges), ("api_edges", .ofNat s.apiEdges),
      ("http_calls", .ofNat s.httpCalls), ("database_calls", .ofNat s.databaseCalls),
    ("unresolved_calls", .ofNat s.unresolvedCalls), ("entry_points", .ofNat s.entryPoints)]

end GraphStats

namespace Edge

/-- The ends, the kind and the line. -/
def toJson (e : Edge) : Json :=
  .obj [("from", .str e.source), ("to", .str e.target), ("kind", e.data.kind.toJson),
    ("line", .ofNat e.data.line)]

end Edge

namespace GraphSnapshot

def toJson (s : GraphSnapshot) : Json :=
  .obj [("nodes", .arr (s.nodes.map (·.toJson))), ("edges", .arr (s.edges.map (·.toJson))),
    ("entry_points", .ofStrings s.entryPoints),
      ("external_edges", .arr (s.externalEdges.map (·.toJson))),
    ("external_sentinel", .str ExternalEdge.sentinel)]

end GraphSnapshot

namespace RouteSegment

def toJson : RouteSegment → Json
  | literal text => .obj [("type", .str "literal"), ("value", .str text)]
  | param => .obj [("type", .str "param")]
  | catchAll isOptional =>
    .obj [("type", .str "catch_all"), ("value", .obj [("optional", .bool isOptional)])]

end RouteSegment

end CallAtlas
