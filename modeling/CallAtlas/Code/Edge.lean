import CallAtlas.Code.Call

/-!
# Code.Edge — the two kinds of edges of a call graph

An internal edge joins two declarations. An external edge leaves the analysed code: a request, a
database call, or a name that was resolved to nothing.
-/

namespace CallAtlas

inductive EdgeKind where
  /-- The caller invokes, renders or wires up the callee. -/
  | calls
  /-- A request matched to the route handler that serves it. -/
  | apiRequest
deriving DecidableEq, Repr

namespace EdgeKind

def all : List EdgeKind := [.calls, .apiRequest]

def name : EdgeKind → String
  | .calls => "calls"
  | .apiRequest => "api_request"

end EdgeKind

structure EdgeData where
  kind : EdgeKind
  via : CallVia
  /-- Line of the first call site that produced the edge. -/
  line : Nat
  /-- Flags of that call site. -/
  flags : CallFlags := {}
deriving DecidableEq, Repr

namespace EdgeData

/-- The edge of a resolved call site. -/
def ofSite (s : CallSite) : EdgeData := ⟨.calls, s.via, s.line, s.flags⟩

end EdgeData

inductive ExternalKind where
  | http | database | unresolved
deriving DecidableEq, Repr

namespace ExternalKind

def all : List ExternalKind := [.http, .database, .unresolved]

def name : ExternalKind → String
  | .http => "http"
  | .database => "database"
  | .unresolved => "unresolved"

end ExternalKind

structure ExternalEdge where
  callerId : String
  kind : ExternalKind
  /-- The callee as it is shown. -/
  target : String
  call : CallTarget
  line : Nat
  flags : CallFlags := {}
  /-- Route handler that serves this request. -/
  matchedHandler : Option String := none
deriving DecidableEq, Repr

namespace ExternalEdge

/-- The common name of everything outside the analysed code. -/
def sentinel : String := "external"

/-- Id of the journey steps that stand for this edge. -/
def stepId (e : ExternalEdge) : String := sentinel ++ ":" ++ e.kind.name ++ ":" ++ e.target

/-- A graph has one external edge for each key. -/
def key (e : ExternalEdge) : String × ExternalKind × String := (e.callerId, e.kind, e.target)

end ExternalEdge

end CallAtlas
