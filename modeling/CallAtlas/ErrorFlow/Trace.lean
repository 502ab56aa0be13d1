import CallAtlas.Graph.Query
import CallAtlas.Settings.Basic

/-!
# ErrorFlow — where a failure inside a declaration ends up

An error travels from callee to caller along calls whose site is not guarded. A guarded site stops
it. Requests are not crossed: a failing handler answers with an error, and the request itself does
not throw.
-/

namespace CallAtlas

/-- The callers that an error of one declaration reaches. -/
structure ErrorTrace where
  originId : String
  /-- With the number of calls from the origin, by distance and then by id. -/
  reached : List (String × Nat)
  /-- Callers that catch the error where they call, by id. -/
  handledBy : List String
  /-- Entry points that the error reaches, the origin included, by id. -/
  entryPoints : List String
  truncated : Bool
deriving DecidableEq, Repr

namespace ErrorTrace

/-- A trace in progress, in the order of discovery. -/
structure Progress where
  reached : List (String × Nat) := []
  handled : List String := []
  truncated : Bool := false
deriving DecidableEq, Repr

namespace Progress

def isSeen (p : Progress) (origin id : String) : Bool := id == origin || p.reached.any (·.1 == id)

/-- Looks at the callers of one declaration at some distance. Answers also whether the visit limit
ended the trace. -/
def pass (limits : TraversalLimits) (origin : String) (distance : Nat) :
    List (Declaration × EdgeData) → Progress → Progress × Bool
  | [], p => (p, false)
  | (caller, e) :: rest, p =>
    if e.kind != .calls || p.isSeen origin caller.id then pass limits origin distance rest p
    else if e.flags.guarded then
      pass limits origin distance rest { p with handled := p.handled ++ [caller.id] }
    else if limits.maxDepth ≤ distance then
      pass limits origin distance rest { p with truncated := true }
    else if limits.maxVisits ≤ p.reached.length then ({ p with truncated := true }, true)
    else pass limits origin distance rest
      { p with reached := p.reached ++ [(caller.id, distance + 1)] }

def walk (g : CallGraph) (limits : TraversalLimits) (origin : String) :
    Nat → List (String × Nat) → Progress → Progress
  | 0, _, p => p
  | _ + 1, [], p => p
  | fuel + 1, (id, distance) :: queue, p =>
    match pass limits origin distance (g.callerEdges id) p with
    | (p', true) => p'
    | (p', false) => walk g limits origin fuel (queue ++ p'.reached.drop p.reached.length) p'

end Progress

/-- Where an error of a declaration of the graph goes. Each node enters the queue at most once. -/
def start (g : CallGraph) (limits : TraversalLimits) (origin : Declaration) : ErrorTrace :=
  let p := Progress.walk g limits origin.id (g.nodes.length + 1) [(origin.id, 0)] {}
  let reached := Order.sortOn (Order.lex Order.count Order.text) (fun h => (h.2, h.1)) p.reached
  { originId := origin.id
    reached
    handledBy := Text.sortUnique (p.handled.filter (!p.isSeen origin.id ·))
    entryPoints := Text.sort ((origin.id :: reached.map (·.1)).filter g.isEntryPoint)
    truncated := p.truncated }

/-- Where an error goes, from an id or a name. -/
def find (g : CallGraph) (limits : TraversalLimits) (query : String) :
    Except AnalysisError ErrorTrace :=
  (g.resolveTarget query).map (start g limits)

end ErrorTrace

end CallAtlas
