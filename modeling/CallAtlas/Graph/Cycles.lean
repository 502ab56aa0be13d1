import CallAtlas.Graph.Query

/-!
# Graph.Cycles — groups of declarations that call each other

A declaration is on a cycle when it reaches itself by one or more edges. The members of its cycle
are the declarations that it reaches and that reach it.
-/

namespace CallAtlas.CallGraph

def successors (g : CallGraph) (id : String) : List String :=
  (g.edges.filter (·.source = id)).map (·.target)

/-- Adds what is new of a list, each once. -/
def addNew (seen : List String) : List String → List String
  | [] => []
  | x :: xs => if seen.contains x then addNew seen xs else x :: addNew (x :: seen) xs

/-- Works off a queue; `seen` holds whatever was ever queued. -/
def explore (g : CallGraph) : Nat → List String → List String → List String
  | 0, _, seen => seen
  | _ + 1, [], seen => seen
  | fuel + 1, x :: queue, seen =>
    let fresh := addNew seen (g.successors x)
    explore g fuel (queue ++ fresh) (seen ++ fresh)

/-- What is reached by one or more edges. Every node enters the queue at most once. -/
def descendants (g : CallGraph) (id : String) : List String :=
  let first := addNew [] (g.successors id)
  g.explore (g.nodes.length + 1) first first

/-- The groups, each by id, ordered by their members. -/
def cycles (g : CallGraph) : List (List String) :=
  let reach := g.declarations.map fun d => (d.id, g.descendants d.id)
  let onCycle := reach.filter fun (id, below) => below.contains id
  onCycle.filterMap fun (id, below) =>
    let members :=
      (onCycle.filter fun (other, back) => below.contains other && back.contains id).map (·.1)
    -- The group is listed at its smallest member.
    if members.head? = some id then some members else none

end CallAtlas.CallGraph
