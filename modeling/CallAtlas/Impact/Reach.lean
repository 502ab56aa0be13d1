import CallAtlas.Graph.Query
import CallAtlas.Settings.Basic

/-!
# Impact.Reach — all callers of a declaration, near and far

A breadth-first walk against the direction of the calls. Each caller is recorded when it is first
seen, which is at its least distance. The walk looks no further than the depth limit and ends for
good at the visit limit; `truncated` says that a limit left a caller out.
-/

namespace CallAtlas

structure Reach where
  /-- Callers with their distance, in the order of discovery; the start is not among them. -/
  reached : List (String × Nat) := []
  truncated : Bool := false
deriving DecidableEq, Repr

namespace Reach

def isSeen (start : String) (reached : List (String × Nat)) (id : String) : Bool :=
  id == start || reached.any (·.1 == id)

/-- Records the new ones among some callers. Answers also whether the visit limit left one out. -/
def discover (start : String) (maxVisits distance : Nat) :
    List String → List (String × Nat) → List (String × Nat) × Bool
  | [], reached => (reached, false)
  | id :: ids, reached =>
    if isSeen start reached id then discover start maxVisits distance ids reached
    else if maxVisits ≤ reached.length then (reached, true)
    else discover start maxVisits distance ids (reached ++ [(id, distance)])

/-- Works off the queue, which holds what was recorded and not yet looked at. -/
def walk (g : CallGraph) (limits : TraversalLimits) (start : String) :
    Nat → List (String × Nat) → Reach → Reach
  | 0, _, r => r
  | _ + 1, [], r => r
  | fuel + 1, (id, distance) :: queue, r =>
    let callers := g.callerIds id
    if limits.maxDepth ≤ distance then
      walk g limits start fuel queue
        { r with truncated := r.truncated || callers.any (!isSeen start r.reached ·) }
    else
      match discover start limits.maxVisits (distance + 1) callers r.reached with
      | (reached, true) => ⟨reached, true⟩
      | (reached, false) =>
        walk g limits start fuel (queue ++ reached.drop r.reached.length) { r with reached }

/-- All callers of a declaration. Each node enters the queue at most once. -/
def callersOf (g : CallGraph) (limits : TraversalLimits) (id : String) : Reach :=
  if g.contains id then walk g limits id (g.nodes.length + 1) [(id, 0)] {} else {}

end Reach

end CallAtlas
