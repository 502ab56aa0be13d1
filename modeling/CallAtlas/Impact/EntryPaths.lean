import CallAtlas.Graph.Query
import CallAtlas.Settings.Basic

/-!
# Impact.EntryPaths — the ways from a declaration up to entry points

Paths run against the direction of the calls and do not repeat a declaration. A path ends at the
first entry point.
-/

namespace CallAtlas

structure EntryPaths where
  /-- Each starts at the declaration and ends at an entry point. -/
  paths : List (List String) := []
  truncated : Bool := false
deriving DecidableEq, Repr

namespace EntryPaths

/-- Order of paths: by the first difference, a shorter one first. -/
def pathLe : List String → List String → Bool
  | [], _ => true
  | _ :: _, [] => false
  | a :: as, b :: bs => decide (a < b) || (a == b && pathLe as bs)

/-- Continues unfinished paths, the last one first; each is written from its end. `visits` counts
those that did not end at once. -/
def search (g : CallGraph) (limits : TraversalLimits) :
    Nat → Nat → List (List String) → EntryPaths → EntryPaths
  | 0, _, _, found => found
  | _ + 1, _, [], found => found
  | fuel + 1, visits, [] :: open_, found => search g limits fuel visits open_ found
  | fuel + 1, visits, (current :: before) :: open_, found =>
    let path := current :: before
    if g.isEntryPoint current then
      search g limits fuel visits open_ { found with paths := found.paths ++ [path.reverse] }
    else if limits.maxVisits ≤ visits then { found with truncated := true }
    else
      match (g.callerIds current).filter (!path.contains ·) with
      | [] => search g limits fuel (visits + 1) open_ found
      | callers =>
        if limits.maxDepth < path.length then
          search g limits fuel (visits + 1) open_ { found with truncated := true }
        else search g limits fuel (visits + 1) (callers.map (· :: path) ++ open_) found

/-- The paths of an id or name. A visit opens at most one path for each node. -/
def find (g : CallGraph) (limits : TraversalLimits) (query : String) :
    Except AnalysisError EntryPaths := do
  let target ← g.resolveTarget query
  let fuel := (limits.maxVisits + 1) * (g.nodes.length + 1) + 1
  let found := search g limits fuel 0 [[target.id]] {}
  return { found with paths := Order.sortOn pathLe id found.paths }

end EntryPaths

end CallAtlas
