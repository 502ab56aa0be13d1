/-!
# Feature — what users call a part of the program

A feature remembers the patterns that it was found by. Lists of features are merged by name: a
feature keeps the place where it was first seen and gains the patterns of later occurrences.
-/

namespace CallAtlas

structure Feature where
  name : String
  /-- Patterns of the rules that led to this feature. -/
  matchedVia : List String
deriving DecidableEq, Repr

namespace Feature

/-- The patterns followed by the new ones of another list. -/
def gather (patterns : List String) : List String → List String
  | [] => patterns
  | p :: ps => if patterns.contains p then gather patterns ps else gather (patterns ++ [p]) ps

/-- Adds one feature to a merged list. -/
def insert (f : Feature) : List Feature → List Feature
  | [] => [f]
  | x :: xs =>
    if x.name = f.name then { x with matchedVia := gather x.matchedVia f.matchedVia } :: xs
    else x :: insert f xs

def mergeInto (merged : List Feature) (fs : List Feature) : List Feature :=
  fs.foldl (fun acc f => insert f acc) merged

def merge (groups : List (List Feature)) : List Feature := mergeInto [] groups.flatten

end Feature

end CallAtlas
