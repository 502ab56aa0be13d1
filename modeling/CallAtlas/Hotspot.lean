import CallAtlas.Graph.Query
import CallAtlas.Settings.Basic

/-!
# Hotspot — declarations with many connections

The score weighs incoming and outgoing calls. Scores are compared as bit patterns, so that the order
is total and minus zero comes below zero. Weights of opposite sign can add up to what is no number;
it comes below all scores.
-/

namespace CallAtlas

structure Hotspot where
  id : String
  name : String
  filePath : String
  fanIn : Nat
  fanOut : Nat
  score : Float

namespace Hotspot

/-- A number that grows with the score. -/
def rank (score : Float) : Nat :=
  let bits := score.toBits.toNat
  if score.isNaN then 0
  else if bits < Nat.pow 2 63 then bits + Nat.pow 2 63
  else Nat.pow 2 64 - 1 - bits

def ofDeclaration (g : CallGraph) (weights : HotspotSettings) (d : Declaration) : Hotspot :=
  let fanIn := g.fanIn d.id
  let fanOut := g.fanOut d.id
  { id := d.id
    name := d.qualifiedName
    filePath := d.filePath
    fanIn, fanOut
    score := Float.ofNat fanIn * weights.weightIn + Float.ofNat fanOut * weights.weightOut }

/-- All declarations, the highest score first; equal scores by id. -/
def ranking (g : CallGraph) (weights : HotspotSettings) : List Hotspot :=
  (g.declarations.map (ofDeclaration g weights)).mergeSort fun a b =>
    decide (rank b.score ≤ rank a.score)

end Hotspot

end CallAtlas
