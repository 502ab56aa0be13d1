/-!
# Impact.Risk — how much a change endangers a caller

A caller within `highDistance` that itself has at least `highFanIn` callers is at high risk, any
other one within `mediumDistance` at medium risk, and the rest at low risk.
-/

namespace CallAtlas

inductive RiskLevel where
  | low | medium | high
deriving DecidableEq, Repr

namespace RiskLevel

def all : List RiskLevel := [.low, .medium, .high]

def name : RiskLevel → String
  | .low => "low"
  | .medium => "medium"
  | .high => "high"

def rank : RiskLevel → Nat
  | .low => 0
  | .medium => 1
  | .high => 2

def max (a b : RiskLevel) : RiskLevel := if a.rank ≤ b.rank then b else a

/-- The highest of some levels, if there is any. -/
def highest? : List RiskLevel → Option RiskLevel
  | [] => none
  | a :: rest => some (rest.foldl max a)

end RiskLevel

structure RiskPolicy where
  highDistance : Nat := 1
  highFanIn : Nat := 2
  mediumDistance : Nat := 2
deriving DecidableEq, Repr

namespace RiskPolicy

def assess (p : RiskPolicy) (distance fanIn : Nat) : RiskLevel :=
  if distance ≤ p.highDistance ∧ p.highFanIn ≤ fanIn then .high
  else if distance ≤ p.mediumDistance then .medium
  else .low

end RiskPolicy

end CallAtlas
