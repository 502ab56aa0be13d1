import CallAtlas.Regex.Parser

/-!
# Regex.Limit — expressions that are too large

An expression is refused when its parts are nested too deep or when its automaton would be too
large. A repetition takes as much room as all of its copies together.
-/

namespace CallAtlas

namespace CharSet

/-- Number of ranges that a set is built from. -/
def rangeCount : CharSet → Nat
  | ranges rs => rs.length
  | union a b | inter a b => a.rangeCount + b.rangeCount
  | compl a => a.rangeCount + 1
  | anyCase a => a.rangeCount

def isAscii : CharSet → Bool
  | ranges rs => rs.all (·.2 < 128)
  | union a b => a.isAscii && b.isAscii
  | inter a b => a.isAscii || b.isAscii
  | compl _ => false
  | anyCase a => a.isAscii

/-- Bytes of an automaton for one character of the set. Characters beyond ASCII are several bytes
long. -/
def size (s : CharSet) : Nat := if s.isAscii then 64 + 8 * s.rangeCount else 512 + 28 * s.rangeCount

end CharSet

namespace Regex

/-- Bytes of one state of an automaton. -/
def stateSize : Nat := 32

/-- Bytes of an automaton for the expression. -/
def size : Regex → Nat
  | empty | anchor .. => stateSize
  | chars s => s.size
  | seq a b => a.size + b.size
  | alt a b => a.size + b.size + stateSize
  | group r => r.size + 2 * stateSize
  | repeated r times =>
    match times.most with
    | some most => most * r.size + (most - times.least) * stateSize
    | none => (times.least + 1) * r.size + stateSize

def maxSize : Nat := 10 * Nat.pow 2 20

/-- The levels of an expression, as a sequence and as alternatives in progress. -/
structure Levels where
  /-- Number of parts of the sequence. -/
  parts : Nat
  /-- Levels of the deepest part. -/
  inner : Nat
  /-- The expression is a list of alternatives. -/
  isChoice : Bool := false

namespace Levels

/-- A sequence of several parts, and a list of alternatives, is a level of its own. -/
def total (l : Levels) : Nat := if 2 ≤ l.parts || l.isChoice then l.inner + 1 else l.inner

end Levels

def levels : Regex → Levels
  | empty => ⟨0, 0, false⟩
  | chars _ | anchor .. => ⟨1, 0, false⟩
  | seq a b =>
    let before := a.levels
    ⟨before.parts + 1, max before.inner b.levels.total, false⟩
  | alt a b =>
    let others := b.levels
    ⟨1, max a.levels.total (if others.isChoice then others.inner else others.total), true⟩
  | group r => ⟨1, r.levels.total + 1, false⟩
  | repeated r _ => ⟨1, r.levels.total + 1, false⟩

def maxLevels : Nat := 250

/-- Reads an expression that is within the limits. -/
def compile? (flags : Flags) (pattern : String) : Option Regex := do
  let r ← parse? flags pattern
  if r.levels.total ≤ maxLevels && r.size ≤ maxSize then some r else none

end Regex

end CallAtlas
