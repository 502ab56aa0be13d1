import CallAtlas.Regex.CharSet

/-!
# Regex — regular expressions and what they match

`ends text r i` lists the positions at which a match of `r` that starts at position `i` can end. A
text matches when some position has an end. Which of several matches would be preferred plays no
part.
-/

namespace CallAtlas

/-- A condition on a position of the text. -/
inductive Anchor where
  | textStart | textEnd | lineStart | lineEnd
  | wordBoundary | notWordBoundary | wordStart | wordEnd | wordStartHalf | wordEndHalf
deriving DecidableEq, Repr

/-- Repetition counts up to a bound, if there is one. -/
structure Repeat where
  least : Nat
  most : Option Nat
deriving DecidableEq, Repr

inductive Regex where
  | empty
  | chars (s : CharSet)
  /-- Line breaks and word characters are taken from the sets. -/
  | anchor (a : Anchor) (breaks wordChars : CharSet)
  | seq (a b : Regex)
  | alt (a b : Regex)
  | repeated (r : Regex) (times : Repeat)
  /-- A part in parentheses. -/
  | group (r : Regex)
deriving DecidableEq, Repr

namespace Anchor

/-- Whether the condition holds between the characters before and after a position. -/
def holds (a : Anchor) (breaks wordChars : CharSet) (before after : Option Char) : Bool :=
  let w (c : Option Char) : Bool := c.any wordChars.contains
  -- Between a carriage return and its line feed there is no line start or end.
  let inBreak := before == some '\r' && after == some '\n' && breaks.contains '\r'
  match a with
  | textStart => before.isNone
  | textEnd => after.isNone
  | lineStart => before.isNone || (before.any breaks.contains && !inBreak)
  | lineEnd => after.isNone || (after.any breaks.contains && !inBreak)
  | wordBoundary => w before != w after
  | notWordBoundary => w before == w after
  | wordStart => !w before && w after
  | wordEnd => w before && !w after
  | wordStartHalf => !w before
  | wordEndHalf => !w after

end Anchor

namespace Regex

/-- One application of a step to a set of positions. -/
def advance (step : Nat → List Nat) (positions : List Nat) : List Nat :=
  (positions.flatMap step).eraseDups

/-- Positions after exactly `n` steps. -/
def advanceTimes (step : Nat → List Nat) : Nat → List Nat → List Nat
  | 0, positions => positions
  | n + 1, positions => advanceTimes step n (advance step positions)

/-- Positions after at most `n` steps. -/
def advanceUpTo (step : Nat → List Nat) : Nat → List Nat → List Nat
  | 0, positions => positions
  | n + 1, positions => (positions ++ advanceUpTo step n (advance step positions)).eraseDups

/-- A text of `n` characters is used up after `n` steps, or some step can be repeated without
moving; counts above `n + 1` are equivalent to it. -/
def repeatEnds (step : Nat → List Nat) (n : Nat) (times : Repeat) (i : Nat) : List Nat :=
  let least := min times.least (n + 1)
  let most := min (times.most.getD (n + 1)) (n + 1)
  advanceUpTo step (most - least) (advanceTimes step least [i])

def ends (text : Array Char) : Regex → Nat → List Nat
  | empty, i => [i]
  | chars s, i => if text[i]?.any s.contains then [i + 1] else []
  | anchor a breaks wordChars, i =>
    let before := if i = 0 then none else text[i - 1]?
    if a.holds breaks wordChars before text[i]? then [i] else []
  | seq a b, i => advance (ends text b) (ends text a i)
  | alt a b, i => (ends text a i ++ ends text b i).eraseDups
  | repeated r times, i => repeatEnds (ends text r) text.size times i
  | group r, i => ends text r i

/-- Whether the expression matches somewhere in the text. -/
def isMatch (r : Regex) (s : String) : Bool :=
  let text := s.toList.toArray
  (List.range (text.size + 1)).any fun i => !(ends text r i).isEmpty

end Regex

end CallAtlas
