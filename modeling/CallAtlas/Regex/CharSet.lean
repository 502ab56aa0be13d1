import CallAtlas.Text.Blank
import CallAtlas.Text.CaseMap
import CallAtlas.Text.WordTable

/-!
# Regex.CharSet — sets of characters

A set is an expression over ranges of code points; membership is computed from the expression.
-/

namespace CallAtlas

inductive CharSet where
  /-- Code points within one of the ranges, both ends included. -/
  | ranges (rs : List (Nat × Nat))
  | union (a b : CharSet)
  | inter (a b : CharSet)
  | compl (a : CharSet)
  /-- All letters that differ from a member by case only. -/
  | anyCase (a : CharSet)
deriving DecidableEq, Repr

namespace CharSet

def contains : CharSet → Char → Bool
  | ranges rs, c => Text.CaseMap.within rs c
  | union a b, c => a.contains c || b.contains c
  | inter a b, c => a.contains c && b.contains c
  | compl a, c => !a.contains c
  | anyCase a, c => (Text.CaseMap.variants c).any a.contains

def none : CharSet := ranges []

def single (c : Char) : CharSet := ranges [(c.toNat, c.toNat)]

def range (lo hi : Char) : CharSet := ranges [(lo.toNat, hi.toNat)]

def diff (a b : CharSet) : CharSet := a.inter b.compl

def symmDiff (a b : CharSet) : CharSet := (a.diff b).union (b.diff a)

/-! ## Named sets -/

def any : CharSet := ranges [(0, 0x10FFFF)]

def digit : CharSet := ranges Text.digitRanges

def word : CharSet := ranges Text.wordRanges

def blank : CharSet :=
  ranges [(0x9, 0xD), (0x20, 0x20), (0x85, 0x85), (0xA0, 0xA0), (0x1680, 0x1680), (0x2000, 0x200A),
    (0x2028, 0x2029), (0x202F, 0x202F), (0x205F, 0x205F), (0x3000, 0x3000)]

/-- The sets that are named within brackets as `[:name:]`. -/
def ascii? (name : String) : Option CharSet :=
  match name with
  | "alnum" => some (ranges [(48, 57), (65, 90), (97, 122)])
  | "alpha" => some (ranges [(65, 90), (97, 122)])
  | "ascii" => some (ranges [(0, 127)])
  | "blank" => some (ranges [(9, 9), (32, 32)])
  | "cntrl" => some (ranges [(0, 31), (127, 127)])
  | "digit" => some (ranges [(48, 57)])
  | "graph" => some (ranges [(33, 126)])
  | "lower" => some (ranges [(97, 122)])
  | "print" => some (ranges [(32, 126)])
  | "punct" => some (ranges [(33, 47), (58, 64), (91, 96), (123, 126)])
  | "space" => some (ranges [(9, 13), (32, 32)])
  | "upper" => some (ranges [(65, 90)])
  | "word" => some (ranges [(48, 57), (65, 90), (95, 95), (97, 122)])
  | "xdigit" => some (ranges [(48, 57), (65, 70), (97, 102)])
  | _ => Option.none

end CharSet

end CallAtlas
