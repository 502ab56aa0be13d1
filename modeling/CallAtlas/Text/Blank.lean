import CallAtlas.Text.Basic

/-!
# Text.Blank — white space

The class is the Unicode property `White_Space`: it holds the ideographic space and the line
separators, and not the zero-width space.
-/

namespace CallAtlas.Text

def isBlank (c : Char) : Bool :=
  let n := c.toNat
  (0x9 ≤ n && n ≤ 0xD) || n == 0x20 || n == 0x85 || n == 0xA0 || n == 0x1680 ||
    (0x2000 ≤ n && n ≤ 0x200A)
    || n == 0x2028 || n == 0x2029 || n == 0x202F || n == 0x205F || n == 0x3000

def trim (s : String) : String := trimChars isBlank s

/-- The words between blanks. -/
def words (s : String) : List String := (fields isBlank s.toList).map String.ofList

/-- Runs of blanks become one space, and none is left at the ends. -/
def collapse (s : String) : String := join " " (words s)

/-- The text before the first line break, which is a line feed with or without a carriage return
before it. -/
def firstLine (s : String) : String :=
  match cutFirst '\n' s.toList with
  | none => s
  | some (line, _) => .ofList ((dropTail? ['\r'] line).getD line)

/-- Longer text is cut to `keep` characters and marked. -/
def shorten (limit keep : Nat) (mark s : String) : String :=
  if s.length ≤ limit then s else .ofList (s.toList.take keep) ++ mark

end CallAtlas.Text
