import CallAtlas.Text.Basic
import CallAtlas.Text.CaseMap.Table

/-!
# Text.CaseMap — case of letters in all scripts

`lower` and `upperFirst` are the full mappings: a capital sigma becomes a final sigma at the end of
a word, and some letters have an upper-case form of several letters. `variants` lists the letters
that are equal under simple case folding, which is what a pattern that ignores case asks for.
-/

namespace CallAtlas.Text

namespace CaseMap

def within (ranges : List (Nat × Nat)) (c : Char) : Bool :=
  ranges.any fun (lo, hi) => lo ≤ c.toNat && c.toNat ≤ hi

def apply (runs : List Run) (c : Char) : Char :=
  match runs.findSome? (·.image? c.toNat) with
  | some n => Char.ofNat n
  | none => c

/-- Whether the nearest character that is not looked through has case. -/
def nextIsCased : List Char → Bool
  | [] => false
  | c :: cs => if within ignorableRanges c then nextIsCased cs else within casedRanges c

/-- The lower-case form of one character between the text before it (nearest first) and after it. -/
def lowerIn (before : List Char) (c : Char) (after : List Char) : List Char :=
  if c.toNat < 128 then [asciiLower c]
  else if c = 'Σ' then
    if nextIsCased before && !nextIsCased after then ['ς'] else ['σ']
  else if c = 'İ' then ['i', Char.ofNat 0x307]
  else [apply lowerRuns c]

def lowerFrom (before : List Char) : List Char → List Char
  | [] => []
  | c :: cs => lowerIn before c cs ++ lowerFrom (c :: before) cs

def upper (c : Char) : List Char :=
  if isLower c then [Char.ofNat (c.toNat - 32)]
  else
    match upperExpansions.lookup c.toNat with
    | some cs => cs.map Char.ofNat
    | none => [apply upperRuns c]

/-- The representative of a letter under simple case folding. -/
def fold (c : Char) : Char :=
  if c.toNat < 128 then asciiLower c else apply foldRuns c

/-- All letters with the same representative. The Kelvin sign and the long s have one among the
ASCII letters. -/
def variants (c : Char) : List Char :=
  let key := fold c
  if key.toNat < 128 then
    if key = 'k' then ['k', 'K', Char.ofNat 0x212A]
    else if key = 's' then ['s', 'S', Char.ofNat 0x17F]
    else if isLower key then [key, Char.ofNat (key.toNat - 32)]
    else [key]
  else key :: (foldRuns.filterMap (·.preimage? key.toNat)).map Char.ofNat

end CaseMap

/-- The lower-case form of a text. -/
def lower (s : String) : String := .ofList (CaseMap.lowerFrom [] s.toList)

/-- The first letter in upper case, the rest unchanged. -/
def upperFirst (s : String) : String :=
  match s.toList with
  | [] => s
  | c :: cs => .ofList (CaseMap.upper c ++ cs)

end CallAtlas.Text
