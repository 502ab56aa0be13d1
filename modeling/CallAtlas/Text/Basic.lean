/-!
# Text — cutting and joining strings

Paths, module specifiers, identifiers and URLs are taken apart in a few ways only: at a separator,
at a fixed lead or tail, or by trimming. The cuts are functions on lists of characters, so that each
has a plain inductive reading; the `String` forms convert at the ends and add nothing.
-/

namespace CallAtlas.Text

/-! ## Lists of characters -/

/-- The list `cs` without the lead `pre`, when `cs` starts with it. -/
def dropLead? : List Char → List Char → Option (List Char)
  | [], cs => some cs
  | p :: pre, c :: cs => if p = c then dropLead? pre cs else none
  | _ :: _, [] => none

/-- The list `cs` without the tail `suf`, when `cs` ends with it. -/
def dropTail? (suf cs : List Char) : Option (List Char) :=
  (dropLead? suf.reverse cs.reverse).map List.reverse

/-- Whether `pat` occurs somewhere in `cs`. -/
def occursIn (pat : List Char) : List Char → Bool
  | [] => pat.isEmpty
  | c :: cs => pat.isPrefixOf (c :: cs) || occursIn pat cs

/-- The list `cs` without the characters of class `p` at its end. -/
def dropWhileEnd (p : Char → Bool) (cs : List Char) : List Char :=
  (cs.reverse.dropWhile p).reverse

/-- The list `cs` without the characters of class `p` at both ends. -/
def trimBy (p : Char → Bool) (cs : List Char) : List Char :=
  dropWhileEnd p (cs.dropWhile p)

/-- What stands before and after the first `sep`, if there is one. -/
def cutFirst (sep : Char) : List Char → Option (List Char × List Char)
  | [] => none
  | c :: cs => if c = sep then some ([], cs) else (cutFirst sep cs).map fun (a, b) => (c :: a, b)

/-- What stands before and after the last `sep`, if there is one. -/
def cutLast (sep : Char) : List Char → Option (List Char × List Char)
  | [] => none
  | c :: cs =>
    match cutLast sep cs with
    | some (a, b) => some (c :: a, b)
    | none => if c = sep then some ([], cs) else none

/-- The maximal runs of characters outside the class `p`. -/
def fields (p : Char → Bool) : List Char → List (List Char)
  | [] => []
  | c :: cs =>
    if p c then fields p cs
    else
      match cs with
      | [] => [[c]]
      | d :: _ =>
        if p d then [c] :: fields p cs
        else
          match fields p cs with
          | [] => [[c]]
          | w :: ws => (c :: w) :: ws

/-! ## Strings -/

/-- The pieces of `s` between separators; a string without one is a single piece. -/
def split (sep : Char) (s : String) : List String :=
  (s.toList.splitOn sep).map String.ofList

/-- The pieces joined by the separator. -/
def join (sep : String) (pieces : List String) : String := sep.intercalate pieces

def stripLead? (pre s : String) : Option String :=
  (dropLead? pre.toList s.toList).map String.ofList

def stripTail? (suf s : String) : Option String :=
  (dropTail? suf.toList s.toList).map String.ofList

def startsWith (s pre : String) : Bool := pre.toList.isPrefixOf s.toList

def endsWith (s suf : String) : Bool := suf.toList.isSuffixOf s.toList

def contains (s pat : String) : Bool := occursIn pat.toList s.toList

def trimChars (p : Char → Bool) (s : String) : String := .ofList (trimBy p s.toList)

def splitLast? (sep : Char) (s : String) : Option (String × String) :=
  (cutLast sep s.toList).map fun (a, b) => (.ofList a, .ofList b)

/-- Every `a` becomes `b`. -/
def replaceChar (a b : Char) (s : String) : String :=
  .ofList (s.toList.map fun c => if c = a then b else c)

/-- At least `width` characters, filled with blanks on the right. -/
def padRight (width : Nat) (s : String) : String :=
  s ++ .ofList (List.replicate (width - s.length) ' ')

/-- At least `width` characters, filled with blanks on the left. -/
def padLeft (width : Nat) (s : String) : String :=
  .ofList (List.replicate (width - s.length) ' ') ++ s

/-- The decimal digits of a natural number. -/
def decimal (n : Nat) : String := .ofList (Nat.toDigits 10 n)

/-! ## ASCII letters -/

def isUpper (c : Char) : Bool := 'A' ≤ c && c ≤ 'Z'

def isLower (c : Char) : Bool := 'a' ≤ c && c ≤ 'z'

def isDigit (c : Char) : Bool := '0' ≤ c && c ≤ '9'

/-- The lower-case form of an ASCII letter, any other character unchanged. -/
def asciiLower (c : Char) : Char := if isUpper c then Char.ofNat (c.toNat + 32) else c

/-- Equality up to the case of ASCII letters. -/
def sameIgnoringCase (a b : String) : Bool :=
  a.toList.map asciiLower == b.toList.map asciiLower

/-! ## Order -/

/-- Sorted by code points, equal strings kept in their order. -/
def sort (xs : List String) : List String := xs.mergeSort fun a b => decide (a ≤ b)

/-- Sorted, each string once. -/
def sortUnique (xs : List String) : List String := (sort xs).eraseDups

end CallAtlas.Text
