import CallAtlas.Regex.Basic

/-!
# Glob — path patterns

`?` stands for one byte of a name and `*` for any number of them; neither crosses a slash. `**`
between slashes, at the start or at the end stands for any number of directories. Brackets hold a
set of characters, braces hold alternatives, and a backslash takes the next character as it is.
Paths are compared byte by byte.

A pattern is read into tokens (`Glob.parse?`), which mean a regular expression (`Glob.toRegex`).
-/

namespace CallAtlas

inductive GlobToken where
  | literal (c : Char)
  /-- One byte other than a slash. -/
  | one
  /-- Bytes other than slashes. -/
  | star
  | set (negated : Bool) (ranges : List (Char × Char))
  /-- Any directories at the start. -/
  | anyStart
  /-- A slash and all below it. -/
  | anyEnd
  /-- A slash, with any directories after it. -/
  | anyMiddle
  | alternatives (branches : List (List GlobToken))
deriving Repr

abbrev Glob := List GlobToken

namespace Glob

/-! ## Reading -/

/-- A pattern in progress. Lists are reversed. -/
structure Draft where
  tokens : Glob := []
  /-- Open braces, the innermost first: what stands before them, and their finished branches. -/
  groups : List (Glob × List Glob) := []
  /-- The character before. -/
  last : Option Char := none

namespace Draft

def push (d : Draft) (t : GlobToken) (last : Char) : Draft :=
  { d with tokens := t :: d.tokens, last := some last }

def isGrouped (d : Draft) : Bool := !d.groups.isEmpty

def openGroup (d : Draft) : Draft :=
  { tokens := [], groups := (d.tokens, []) :: d.groups, last := some '\x7b' }

def nextBranch (d : Draft) : Draft :=
  match d.groups with
  | (before, branches) :: outer =>
    { tokens := [], groups := (before, d.tokens.reverse :: branches) :: outer, last := some ',' }
  | [] => d

/-- Fails if no brace is open. -/
def closeGroup? (d : Draft) : Option Draft :=
  match d.groups with
  | (before, branches) :: outer =>
    let all := (d.tokens.reverse :: branches).reverse
    some { tokens := .alternatives all :: before, groups := outer, last := some '\x7d' }
  | [] => none

/-- The slash before two stars becomes part of them; stars that follow each other are the same as
one pair. -/
def replaceSlash (d : Draft) (t : GlobToken) (last : Char) : Draft :=
  match d.tokens with
  | .anyStart :: _ | .anyEnd :: _ => { d with last := some last }
  | _ :: before => { d with tokens := t :: before, last := some last }
  | [] => { d with tokens := [t], last := some last }

/-- Reads what follows two stars. -/
def twoStars (d : Draft) (rest : List Char) : Draft × List Char :=
  let plain := ((d.push .star '*').push .star '*', rest)
  match d.tokens, rest with
  | [], [] => (d.push .anyStart '*', [])
  | [], '/' :: rest => (d.push .anyStart '/', rest)
  | [], _ => plain
  | _ :: _, rest =>
    let bounded := d.last = some '/' || (d.isGrouped && (d.last = some ',' || d.last = some '\x7b'))
    if !bounded then plain
    else
      match rest with
      | [] => (d.replaceSlash .anyEnd '*', [])
      | '/' :: rest => (d.replaceSlash .anyMiddle '/', rest)
      | c :: _ =>
        if d.isGrouped && (c = ',' || c = '\x7d') then (d.replaceSlash .anyEnd '*', rest) else plain

end Draft

inductive SetResult where
  | set (ranges : List (Char × Char)) (rest : List Char)
  | unclosed
  /-- A range that ends before it starts. -/
  | disordered

/-- Reads a set after its opening bracket. A closing bracket or hyphen at the start, and a hyphen at
the end, stand for themselves. -/
def readSet (first inRange : Bool) (ranges : List (Char × Char)) : List Char → SetResult
  | [] => .unclosed
  | c :: cs =>
    if c = ']' && !first then .set (if inRange then ('-', '-') :: ranges else ranges) cs
    else if c = '-' && !first && !inRange then readSet false true ranges cs
    else
      match inRange, ranges with
      | true, (lo, _) :: ranges =>
        if c < lo then .disordered else readSet false false ((lo, c) :: ranges) cs
      | _, _ => readSet false false ((c, c) :: ranges) cs

/-- An unclosed bracket stands for itself. -/
def read : Nat → Draft → List Char → Option Glob
  | 0, _, _ => none
  | _ + 1, d, [] => if d.isGrouped then none else some d.tokens.reverse
  | n + 1, d, c :: cs =>
    match c with
    | '?' => read n (d.push .one c) cs
    | '*' =>
      match cs with
      | '*' :: rest => let (d, rest) := d.twoStars rest; read n d rest
      | _ => read n (d.push .star c) cs
    | '[' =>
      let (negated, inner) := match cs with
        | '!' :: inner | '^' :: inner => (true, inner)
        | _ => (false, cs)
      match readSet true false [] inner with
      | .set ranges rest => read n (d.push (.set negated ranges) ']') rest
      | .unclosed => read n (d.push (.literal c) c) cs
      | .disordered => none
    | '\x7b' => read n d.openGroup cs
    | '\x7d' => d.closeGroup?.bind (read n · cs)
    | ',' => read n (if d.isGrouped then d.nextBranch else d.push (.literal c) c) cs
    | '\\' =>
      match cs with
      | [] => none
      | e :: rest => read n (d.push (.literal e) e) rest
    | _ => read n (d.push (.literal c) c) cs

/-- Every step reads at least one character. -/
def parse? (s : String) : Option Glob := read (s.length + 1) {} s.toList

/-! ## Meaning -/

/-- The bytes of a text, each as a character. -/
def bytes (s : String) : List Char := s.toUTF8.toList.map fun b => Char.ofNat b.toNat

/-- The bytes that two characters with a hyphen between them stand for. -/
def byteRange (lo hi : Char) : List (Nat × Nat) :=
  let low := (bytes (.singleton lo)).map Char.toNat
  let high := (bytes (.singleton hi)).map Char.toNat
  if lo = hi then low.map fun b => (b, b)
  else (low.getLastD 0, high.headD 0) :: (low.dropLast ++ high.drop 1).map fun b => (b, b)

def slash : Regex := .chars (.single '/')

def anyBytes : Regex := .repeated (.chars .any) ⟨0, none⟩

def noSlash : Regex := .chars (.compl (.single '/'))

def literalRegex (c : Char) : Regex :=
  (bytes (.singleton c)).foldr (fun b r => .seq (.chars (.single b)) r) .empty

mutual

def toRegex : Glob → Regex
  | [] => .empty
  | t :: rest => .seq (tokenRegex t) (toRegex rest)

def tokenRegex : GlobToken → Regex
  | .literal c => literalRegex c
  | .one => noSlash
  | .star => .repeated noSlash ⟨0, none⟩
  | .set negated ranges =>
    let members := CharSet.ranges (ranges.flatMap fun (lo, hi) => byteRange lo hi)
    .chars (if negated then .compl members else members)
  | .anyStart => .alt (.repeated slash ⟨0, some 1⟩) (.seq anyBytes slash)
  | .anyEnd => .seq slash anyBytes
  | .anyMiddle => .alt slash (.seq slash (.seq anyBytes slash))
  | .alternatives branches =>
    match branchRegexes branches with
    | [] => .empty
    | first :: rest => rest.foldl .alt first

/-- Empty branches are left out. -/
def branchRegexes : List Glob → List Regex
  | [] => []
  | [] :: rest => branchRegexes rest
  | (t :: ts) :: rest => .seq (tokenRegex t) (toRegex ts) :: branchRegexes rest

end

/-- Whether a pattern matches a whole path; two stars alone match every path. -/
def matchesPath (g : Glob) (path : String) : Bool :=
  match g with
  | [.anyStart] => true
  | _ =>
    let text := (bytes path).toArray
    ((toRegex g).ends text 0).contains text.size

end Glob

end CallAtlas
