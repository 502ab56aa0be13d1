import CallAtlas.Regex.Basic
import CallAtlas.Regex.Property

/-!
# Regex.Parser — the written form of regular expressions

Groups, alternatives, repetitions, classes with set operations, escapes and inline flags. There are
no back-references and no look-around. A text that is not well-formed has no reading; why is not
recorded.

Every function consumes characters or hands them on to one with less fuel, and the fuel is the
length of the text plus one, so it never runs out first.
-/

namespace CallAtlas.Regex

/-! ## State -/

structure Flags where
  ignoreCase : Bool := false
  multiLine : Bool := false
  dotAll : Bool := false
  /-- Blanks and comments in the pattern are skipped. -/
  extended : Bool := false
  unicode : Bool := true
  /-- A carriage return is a line break too. -/
  crlf : Bool := false
deriving DecidableEq, Repr

structure Scan where
  rest : List Char
  flags : Flags := {}
  /-- Names of groups so far. -/
  names : List (List Char) := []
deriving DecidableEq, Repr

/-- Blanks, and comments to the end of their line. -/
def dropSpace (comment : Bool) : List Char → List Char
  | [] => []
  | c :: cs =>
    if comment then dropSpace (c != '\n') cs
    else if c = '#' then dropSpace true cs
    else if Text.isBlank c then dropSpace false cs
    else c :: cs

namespace Scan

/-- Without what the extended form skips. -/
def skip (s : Scan) : Scan :=
  if s.flags.extended then { s with rest := dropSpace false s.rest } else s

def withRest (s : Scan) (rest : List Char) : Scan := { s with rest }

/-- The state after some characters, without what the extended form skips. -/
def past (s : Scan) (rest : List Char) : Scan := (s.withRest rest).skip

end Scan

namespace Flags

/-- The set in the case mode of the flags; without the Unicode mode only ASCII letters have two
cases. -/
def foldSet (f : Flags) (s : CharSet) : CharSet :=
  if !f.ignoreCase then s
  else if f.unicode then .anyCase s
  else s.union (.inter (.anyCase s) (.ranges [(0, 127)]))

def literal (f : Flags) (c : Char) : Regex := .chars (f.foldSet (.single c))

def breaks (f : Flags) : CharSet :=
  if f.crlf then .ranges [(0xA, 0xA), (0xD, 0xD)] else .single '\n'

def wordSet (f : Flags) : CharSet :=
  if f.unicode then .word else .ranges [(48, 57), (65, 90), (95, 95), (97, 122)]

def digitSet (f : Flags) : CharSet := if f.unicode then .digit else .ranges [(48, 57)]

def blankSet (f : Flags) : CharSet := if f.unicode then .blank else .ranges [(9, 13), (32, 32)]

def dot (f : Flags) : Regex := .chars (if f.dotAll then .any else f.breaks.compl)

def anchor (f : Flags) (a : Anchor) : Regex := .anchor a f.breaks f.wordSet

end Flags

/-! ## Numbers -/

def hexValue? (c : Char) : Option Nat :=
  if Text.isDigit c then some (c.toNat - 48)
  else if 'a' ≤ c ∧ c ≤ 'f' then some (c.toNat - 87)
  else if 'A' ≤ c ∧ c ≤ 'F' then some (c.toNat - 55)
  else none

/-- The character with a hexadecimal code point; surrogates have none. -/
def hexChar? (digits : List Char) : Option Char := do
  if digits.isEmpty then none
  let n := (← digits.mapM hexValue?).foldl (fun n d => 16 * n + d) 0
  if n < 0xD800 ∨ (0xDFFF < n ∧ n < 0x110000) then some (Char.ofNat n) else none

/-- A count of 32 bits, with blanks around it. -/
def count? (cs : List Char) : Option (Nat × List Char) := do
  let cs := cs.dropWhile Text.isBlank
  let digits := cs.takeWhile Text.isDigit
  if digits.isEmpty then none
  let n := digits.foldl (fun n d => 10 * n + (d.toNat - 48)) 0
  if n < Nat.pow 2 32 then some (n, (cs.drop digits.length).dropWhile Text.isBlank) else none

/-! ## Escapes -/

/-- What an escape stands for. -/
inductive Escape where
  | char (c : Char)
  | set (s : CharSet)
  | position (a : Anchor)

/-- Characters that stand for themselves after a backslash: all of ASCII but letters, digits and
angle brackets. -/
def isPlainEscape (c : Char) : Bool :=
  c.toNat < 128 && !(Text.isUpper c || Text.isLower c || Text.isDigit c || c == '<' || c == '>')

/-- The code point after `\x`, `\u` or `\U`: digits in braces, or a fixed number of them. -/
def hexEscape? (s : Scan) (width : Nat) (cs : List Char) : Option (Escape × Scan) :=
  match (s.past cs).rest with
  | '{' :: inner => do
    let digits := inner.takeWhile (· != '}')
    let rest ← (inner.drop digits.length).tail?
    let digits := if s.flags.extended then dropSpaceAll digits else digits
    return (.char (← hexChar? digits), s.withRest rest)
  | inner => do
    let digits := inner.take width
    if digits.length < width then none
    let c ← hexChar? digits
    -- Two digits stand for a byte without the Unicode mode, and half a character is no text.
    if width = 2 ∧ !s.flags.unicode ∧ 128 ≤ c.toNat then none
    return (.char c, s.withRest (inner.drop width))
where
  dropSpaceAll (cs : List Char) : List Char := cs.filter (!Text.isBlank ·)

/-- A property after `\p` or `\P`: one letter, or a name in braces. -/
def propertyEscape? (s : Scan) (negated : Bool) (cs : List Char) : Option (Escape × Scan) := do
  let (name, rest) ←
    match (s.past cs).rest with
    | '{' :: inner =>
      let name := inner.takeWhile (· != '}')
      (inner.drop name.length).tail?.map (name, ·)
    | c :: rest => if c = '\\' then none else some ([c], rest)
    | [] => none
  if !s.flags.unicode then none
  let set := s.flags.foldSet (← CharSet.property? name)
  return (.set (if negated then set.compl else set), s.withRest rest)

/-- What may follow `\b` in braces. -/
def boundaryName? (name : List Char) : Option Anchor :=
  match String.ofList name with
  | "start" => some .wordStart
  | "end" => some .wordEnd
  | "start-half" => some .wordStartHalf
  | "end-half" => some .wordEndHalf
  | _ => none

/-- A word boundary; braces after it hold a name, or else a repetition that follows. -/
def boundaryEscape? (s : Scan) (cs : List Char) : Option (Escape × Scan) :=
  let isNameChar (c : Char) : Bool := Text.isUpper c || Text.isLower c || c == '-'
  match cs with
  | '{' :: inner =>
    match (s.past inner).rest with
    | [] => none
    | c :: more =>
      if isNameChar c then do
        let name := (c :: more).takeWhile isNameChar
        match (c :: more).drop name.length with
        | '}' :: rest => return (.position (← boundaryName? name), s.withRest rest)
        | _ => none
      else some (.position .wordBoundary, s.withRest cs)
  | _ => some (.position .wordBoundary, s.withRest cs)

/-- Reads an escape after its backslash. -/
def escape? (s : Scan) (cs : List Char) : Option (Escape × Scan) :=
  match cs with
  | [] => none
  | c :: rest =>
    let char (d : Char) : Option (Escape × Scan) := some (.char d, s.withRest rest)
    let set (x : CharSet) : Option (Escape × Scan) := some (.set x, s.withRest rest)
    -- Outside the Unicode mode a complement would hold parts of characters.
    let others (x : CharSet) : Option (Escape × Scan) :=
      if s.flags.unicode then set x.compl else none
    let position (a : Anchor) : Option (Escape × Scan) := some (.position a, s.withRest rest)
    if isPlainEscape c then char c
    else
      match c with
      | 'x' => hexEscape? s 2 rest
      | 'u' => hexEscape? s 4 rest
      | 'U' => hexEscape? s 8 rest
      | 'p' => propertyEscape? s false rest
      | 'P' => propertyEscape? s true rest
      | 'd' => set s.flags.digitSet
      | 'D' => others s.flags.digitSet
      | 's' => set s.flags.blankSet
      | 'S' => others s.flags.blankSet
      | 'w' => set s.flags.wordSet
      | 'W' => others s.flags.wordSet
      | 'a' => char '\x07'
      | 'f' => char '\x0c'
      | 't' => char '\t'
      | 'n' => char '\n'
      | 'r' => char '\r'
      | 'v' => char '\x0b'
      | 'A' => position .textStart
      | 'z' => position .textEnd
      | 'b' => boundaryEscape? s rest
      | 'B' => position .notWordBoundary
      | '<' => position .wordStart
      | '>' => position .wordEnd
      | _ => none

/-! ## Classes -/

/-- One part of a class. -/
inductive ClassItem where
  | char (c : Char)
  | set (s : CharSet)

def classItem? (s : Scan) : Option (ClassItem × Scan) :=
  match s.rest with
  | [] => none
  | '\\' :: rest =>
    match escape? s rest with
    | some (.char c, s) => plain c s
    | some (.set x, s) => some (.set x, s)
    | some (.position _, _) => none
    | none => none
  | c :: rest => plain c (s.withRest rest)
where
  /-- Outside the Unicode mode a class holds ASCII characters only. -/
  plain (c : Char) (s : Scan) : Option (ClassItem × Scan) :=
    if s.flags.unicode || c.toNat < 128 then some (.char c, s) else none

def ClassItem.toSet : ClassItem → CharSet
  | char c => .single c
  | set s => s

/-- A single part or a range. A hyphen before the end of the class or before another hyphen makes no
range. -/
def classRange? (s : Scan) : Option (CharSet × Scan) := do
  let (first, s) ← classItem? s
  let s := s.skip
  match s.rest with
  | [] => none
  | '-' :: more =>
    match (s.past more).rest with
    | [] => none
    | ']' :: _ | '-' :: _ => return (first.toSet, s)
    | _ =>
      let (second, s) ← classItem? (s.past more)
      match first, second with
      | .char a, .char b => if a ≤ b then return (.range a b, s) else none
      | _, _ => none
  | _ => return (first.toSet, s)

/-- A named class in `[:` and `:]`, at the opening bracket. -/
def asciiClass? (cs : List Char) : Option (CharSet × List Char) :=
  match cs with
  | '[' :: ':' :: rest =>
    let (negated, rest) := match rest with
      | '^' :: rest => (true, rest)
      | rest => (false, rest)
    let name := rest.takeWhile (· != ':')
    match rest.drop name.length with
    | ':' :: ']' :: rest =>
      (CharSet.ascii? (.ofList name)).map fun s => (if negated then s.compl else s, rest)
    | _ => none
  | _ => none

/-- How the part before an operator is combined with the part after it. -/
inductive SetOp where
  | inter | diff | symmDiff

def SetOp.apply (op : SetOp) (a b : CharSet) : CharSet :=
  match op with
  | inter => a.inter b
  | diff => a.diff b
  | symmDiff => a.symmDiff b

/-- Joins a finished part with the operation that waits for it. -/
def settle (f : Flags) (waiting : Option (CharSet × SetOp)) (part : CharSet) : CharSet :=
  match waiting with
  | none => part
  | some (before, op) => op.apply (f.foldSet before) (f.foldSet part)

/-- Hyphens at the start of a class, and a bracket there, stand for themselves. -/
def classStart (s : Scan) : CharSet × Scan :=
  let (set, s) := hyphens s.rest.length .none s
  match set, s.rest with
  | .ranges [], ']' :: rest => (.single ']', s.past rest)
  | _, _ => (set, s)
where
  hyphens : Nat → CharSet → Scan → CharSet × Scan
    | 0, set, s => (set, s)
    | n + 1, set, s =>
      match s.rest with
      | '-' :: rest => hyphens n (.single '-') (s.past rest)
      | _ => (set, s)

/-- Reads a class after its opening bracket. -/
def bracket? : Nat → Scan → Option (CharSet × Scan)
  | 0, _ => none
  | fuel + 1, s => do
    let s := s.skip
    let (negated, s) := match s.rest with
      | '^' :: rest => (true, s.past rest)
      | _ => (false, s)
    let (first, s) := classStart s
    let (set, s) ← classBody (bracket? fuel) s.rest.length none first s
    let set := s.flags.foldSet set
    if negated && !s.flags.unicode then none
    return (if negated then set.compl else set, s)
where
  /-- Reads the parts of a class up to its closing bracket. -/
  classBody (nested : Scan → Option (CharSet × Scan)) :
      Nat → Option (CharSet × SetOp) → CharSet → Scan → Option (CharSet × Scan)
    | 0, _, _, _ => none
    | n + 1, waiting, part, s =>
      let s := s.skip
      let operate (op : SetOp) (rest : List Char) : Option (CharSet × Scan) :=
        classBody nested n (some (settle s.flags waiting part, op)) .none (s.withRest rest)
      match s.rest with
      | [] => none
      | ']' :: rest => some (settle s.flags waiting part, s.withRest rest)
      | '&' :: '&' :: rest => operate .inter rest
      | '-' :: '-' :: rest => operate .diff rest
      | '~' :: '~' :: rest => operate .symmDiff rest
      | '[' :: rest =>
        match asciiClass? s.rest with
        | some (set, rest) => classBody nested n waiting (part.union set) (s.withRest rest)
        | none =>
          match nested (s.withRest rest) with
          | none => none
          | some (set, s) => classBody nested n waiting (part.union set) s
      | _ =>
        match classRange? s with
        | none => none
        | some (set, s) => classBody nested n waiting (part.union set) s

/-! ## Groups -/

/-- What an opening parenthesis starts. -/
inductive GroupStart where
  /-- A group with its flags. -/
  | group (flags : Flags)
  /-- Flags for the rest of the group around. -/
  | setFlags (flags : Flags)

def setFlag? (f : Flags) (value : Bool) (c : Char) : Option Flags :=
  match c with
  | 'i' => some { f with ignoreCase := value }
  | 'm' => some { f with multiLine := value }
  | 's' => some { f with dotAll := value }
  | 'x' => some { f with extended := value }
  | 'u' => some { f with unicode := value }
  | 'R' => some { f with crlf := value }
  | 'U' => some f
  | _ => none

/-- Reads flags up to a colon or a closing parenthesis; answers also the flags that were written. A
flag is written at most once, and so is the minus, which does not come last. -/
def flags? (f : Flags) (seen : List Char) : List Char → Option (Flags × List Char × List Char)
  | [] => none
  | c :: cs =>
    if c = ':' ∨ c = ')' then
      if seen.head? = some '-' then none else some (f, seen, c :: cs)
    else if seen.contains c then none
    else if c = '-' then flags? f (c :: seen) cs
    else
      match setFlag? f (!seen.contains '-') c with
      | none => none
      | some f => flags? f (c :: seen) cs

def isNameStart (c : Char) : Bool :=
  c == '_' || (CharSet.word.contains c && !CharSet.digit.contains c)

def isNameChar (c : Char) : Bool := c == '.' || c == '[' || c == ']' || CharSet.word.contains c

/-- Reads the name of a group up to its closing bracket. -/
def groupName? (s : Scan) (cs : List Char) : Option Scan := do
  let name := cs.takeWhile (· != '>')
  let rest ← (cs.drop name.length).tail?
  let first ← name.head?
  if isNameStart first && name.all isNameChar && !s.names.contains name then
    some { s with rest, names := name :: s.names }
  else none

/-- Reads what follows an opening parenthesis. -/
def groupStart? (s : Scan) (cs : List Char) : Option (GroupStart × Scan) :=
  match (s.past cs).rest with
  | '?' :: '=' :: _ | '?' :: '!' :: _ | '?' :: '<' :: '=' :: _ | '?' :: '<' :: '!' :: _ => none
  | '?' :: 'P' :: '<' :: rest | '?' :: '<' :: rest => (groupName? s rest).map (.group s.flags, ·)
  | '?' :: rest => do
    let (f, written, rest) ← flags? s.flags [] rest
    match rest with
    | ')' :: rest => if written.isEmpty then none else some (.setFlags f, s.withRest rest)
    | _ :: rest => some (.group f, s.withRest rest)
    | [] => none
  | rest => some (.group s.flags, s.withRest rest)

/-! ## Expressions -/

/-- Repetitions after an atom: the counts, and the rest without the mark of a lazy repetition. -/
def repeat? (s : Scan) : Option (Option (Repeat × Scan)) :=
  let mark (times : Repeat) (rest : List Char) : Option (Option (Repeat × Scan)) :=
    match rest with
    | '?' :: rest => some (some (times, s.withRest rest))
    | rest => some (some (times, s.withRest rest))
  match s.rest with
  | '*' :: rest => mark ⟨0, none⟩ rest
  | '+' :: rest => mark ⟨1, none⟩ rest
  | '?' :: rest => mark ⟨0, some 1⟩ rest
  | '{' :: rest =>
    match count? rest with
    | none => none
    | some (least, '}' :: rest) => mark ⟨least, some least⟩ (s.past rest).rest
    | some (least, ',' :: rest) =>
      match (s.past rest).rest with
      | '}' :: rest => mark ⟨least, none⟩ (s.past rest).rest
      | rest =>
        match count? rest with
        | some (most, '}' :: rest) =>
          if least ≤ most then mark ⟨least, some most⟩ (s.past rest).rest else none
        | _ => none
    | some _ => none
  | _ => some none

/-- An atom with the repetitions that follow it. -/
def repeatAll? : Nat → Regex → Scan → Option (Regex × Scan)
  | 0, _, _ => none
  | fuel + 1, r, s =>
    let s := s.skip
    match repeat? s with
    | none => none
    | some none => some (r, s)
    | some (some (times, s)) => repeatAll? fuel (.repeated r times) s

mutual

/-- Alternatives, up to a closing parenthesis or the end. -/
def alternatives? : Nat → Scan → Option (Regex × Scan)
  | 0, _ => none
  | fuel + 1, s =>
    match sequence? fuel .empty s with
    | none => none
    | some (first, s) =>
      match s.rest with
      | '|' :: rest =>
        match alternatives? fuel (s.withRest rest) with
        | none => none
        | some (others, s) => some (.alt first others, s)
      | _ => some (first, s)

/-- Atoms one after the other, up to a bar, a closing parenthesis or the end. -/
def sequence? : Nat → Regex → Scan → Option (Regex × Scan)
  | 0, _, _ => none
  | fuel + 1, before, s =>
    let s := s.skip
    match s.rest with
    | [] | '|' :: _ | ')' :: _ => some (before, s)
    | '(' :: rest =>
      match groupStart? s rest with
      | none => none
      | some (.setFlags f, s) =>
        -- Flags cannot be repeated.
        match (repeat? { s with flags := f }.skip) with
        | some none => sequence? fuel before { s with flags := f }
        | _ => none
      | some (.group f, s') =>
        match alternatives? fuel { s' with flags := f } with
        | some (r, s') =>
          match s'.rest with
          | ')' :: rest => continue? fuel before (.group r) { s' with flags := s.flags, rest }
          | _ => none
        | none => none
    | c :: rest =>
      match atom? fuel c (s.withRest rest) with
      | none => none
      | some (r, s) => continue? fuel before r s

/-- The rest of a sequence after an atom. -/
def continue? : Nat → Regex → Regex → Scan → Option (Regex × Scan)
  | 0, _, _, _ => none
  | fuel + 1, before, r, s =>
    match repeatAll? (s.rest.length + 1) r s with
    | none => none
    | some (r, s) => sequence? fuel (.seq before r) s

/-- An atom other than a group, after its first character. -/
def atom? : Nat → Char → Scan → Option (Regex × Scan)
  | 0, _, _ => none
  | _ + 1, c, s =>
    match c with
    | '?' | '*' | '+' | '{' => none
    | '.' => if s.flags.unicode then some (s.flags.dot, s) else none
    | '^' => some (s.flags.anchor (if s.flags.multiLine then .lineStart else .textStart), s)
    | '$' => some (s.flags.anchor (if s.flags.multiLine then .lineEnd else .textEnd), s)
    | '[' => (bracket? (s.rest.length + 1) s).map fun (set, s) => (.chars set, s)
    | '\\' =>
      (escape? s s.rest).map fun (e, s) =>
        match e with
        | .char c => (s.flags.literal c, s)
        | .set x => (.chars x, s)
        | .position a => (s.flags.anchor a, s)
    | c => some (s.flags.literal c, s)

end

/-- The expression that a text denotes, with the given flags at its start. -/
def parse? (flags : Flags) (pattern : String) : Option Regex :=
  let cs := pattern.toList
  match alternatives? (3 * cs.length + 3) { rest := cs, flags } with
  | some (r, s) => if s.rest.isEmpty then some r else none
  | none => none

end CallAtlas.Regex
