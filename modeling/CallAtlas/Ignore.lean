import CallAtlas.Glob
import CallAtlas.Text.Blank

/-!
# Ignore — rules that leave files out

An ignore file has one rule on each line. A rule is a path pattern relative to the directory of the
file; one without a slash applies at any depth. A leading `!` keeps what an earlier rule leaves out,
and a trailing slash restricts a rule to directories. Of several rules that match, the last one
decides.
-/

namespace CallAtlas

structure IgnoreRule where
  glob : Glob
  /-- Keeps what it matches. -/
  keeps : Bool
  onlyDirectories : Bool
deriving Repr

namespace IgnoreRule

/-- A line without the blanks at its end, unless the last one is escaped. -/
def trimLine (line : List Char) : List Char :=
  if (Text.dropTail? ['\\', ' '] line).isSome then line else Text.dropWhileEnd Text.isBlank line

/-- The pattern of a rule: it applies at any depth if it has no slash, and two stars at its end do
not match the directory before them. -/
def anywhere (anchored : Bool) (pattern : List Char) : List Char :=
  let stars := "**/".toList
  let deep :=
    if anchored || pattern.contains '/' || stars.isPrefixOf pattern || pattern
      = "**".toList then pattern
    else stars ++ pattern
  if (Text.dropTail? "/**".toList deep).isSome then deep ++ "/*".toList else deep

/-- Whether the rule starts at the directory of its file, and the rest. -/
def anchor (line : List Char) : Bool × List Char :=
  match line with
  | '/' :: rest => (true, rest)
  | _ => (false, line)

/-- Comments, blank lines and lines that are no pattern have no rule. -/
def parse? (line : String) : Option IgnoreRule := do
  if Text.startsWith line "#" then none
  let line := trimLine line.toList
  if line.isEmpty then none
  let (keeps, anchored, line) := match line with
    | '\\' :: '!' :: rest => (false, false, '!' :: rest)
    | '\\' :: '#' :: rest => (false, false, '#' :: rest)
    | '!' :: rest => (true, anchor rest)
    | _ => (false, anchor line)
  let (onlyDirectories, pattern) := match Text.dropTail? ['/'] line with
    | some rest => (true, (Text.dropTail? ['\\'] rest).getD rest)
    | none => (false, line)
  let glob ← Glob.parse? (.ofList (anywhere anchored pattern))
  return { glob, keeps, onlyDirectories }

def applies (r : IgnoreRule) (path : String) (isDirectory : Bool) : Bool :=
  (!r.onlyDirectories || isDirectory) && r.glob.matchesPath path

end IgnoreRule

/-- What ignore rules say of a path. -/
inductive IgnoreVerdict where
  | ignored | kept
deriving DecidableEq, Repr

/-- The rules of one ignore file. -/
abbrev IgnoreFile := List IgnoreRule

namespace IgnoreFile

def parse (content : String) : IgnoreFile :=
  let content := (Text.stripLead? "\uFEFF" content).getD content
  (Text.split '\n' content).filterMap fun line =>
    IgnoreRule.parse? ((Text.stripTail? "\r" line).getD line)

/-- The path is relative to the directory of the file. -/
def verdict? (f : IgnoreFile) (path : String) (isDirectory : Bool) : Option IgnoreVerdict :=
  (f.reverse.find? (·.applies path isDirectory)).map fun r => if r.keeps then .kept else .ignored

end IgnoreFile

end CallAtlas
