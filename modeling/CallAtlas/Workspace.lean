import CallAtlas.Ignore
import CallAtlas.Order
import CallAtlas.Settings.Toml
import CallAtlas.Source

/-!
# Workspace — the files of a project

A workspace is the content of the working directory. From a directory in it, the source files below
that directory are collected: those whose extension tells a known language and that are not left
out.

A file or directory is left out with all below it when an ignore file says so, when its name starts
with a dot and no ignore file keeps it, or when its name is `node_modules`. Ignore files stand in
the directories above a path. A `.ignore` file counts before any `.gitignore` file, and among files
of one name the one nearest to the path counts.
-/

namespace CallAtlas

/-- A place in a workspace: the names of directories, and at the end of a file or directory. -/
abbrev Place := List String

structure Workspace where
  /-- Where the working directory is. -/
  directory : String
  /-- Files with their paths below the working directory; of two with one path, the last. -/
  files : List SourceFile

/-- What stands at a place. -/
inductive WorkspaceEntry where
  | file (f : SourceFile)
  | directory

namespace Workspace

/-- The place of a path that lies below the working directory. -/
def placeOf (path : String) : Place := (Text.split '/' path).filter fun n => n != "" && n != "."

def fileAt? (w : Workspace) (p : Place) : Option SourceFile :=
  w.files.reverse.find? (placeOf ·.path = p)

def entry? (w : Workspace) (p : Place) : Option WorkspaceEntry :=
  match w.fileAt? p with
  | some f => some (.file f)
  | none => if p.isEmpty || w.files.any (fun f => p.isPrefixOf (placeOf f.path)) then
    some .directory else none

/-! ## Paths -/

/-- Goes from a place along the names of a path. -/
def follow (w : Workspace) (p : Place) : List String → Except FileProblem (Place × WorkspaceEntry)
  | [] =>
    match w.entry? p with
    | some e => .ok (p, e)
    | none => .error .missing
  | name :: rest =>
    match w.entry? p with
    | some .directory =>
      if name = "" || name = "." then w.follow p rest
      else if name = ".." then if p.isEmpty then .error .missing else w.follow p.dropLast rest
      else w.follow (p ++ [name]) rest
    | some (.file _) => .error .notDirectory
    | none => .error .missing

/-- The place that a path names. Nothing outside the working directory is known. -/
def resolve (w : Workspace) (path : String) : Except FileProblem (Place × WorkspaceEntry) :=
  if Text.startsWith path "/" then .error .missing else w.follow [] (Text.split '/' path)

/-- The full path of a place. -/
def fullPath (w : Workspace) (p : Place) : String := Text.join "/" (w.directory :: p)

def read (w : Workspace) (path : String) : Except FileProblem String := do
  match (← w.resolve path).2 with
  | .file f => return f.content
  | .directory => .error .isDirectory

/-! ## Settings -/

def settingsFileName : String := "flowlens.toml"

/-- Settings from a file. -/
def loadSettings (w : Workspace) (path : String) : Except AnalysisError Settings :=
  match w.read path with
  | .ok text => Settings.ofToml text
  | .error problem => .error (.unreadableSettings problem)

/-- Settings from the file of the usual name in a directory, the default ones if there is none. -/
def discoverSettings (w : Workspace) (root : Place) : Except AnalysisError Settings :=
  match w.fileAt? (root ++ [settingsFileName]) with
  | some f => Settings.ofToml f.content
  | none => .ok {}

/-! ## Source files -/

/-- Ignore files, those that count first first. -/
def ignoreFileNames : List String := [".ignore", ".gitignore"]

/-- The places above a place, the nearest first. -/
def above (p : Place) : List Place := (List.range p.length).reverse.map p.take

/-- What the ignore files above a place say of it. -/
def verdict? (w : Workspace) (p : Place) (isDirectory : Bool) : Option IgnoreVerdict :=
  ignoreFileNames.findSome? fun name =>
    (above p).findSome? fun directory => do
      let f ← w.fileAt? (directory ++ [name])
      (IgnoreFile.parse f.content).verdict? (Text.join "/" (p.drop directory.length)) isDirectory

def isLeftOut (w : Workspace) (p : Place) (isDirectory : Bool) : Bool :=
  let name := p.getLastD ""
  name = "node_modules" ||
    match w.verdict? p isDirectory with
    | some .ignored => true
    | some .kept => false
    | none => Text.startsWith name "."

/-- Whether the walk from a root comes to a file below it. -/
def isReached (w : Workspace) (root p : Place) : Bool :=
  (above p).all (fun directory => directory.length ≤ root.length || !w.isLeftOut directory true)
    && (p.length ≤ root.length || !w.isLeftOut p false)

/-- The source files at or below a place, by their path relative to it. -/
def sources (w : Workspace) (root : Place) : List SourceFile :=
  let places := (w.files.map (placeOf ·.path)).eraseDups.filter (root.isPrefixOf ·)
  let found := places.filterMap fun p => do
    let f ← w.fileAt? p
    let _ ← SourceLanguage.ofPath? f.path
    if w.isReached root p then
      some { f with path := Path.normalize (Text.join "/" (p.drop root.length)) }
    else none
  Order.sortOn Order.text (·.path) found

end Workspace

end CallAtlas
