import CallAtlas.Error
import CallAtlas.Extraction.Walk

/-!
# Source — source files and their analysis

A path is written with forward slashes and without a leading `./`. The language follows from the
extension of the file name.
-/

namespace CallAtlas

namespace Path

/-- Forward slashes, no leading `./`. -/
def normalize (path : String) : String :=
  let path := Text.replaceChar '\\' '/' path
  (Text.stripLead? "./" path).getD path

/-- The last component that is not empty or `.`; none if it is `..`. -/
def fileName? (path : String) : Option String :=
  match ((Text.split '/' path).filter fun c => c != "" && c != ".").getLast? with
  | none => none
  | some name => if name = ".." then none else some name

/-- What follows the last dot of the file name, which must not be its first character. -/
def extension? (path : String) : Option String := do
  let (stem, ext) ← Text.splitLast? '.' (← fileName? path)
  if stem = "" then none else some ext

end Path

inductive SourceLanguage where
  | javaScript | typeScript | tsx
deriving DecidableEq, Repr

namespace SourceLanguage

def name : SourceLanguage → String
  | .javaScript => "JavaScript"
  | .typeScript => "TypeScript"
  | .tsx => "TSX"

def ofPath? (path : String) : Option SourceLanguage := do
  match ← Path.extension? path with
  | "js" | "mjs" | "cjs" => some .javaScript
  | "ts" | "mts" | "cts" => some .typeScript
  | "tsx" | "jsx" => some .tsx
  | _ => none

end SourceLanguage

/-- One input file with its syntax tree. -/
structure SourceFile where
  /-- Relative to the root of the analysis. -/
  path : String
  content : String
  tree : Tree.Node

namespace SourceFile

/-- Reads one file; its role is not yet known. -/
def extract (settings : ExtractionSettings) (file : SourceFile) :
    Except AnalysisError FileAnalysis :=
  let path := Path.normalize file.path
  let bytes := file.content.utf8ByteSize
  if (SourceLanguage.ofPath? path).isNone then .error (.unsupportedLanguage path)
  else if settings.maxFileBytes < bytes then .error (.fileTooLarge path bytes settings.maxFileBytes)
  else
    let st := Extraction.extract { path, settings } file.tree
    .ok
      { filePath := path, declarations := st.declarations, imports := st.imports, calls := st.calls
        hasJsx := st.hasJsx, truncated := st.depthLimited }

end SourceFile

end CallAtlas
