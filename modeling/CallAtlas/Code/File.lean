import CallAtlas.Code.Declaration
import CallAtlas.Code.Call

/-!
# Code.File — what is known of one source file
-/

namespace CallAtlas

/-- Architectural role of a file. -/
inductive Layer where
  | routeHandler | component | hook | dataAccess | utility
deriving DecidableEq, Repr

namespace Layer

def all : List Layer := [.routeHandler, .component, .hook, .dataAccess, .utility]

def name : Layer → String
  | .routeHandler => "route-handler"
  | .component => "component"
  | .hook => "hook"
  | .dataAccess => "data-access"
  | .utility => "utility"

end Layer

/-- One name brought into scope by an import. -/
structure ImportBinding where
  /-- Name used inside the importing file. -/
  localName : String
  /-- Exported name in the module, `default` or `*`. -/
  imported : String
  namespaced : Bool
deriving DecidableEq, Repr

structure ImportInfo where
  /-- Module specifier as written. -/
  source : String
  bindings : List ImportBinding
  typeOnly : Bool := false
  line : Nat
deriving DecidableEq, Repr

namespace ImportInfo

def binding? (i : ImportInfo) (name : String) : Option ImportBinding :=
  i.bindings.find? (·.localName = name)

end ImportInfo

structure FileAnalysis where
  filePath : String
  layer : Layer := .utility
  declarations : List Declaration := []
  imports : List ImportInfo := []
  calls : List CallSite := []
  isComponent : Bool := false
  isHook : Bool := false
  isRouteHandler : Bool := false
  /-- Markup occurs anywhere in the file. -/
  hasJsx : Bool := false
  /-- Code nested below the depth limit is missing. -/
  truncated : Bool := false
deriving DecidableEq, Repr

namespace FileAnalysis

def importedModules (f : FileAnalysis) : List String := f.imports.map (·.source)

def exported (f : FileAnalysis) : List Declaration := f.declarations.filter (·.exported)

end FileAnalysis

/-- What the call graph keeps of a file. -/
structure FileSummary where
  filePath : String
  layer : Layer
  isComponent : Bool
  isHook : Bool
  isRouteHandler : Bool
deriving DecidableEq, Repr

namespace FileSummary

def ofAnalysis (f : FileAnalysis) : FileSummary :=
  ⟨f.filePath, f.layer, f.isComponent, f.isHook, f.isRouteHandler⟩

end FileSummary

end CallAtlas
