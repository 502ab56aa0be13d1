import CallAtlas.Text.CaseMap
import CallAtlas.Code.File
import CallAtlas.Code.Naming
import CallAtlas.Route.Pattern
import CallAtlas.Settings.Basic

/-!
# Layering — the architectural role of a file

Roles are given by an ordered table of rules: the first rule that applies sets the layer. The three
flags of a file are independent of that order, each is set when any rule for its layer applies.
-/

namespace CallAtlas

structure LayerRule where
  name : String
  layer : Layer
  applies : FileAnalysis → Bool

namespace LayerRule

def isRouteFile (path : String) : Bool := (RoutePattern.ofFile? path).isSome

/-- Some exported callable produces markup, or is a capitalised function of a markup file. -/
def isComponentFile (f : FileAnalysis) : Bool :=
  let markupFile := Text.endsWith f.filePath ".tsx" || Text.endsWith f.filePath ".jsx"
  f.exported.any fun d =>
    d.kind.isCallable && (d.returnsUi || (markupFile && f.hasJsx && Naming.isPascalCase d.name))

/-- Some import names one of the modules, as a whole or as one of its segments. -/
def importsDataModule (modules : List String) (f : FileAnalysis) : Bool :=
  let modules := modules.map Text.lower
  f.imports.any fun i =>
    let source := Text.lower i.source
    let segments :=
      (Text.split '/' source).map fun s => String.ofList (s.toList.dropWhile (· == '@'))
    modules.any fun m => source == m || segments.contains m

def invokesDatabase (f : FileAnalysis) : Bool :=
  f.calls.any fun c =>
    match c.target with
    | .database .. => true
    | .named .. | .http .. => false

/-- A rule that looks at the path only. -/
def ofPathText (name : String) (layer : Layer) (text : String) : LayerRule :=
  ⟨name, layer, fun f => Text.contains f.filePath text⟩

/-- The built-in table. -/
def defaults (settings : ExtractionSettings) : List LayerRule :=
  [⟨"route-handler", .routeHandler,
    fun f => isRouteFile f.filePath && f.exported.any Naming.isMethodHandler⟩,
      ⟨"component", .component, isComponentFile⟩,
    ⟨"hook", .hook, fun f => f.exported.any fun d => Naming.isHook d.name⟩,
    ⟨"data-access", .dataAccess,
      fun f => importsDataModule settings.dataModules f && invokesDatabase f⟩]

/-- The rules of a table that apply to a file. -/
def matching (rules : List LayerRule) (f : FileAnalysis) : List LayerRule :=
  rules.filter (·.applies f)

end LayerRule

namespace FileAnalysis

/-- The file with its role by the table. -/
def classify (rules : List LayerRule) (f : FileAnalysis) : FileAnalysis :=
  let layers := (LayerRule.matching rules f).map (·.layer)
  { f with
    layer := layers.head?.getD .utility
    isRouteHandler := layers.contains .routeHandler
    isComponent := layers.contains .component
    isHook := layers.contains .hook }

end FileAnalysis

end CallAtlas
