import CallAtlas.Code.File
import CallAtlas.Code.Naming
import CallAtlas.Order
import CallAtlas.Route.Pattern

/-!
# Registry — all symbols of a set of files

Every declaration is registered before any call is resolved, so that a call can reach a declaration
of any file. Files are taken in the order of their paths. Where two registrations compete for one id
or path the later one wins, and for one module name the earlier one.
-/

namespace CallAtlas

/-- A route file with its handlers. -/
structure RouteEntry where
  pattern : RoutePattern
  file : String
  /-- In the order of `HttpMethod.all`. -/
  handlers : List (HttpMethod × Declaration)
deriving DecidableEq, Repr

structure Registry where
  /-- In the order of their paths. -/
  files : List FileAnalysis
deriving DecidableEq, Repr

namespace Registry

/-- Files with equal paths stay in their order. -/
def build (files : List FileAnalysis) : Registry := ⟨Order.sortOn Order.text (·.filePath) files⟩

/-! ## Look-up -/

def declarations (r : Registry) : List Declaration := r.files.flatMap (·.declarations)

def declaration? (r : Registry) (id : String) : Option Declaration :=
  r.declarations.reverse.find? (·.id = id)

def file? (r : Registry) (path : String) : Option FileAnalysis :=
  r.files.reverse.find? (·.filePath = path)

/-- Top-level declarations with this name, by id. -/
def named (r : Registry) (name : String) : List Declaration :=
  Order.sortOn Order.text (·.id) (r.declarations.filter fun d => d.isTopLevel && d.name = name)

/-- Declarations of a file with this qualified name, by id. -/
def qualified (r : Registry) (path name : String) : List Declaration :=
  Order.sortOn Order.text (·.id) <|
    (r.files.filter (·.filePath = path)).flatMap fun f =>
      f.declarations.filter (·.qualifiedName = name)

/-- The exported top-level declaration of a file with this name. -/
def exportOf? (r : Registry) (path name : String) : Option Declaration :=
  (r.qualified path name).find? fun d => d.exported && d.isTopLevel

/-- What a default import binds: the default export, else an export with the local name, else the
only export that is not a type. -/
def defaultExportOf? (r : Registry) (path localName : String) : Option Declaration := do
  let f ← r.file? path
  r.exportOf? path "default" <|> r.exportOf? path localName <|>
    match f.declarations.filter fun d => d.exported && d.isTopLevel && d.kind != .typeDecl with
    | [only] => some only
    | _ => none

/-! ## Modules -/

def moduleExtensions : List String := ["ts", "tsx", "js", "jsx", "mjs", "cjs", "mts", "cts"]

/-- The path without its module extension, if it has one. -/
def moduleStem? (path : String) : Option String := do
  let (stem, ext) ← Text.splitLast? '.' path
  if ext ∈ moduleExtensions then some stem else none

/-- The names under which a file can be imported: its stem, and its directory if it is an index
file. -/
def moduleNames (path : String) : List String :=
  match moduleStem? path with
  | none => []
  | some stem => stem :: (Text.stripTail? "/index" stem).toList

/-- Module names with their files. -/
def modules (r : Registry) : List (String × String) :=
  r.files.flatMap fun f => (moduleNames f.filePath).map (·, f.filePath)

/-- Module names without repetition; the first file wins. -/
def modulesByName (r : Registry) : List (String × String) :=
  r.modules.foldl (fun acc m => if acc.any (·.1 = m.1) then acc else acc ++ [m]) []

/-! ## Routes -/

/-- The handlers among some declarations; a later one replaces an earlier one of the same method. -/
def handlersOf (ds : List Declaration) : List (HttpMethod × Declaration) :=
  let found := ds.filter fun d => d.exported && d.isTopLevel && Naming.isMethodHandler d
  HttpMethod.all.filterMap fun m => (found.reverse.find? (·.name = m.name)).map (m, ·)

def routes (r : Registry) : List RouteEntry :=
  r.files.filterMap fun f =>
    match RoutePattern.ofFile? f.filePath with
    | none => none
    | some pattern =>
      match handlersOf f.declarations with
      | [] => none
      | handlers => some ⟨pattern, f.filePath, handlers⟩

/-- The first of two candidates unless the second is less dynamic, or equally dynamic in an earlier
file. -/
def moreSpecific (a b : RouteEntry × Declaration) : RouteEntry × Declaration :=
  let da := a.1.pattern.dynamicSegments
  let db := b.1.pattern.dynamicSegments
  if db < da || (db = da && b.1.file < a.1.file) then b else a

/-- The handler that serves a request. -/
def matchRoute? (r : Registry) (method : HttpMethod) (path : String) : Option Declaration := do
  let request ← Request.segments? path
  let candidates := (r.routes.filter (·.pattern.serves request)).filterMap fun e =>
    (e.handlers.lookup method).map (e, ·)
  match candidates with
  | [] => none
  | first :: rest => some (rest.foldl moreSpecific first).2

end Registry

end CallAtlas
