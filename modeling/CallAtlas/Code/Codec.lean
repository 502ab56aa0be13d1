import CallAtlas.Json.Record
import CallAtlas.Code.File
import CallAtlas.Code.Edge

/-!
# Code.Codec — the exchange form of declarations, calls, files and edges

Every type has `toJson` and `ofJson?`. Absent values are left out where the reader can do without
them; a call target carries its kind as the member `type`.
-/

namespace CallAtlas

open Json (Record)
open Json.Record (required withDefault optional)

/-! ## Enumerations -/

namespace DeclarationKind

def toJson (k : DeclarationKind) : Json := .str k.name

def ofJson? : Json → Option DeclarationKind :=
  Json.variant? Json.isNull (all.map fun k => (k.name, k))

end DeclarationKind

namespace Layer

def toJson (k : Layer) : Json := .str k.name

def ofJson? : Json → Option Layer := Json.variant? Json.isNull (all.map fun k => (k.name, k))

end Layer

namespace HttpMethod

def toJson (k : HttpMethod) : Json := .str k.name

def ofJson? : Json → Option HttpMethod := Json.variant? Json.isNull (all.map fun k => (k.name, k))

end HttpMethod

namespace DbOperation

def toJson (k : DbOperation) : Json := .str k.name

def ofJson? : Json → Option DbOperation := Json.variant? Json.isNull (all.map fun k => (k.name, k))

end DbOperation

namespace CallVia

def toJson (k : CallVia) : Json := .str k.name

def ofJson? : Json → Option CallVia := Json.variant? Json.isNull (all.map fun k => (k.name, k))

end CallVia

namespace EdgeKind

def toJson (k : EdgeKind) : Json := .str k.name

def ofJson? : Json → Option EdgeKind := Json.variant? Json.isNull (all.map fun k => (k.name, k))

end EdgeKind

namespace ExternalKind

def toJson (k : ExternalKind) : Json := .str k.name

def ofJson? : Json → Option ExternalKind := Json.variant? Json.isNull (all.map fun k => (k.name, k))

end ExternalKind

/-! ## Declarations -/

namespace LineSpan

def toJson (s : LineSpan) : Json :=
  .obj [("start_line", .ofNat s.startLine), ("end_line", .ofNat s.endLine)]

def ofJson? : Json → Option LineSpan := Record.read? do
  let startLine ← required "start_line" Json.nat?
  let endLine ← required "end_line" Json.nat?
  return ⟨startLine, endLine⟩

end LineSpan

namespace ErrorHandling

def toJson (e : ErrorHandling) : Json :=
  .obj [("try_catch", .bool e.tryCatch), ("promise_catch", .bool e.promiseCatch),
    ("throws", .bool e.throws)]

def ofJson? : Json → Option ErrorHandling := Record.read? do
  let tryCatch ← withDefault "try_catch" false Json.bool?
  let promiseCatch ← withDefault "promise_catch" false Json.bool?
  let throws ← withDefault "throws" false Json.bool?
  return ⟨tryCatch, promiseCatch, throws⟩

end ErrorHandling

namespace Declaration

def toJson (d : Declaration) : Json :=
  .obj <|
    [("id", .str d.id), ("name", .str d.name), ("kind", d.kind.toJson),
      ("exported", .bool d.exported), ("signature", .str d.signature), ("span", d.span.toJson),
        ("file_path", .str d.filePath)]
    ++ Json.present "container" .str d.container
    ++ Json.present "enclosing" .str d.enclosing
    ++ [("is_async", .bool d.isAsync), ("returns_ui", .bool d.returnsUi),
      ("errors", d.errors.toJson)]

def ofJson? : Json → Option Declaration := Record.read? do
  let id ← required "id" Json.string?
  let name ← required "name" Json.string?
  let kind ← required "kind" DeclarationKind.ofJson?
  let exported ← required "exported" Json.bool?
  let signature ← required "signature" Json.string?
  let span ← required "span" LineSpan.ofJson?
  let filePath ← required "file_path" Json.string?
  let container ← optional "container" Json.string?
  let enclosing ← optional "enclosing" Json.string?
  let isAsync ← withDefault "is_async" false Json.bool?
  let returnsUi ← withDefault "returns_ui" false Json.bool?
  let errors ← withDefault "errors" {} ErrorHandling.ofJson?
  return { id, name, kind, exported, signature, span, filePath, container, enclosing, isAsync,
           returnsUi, errors }

end Declaration

/-! ## Calls -/

namespace CallTarget

def toJson : CallTarget → Json
  | .named name receiver =>
    .obj ([("type", .str "named"), ("name", .str name)] ++ Json.present "receiver" .str receiver)
  | .http method path =>
    .obj [("type", .str "http"), ("method", method.toJson), ("path", .str path)]
  | .database client operation table =>
    .obj ([("type", .str "database"), ("client", .str client), ("operation", operation.toJson)]
      ++ Json.present "table" .str table)

/-- The data of a target of the kind `tag`. -/
def ofTagged? (tag : String) : Json → Option CallTarget :=
  match tag with
  | "named" => Record.read? do
    let name ← required "name" Json.string?
    let receiver ← optional "receiver" Json.string?
    return .named name receiver
  | "http" => Record.read? do
    let method ← required "method" HttpMethod.ofJson?
    let path ← required "path" Json.string?
    return .http method path
  | "database" => Record.read? do
    let client ← required "client" Json.string?
    let operation ← required "operation" DbOperation.ofJson?
    let table ← optional "table" Json.string?
    return .database client operation table
  | _ => fun _ => none

/-- The kind is the member `type` of an object, or the first element of an array. -/
def ofJson? : Json → Option CallTarget
  | .obj members =>
    match members.lookup "type" with
    | some (.str tag) => ofTagged? tag (.obj members)
    | _ => none
  | .arr (.str tag :: rest) => ofTagged? tag (.arr rest)
  | _ => none

end CallTarget

namespace CallFlags

def toJson (f : CallFlags) : Json :=
  .obj [("awaited", .bool f.awaited), ("conditional", .bool f.conditional),
    ("guarded", .bool f.guarded)]

def ofJson? : Json → Option CallFlags := Record.read? do
  let awaited ← withDefault "awaited" false Json.bool?
  let conditional ← withDefault "conditional" false Json.bool?
  let guarded ← withDefault "guarded" false Json.bool?
  return ⟨awaited, conditional, guarded⟩

end CallFlags

namespace CallSite

def toJson (s : CallSite) : Json :=
  .obj <|
    [("caller_id", .str s.callerId), ("target", s.target.toJson)]
    ++ Json.present "callee_module" .str s.calleeModule
    ++ [("line", .ofNat s.line), ("via", s.via.toJson), ("flags", s.flags.toJson)]

def ofJson? : Json → Option CallSite := Record.read? do
  let callerId ← required "caller_id" Json.string?
  let target ← required "target" CallTarget.ofJson?
  let calleeModule ← optional "callee_module" Json.string?
  let line ← required "line" Json.nat?
  let via ← withDefault "via" .direct CallVia.ofJson?
  let flags ← withDefault "flags" {} CallFlags.ofJson?
  return { callerId, target, calleeModule, line, via, flags }

end CallSite

/-! ## Files -/

namespace ImportBinding

def toJson (b : ImportBinding) : Json :=
  .obj [("local", .str b.localName), ("imported", .str b.imported),
    ("namespace", .bool b.namespaced)]

def ofJson? : Json → Option ImportBinding := Record.read? do
  let localName ← required "local" Json.string?
  let imported ← required "imported" Json.string?
  let namespaced ← required "namespace" Json.bool?
  return ⟨localName, imported, namespaced⟩

end ImportBinding

namespace ImportInfo

def toJson (i : ImportInfo) : Json :=
  .obj [("source", .str i.source), ("bindings", .arr (i.bindings.map ImportBinding.toJson)),
    ("type_only", .bool i.typeOnly), ("line", .ofNat i.line)]

def ofJson? : Json → Option ImportInfo := Record.read? do
  let source ← required "source" Json.string?
  let bindings ← required "bindings" (Json.list? ImportBinding.ofJson?)
  let typeOnly ← withDefault "type_only" false Json.bool?
  let line ← required "line" Json.nat?
  return { source, bindings, typeOnly, line }

end ImportInfo

namespace FileAnalysis

def toJson (f : FileAnalysis) : Json :=
  .obj [("file_path", .str f.filePath), ("layer", f.layer.toJson),
    ("declarations", .arr (f.declarations.map Declaration.toJson)),
    ("imports", .arr (f.imports.map ImportInfo.toJson)),
      ("calls", .arr (f.calls.map CallSite.toJson)),
    ("is_component", .bool f.isComponent), ("is_hook", .bool f.isHook),
    ("is_route_handler", .bool f.isRouteHandler), ("has_jsx", .bool f.hasJsx),
      ("truncated", .bool f.truncated)]

def ofJson? : Json → Option FileAnalysis := Record.read? do
  let filePath ← required "file_path" Json.string?
  let layer ← required "layer" Layer.ofJson?
  let declarations ← required "declarations" (Json.list? Declaration.ofJson?)
  let imports ← required "imports" (Json.list? ImportInfo.ofJson?)
  let calls ← required "calls" (Json.list? CallSite.ofJson?)
  let isComponent ← required "is_component" Json.bool?
  let isHook ← required "is_hook" Json.bool?
  let isRouteHandler ← required "is_route_handler" Json.bool?
  let hasJsx ← withDefault "has_jsx" false Json.bool?
  let truncated ← withDefault "truncated" false Json.bool?
  return { filePath, layer, declarations, imports, calls, isComponent, isHook, isRouteHandler,
           hasJsx, truncated }

end FileAnalysis

namespace FileSummary

def toJson (f : FileSummary) : Json :=
  .obj [("file_path", .str f.filePath), ("layer", f.layer.toJson),
    ("is_component", .bool f.isComponent), ("is_hook", .bool f.isHook),
      ("is_route_handler", .bool f.isRouteHandler)]

def ofJson? : Json → Option FileSummary := Record.read? do
  let filePath ← required "file_path" Json.string?
  let layer ← required "layer" Layer.ofJson?
  let isComponent ← required "is_component" Json.bool?
  let isHook ← required "is_hook" Json.bool?
  let isRouteHandler ← required "is_route_handler" Json.bool?
  return ⟨filePath, layer, isComponent, isHook, isRouteHandler⟩

end FileSummary

/-! ## Edges -/

namespace EdgeData

def toJson (e : EdgeData) : Json :=
  .obj [("kind", e.kind.toJson), ("via", e.via.toJson), ("line", .ofNat e.line),
    ("flags", e.flags.toJson)]

def ofJson? : Json → Option EdgeData := Record.read? do
  let kind ← required "kind" EdgeKind.ofJson?
  let via ← required "via" CallVia.ofJson?
  let line ← required "line" Json.nat?
  let flags ← withDefault "flags" {} CallFlags.ofJson?
  return ⟨kind, via, line, flags⟩

end EdgeData

namespace ExternalEdge

def toJson (e : ExternalEdge) : Json :=
  .obj <|
    [("caller_id", .str e.callerId), ("kind", e.kind.toJson), ("target", .str e.target),
      ("call", e.call.toJson), ("line", .ofNat e.line), ("flags", e.flags.toJson)]
    ++ Json.present "matched_handler" .str e.matchedHandler

def ofJson? : Json → Option ExternalEdge := Record.read? do
  let callerId ← required "caller_id" Json.string?
  let kind ← required "kind" ExternalKind.ofJson?
  let target ← required "target" Json.string?
  let call ← required "call" CallTarget.ofJson?
  let line ← required "line" Json.nat?
  let flags ← withDefault "flags" {} CallFlags.ofJson?
  let matchedHandler ← optional "matched_handler" Json.string?
  return { callerId, kind, target, call, line, flags, matchedHandler }

end ExternalEdge

end CallAtlas
