import CallAtlas.Graph.Query
import CallAtlas.Registry.Resolve

/-!
# Graph.Assembly — the call graph of a set of files

Declarations come first, then the calls, each resolved against all declarations, then the requests
that a route handler of the set serves, and last the entry points.
-/

namespace CallAtlas.CallGraph

/-- Files and declarations. -/
def declarationEdits (files : List FileAnalysis) : List GraphEdit :=
  files.flatMap fun f => .file (.ofAnalysis f) :: f.declarations.map .declaration

/-- The edit for one call site of a known caller. -/
def callEdit (r : Registry) (caller : Declaration) (s : CallSite) : GraphEdit :=
  let leaving (kind : ExternalKind) : GraphEdit :=
    .external ⟨caller.id, kind, s.target.displayName, s.target, s.line, s.flags, none⟩
  match s.target with
  | .named .. =>
    match r.resolveCall? caller s.target s.calleeModule with
    | some callee => .call caller.id callee.id (.ofSite s)
    | none => leaving .unresolved
  | .http .. => leaving .http
  | .database .. => leaving .database

/-- Call sites whose caller is unknown are left out. -/
def callEdits (r : Registry) : List GraphEdit :=
  (r.files.flatMap (·.calls)).filterMap fun s => (r.declaration? s.callerId).map (callEdit r · s)

/-- The requests of a graph that a route handler serves. -/
def bridgeEdits (r : Registry) (g : CallGraph) : List GraphEdit :=
  g.externals.filterMap fun e =>
    match e.call with
    | .http method path => (r.matchRoute? method path).map fun d => .bridge e d.id
    | .named .. | .database .. => none

/-- Exported functions of route files, and the components of component files. -/
def isEntryCandidate (g : CallGraph) (d : Declaration) : Bool :=
  d.exported && d.isTopLevel && (d.kind = .function || d.kind = .arrowFn) &&
    (g.file? d.filePath).any fun f =>
      f.isRouteHandler || f.layer = .routeHandler ||
        (f.isComponent && (d.returnsUi || Naming.isPascalCase d.name))

def entryEdits (g : CallGraph) : List GraphEdit :=
  (g.declarations.filter fun d => g.isEntryCandidate d &&
    !g.hasDirectCallers d.id).map (.entry ·.id)

/-- The graph of classified files. Their order matters only between files with the same path. -/
def assemble (files : List FileAnalysis) : CallGraph :=
  let r := Registry.build files
  let called := ({} : CallGraph).applyAll (declarationEdits r.files ++ callEdits r)
  let bridged := called.applyAll (bridgeEdits r called)
  bridged.applyAll (entryEdits bridged)

end CallAtlas.CallGraph
