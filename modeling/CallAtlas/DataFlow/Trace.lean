import CallAtlas.DataFlow.Use
import CallAtlas.Graph.Query
import CallAtlas.Source

/-!
# DataFlow.Trace — following one identifier through one file

The nodes of the tree are visited in the order of the text. Each visit adds at most a few findings;
a finding of the same kind on the same line is not repeated. The trace stays in the file, but
parameters and arguments are linked to declarations of the call graph.
-/

namespace CallAtlas.DataFlow

open CallAtlas.Tree

/-! ## Visits -/

/-- What the walk meets. -/
inductive Visit where
  | node (c : Cursor)
  /-- A node below the nesting limit. -/
  | tooDeep

mutual

/-- The visits of a node and all below it that touch the lines. -/
def visitsFrom (lines : Nat → Nat → Bool) (above : List Node) (budget : Nat) : Node → List Visit
  | .mk label children =>
    if budget = 0 then [.tooDeep]
    else if lines label.line label.endLine then
      .node ⟨.mk label children, above⟩ ::
        visitsBelow lines (.mk label children :: above) (budget - 1) children
    else []

def visitsBelow (lines : Nat → Nat → Bool) (above : List Node)
    (budget : Nat) : List Node → List Visit
  | [] => []
  | n :: rest =>
    (if n.isNamed then visitsFrom lines above budget n else []) ++
      visitsBelow lines above budget rest

end

/-! ## Findings -/

/-- What a trace needs to know. -/
structure Context where
  graph : CallGraph
  settings : ExtractionSettings
  /-- Callables of the file, by id. -/
  callables : List Declaration
  query : Query

/-- The callable with the fewest lines around a line; of equal ones the first. -/
def innermost? (callables : List Declaration) (line : Nat) : Option Declaration :=
  let size (d : Declaration) : Nat := d.span.endLine - d.span.startLine
  match callables.filter (·.span.covers line) with
  | [] => none
  | first :: rest => some (rest.foldl (fun best d => if size d < size best then d else best) first)

namespace Context

def innermost? (ctx : Context) (line : Nat) : Option Declaration :=
  DataFlow.innermost? ctx.callables line

/-- A callee with this name of the declaration, preferably one that is called on the line. -/
def callee? (ctx : Context) (d : Option Declaration) (name : String) (line : Nat) : Option String :=
  do
  let edges := (ctx.graph.calleeEdges (← d).id).filter (·.1.name = name)
  let (callee, _) ← edges.find? (·.2.line = line) <|> edges.head?
  return callee.id

def sourceOf (ctx : Context) (value : Cursor) (forced : Option SourceKind) : Source :=
  let value := unwrapValue value
  let (kind, callee) := (forced.map (·, none)).getD (sourceKind ctx.settings value)
  let declaration := ctx.innermost? value.line
  { kind
    line := value.line
    detail := detail value
    declarationId := declaration.map (·.id)
    linkedIds := (callee.bind (ctx.callee? declaration · value.line)).toList }

/-- A parameter is linked to the callers of its function. -/
def parameterOf (ctx : Context) (param : Cursor) : Source :=
  let declaration := ctx.innermost? param.line
  let callers : List (Declaration × EdgeData) := match declaration with
    | none => []
    | some d => (ctx.graph.callerEdges d.id).filter (·.2.kind = .calls)
  { kind := .parameter
    line := param.line
    detail := detail param
    declarationId := declaration.map (·.id)
    linkedIds := callers.map (·.1.id) }

def destinationOf? (ctx : Context) (use : Cursor) : Option Destination := do
  let sink ← sinkOf ctx.settings use
  let declaration := ctx.innermost? use.line
  return {
    kind := sink.kind
    line := use.line
    detail := detail sink.site
    declarationId := declaration.map (·.id)
    calleeId := sink.callee.bind (ctx.callee? declaration · use.line) }

/-- The sources that one node gives. -/
def sourcesAt (ctx : Context) (c : Cursor) : List Source :=
  let isOccurrence := DataFlow.isOccurrence ctx.query.identifier
  let binds := DataFlow.binds ctx.query.identifier maxUnwrap
  match c.kind with
  | "variable_declarator" =>
    if (c.field? "name").any (binds ·.node) then
      ((c.field? "value").map (ctx.sourceOf · none)).toList else []
  | "assignment_expression" =>
    if (c.field? "left").any (isOccurrence ·.node) then
      ((c.field? "right").map (ctx.sourceOf · none)).toList
    else []
  | "augmented_assignment_expression" =>
    if (c.field? "left").any (isOccurrence ·.node) then
      ((c.field? "right").map (ctx.sourceOf · (some .computed))).toList
    else []
  | "formal_parameters" => (c.namedChildren.filter (binds ·.node)).map ctx.parameterOf
  | "arrow_function" =>
    ((c.field? "parameter").filter (isOccurrence ·.node)).toList.map ctx.parameterOf
  | _ => []

end Context

/-- A trace in progress. -/
structure Findings where
  sources : List Source := []
  destinations : List Destination := []
  /-- The identifier occurs. -/
  met : Bool := false
  truncated : Bool := false

namespace Findings

def count (f : Findings) : Nat := f.sources.length + f.destinations.length

def addSource (f : Findings) (s : Source) : Findings :=
  if f.sources.any fun x => x.kind = s.kind && x.line = s.line then f
  else { f with sources := f.sources ++ [s] }

def addDestination (f : Findings) (d : Destination) : Findings :=
  if f.destinations.any fun x => x.kind = d.kind && x.line = d.line then f
  else { f with destinations := f.destinations ++ [d] }

def visit (ctx : Context) (f : Findings) (c : Cursor) : Findings :=
  if isOccurrence ctx.query.identifier c.node then
    let f := { f with met := true }
    if ctx.query.direction.wantsDestinations && !isBindingSite c then
      (ctx.destinationOf? c).elim f f.addDestination
    else f
  else if ctx.query.direction.wantsSources then (ctx.sourcesAt c).foldl addSource f
  else f

/-- Visits one after the other until the number of findings reaches its limit. -/
def collect (ctx : Context) (limit : Nat) : List Visit → Findings → Findings
  | [], f => f
  | .tooDeep :: rest, f => collect ctx limit rest { f with truncated := true }
  | .node c :: rest, f =>
    if limit ≤ f.count then { f with truncated := true } else collect ctx limit rest (f.visit ctx c)

end Findings

/-! ## Traces -/

/-- Nodes nested deeper are not visited. -/
def maxNesting : Nat := 400

def trace (g : CallGraph) (file : SourceFile) (query : Query) (extraction : ExtractionSettings)
    (settings : DataFlowSettings) : Except AnalysisError Trace :=
  let path := Path.normalize file.path
  if (SourceLanguage.ofPath? path).isNone then .error (.unsupportedLanguage path)
  else
    let callables := g.declarations.filter fun d => d.filePath = path && d.kind.isCallable
    let scope := query.line.bind (innermost? callables)
    let touches (first last : Nat) : Bool :=
      match scope with
      | none => true
      | some d => d.span.startLine ≤ last && first ≤ d.span.endLine
    let ctx : Context := ⟨g, extraction, callables, query⟩
    let found :=
      Findings.collect ctx settings.maxFindings (visitsFrom touches [] maxNesting file.tree) {}
    if found.met then
      .ok
        { file := path
          identifier := query.identifier
          scopeId := scope.map (·.id)
          sources := Order.sortOn Order.count (·.line) found.sources
          destinations := Order.sortOn Order.count (·.line) found.destinations
          truncated := found.truncated }
    else .error (.notFound (query.identifier ++ " in " ++ path))

end CallAtlas.DataFlow
