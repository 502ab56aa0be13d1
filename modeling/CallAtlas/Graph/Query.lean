import CallAtlas.Error
import CallAtlas.Graph.Basic

/-!
# Graph.Query — questions on a finished graph

No answer depends on the order in which the graph was built: lists are sorted by id, by line or by
path.
-/

namespace CallAtlas

structure GraphStats where
  files : Nat
  declarations : Nat
  callEdges : Nat
  apiEdges : Nat
  httpCalls : Nat
  databaseCalls : Nat
  unresolvedCalls : Nat
  entryPoints : Nat
deriving DecidableEq, Repr

/-- A whole graph for display. -/
structure GraphSnapshot where
  nodes : List Declaration
  edges : List Edge
  entryPoints : List String
  externalEdges : List ExternalEdge
deriving DecidableEq, Repr

namespace CallGraph

/-! ## Nodes and files -/

/-- Position of a declaration in the order of insertion. -/
def index? (g : CallGraph) (id : String) : Option Nat := g.nodes.findIdx? (·.id = id)

def declarations (g : CallGraph) : List Declaration := Order.sortOn Order.text (·.id) g.nodes

def file? (g : CallGraph) (path : String) : Option FileSummary := g.files.find? (·.filePath = path)

def filesByPath (g : CallGraph) : List FileSummary := Order.sortOn Order.text (·.filePath) g.files

def findByName (g : CallGraph) (name : String) : List Declaration :=
  g.declarations.filter (·.name = name)

def entryPoints (g : CallGraph) : List String := Order.sortOn Order.text id g.entries

def isEntryPoint (g : CallGraph) (id : String) : Bool := g.entries.contains id

/-! ## Edges -/

/-- Incoming edges with their sources, by id. -/
def callerEdges (g : CallGraph) (id : String) : List (Declaration × EdgeData) :=
  Order.sortOn Order.text (·.1.id) <|
    (g.edges.filter (·.target = id)).filterMap fun e => (g.node? e.source).map (·, e.data)

/-- Outgoing edges with their targets, by line and then by id. -/
def calleeEdges (g : CallGraph) (id : String) : List (Declaration × EdgeData) :=
  Order.sortOn (Order.lex Order.count Order.text) (fun e => (e.2.line, e.1.id)) <|
    (g.edges.filter (·.source = id)).filterMap fun e => (g.node? e.target).map (·, e.data)

def callers (g : CallGraph) (id : String) : List Declaration := (g.callerEdges id).map (·.1)

def callees (g : CallGraph) (id : String) : List Declaration :=
  Order.sortOn Order.text (·.id) ((g.calleeEdges id).map (·.1))

def callerIds (g : CallGraph) (id : String) : List String := (g.callers id).map (·.id)

def calleeIds (g : CallGraph) (id : String) : List String := (g.callees id).map (·.id)

def fanIn (g : CallGraph) (id : String) : Nat := (g.callers id).length

def fanOut (g : CallGraph) (id : String) : Nat := (g.callees id).length

/-- Whether another declaration calls this one; requests do not count. -/
def hasDirectCallers (g : CallGraph) (id : String) : Bool :=
  g.edges.any fun e => e.target = id && e.data.kind = .calls && e.source != id

/-- External edges of a caller, by line and then by target. -/
def externalsFrom (g : CallGraph) (id : String) : List ExternalEdge :=
  Order.sortOn (Order.lex Order.count Order.text) (fun e => (e.line, e.target)) <|
    g.externals.filter (·.callerId = id)

/-! ## Targets of queries -/

/-- The declarations that a query may mean when it is no id: those with that name, else the methods
with that qualified name. -/
def candidates (g : CallGraph) (query : String) : List Declaration :=
  match g.findByName query with
  | [] => g.declarations.filter fun d => d.container.isSome && d.qualifiedName = query
  | found => found

/-- The declaration that a query means: an id, or a name that only one declaration has. -/
def resolveTarget (g : CallGraph) (query : String) : Except AnalysisError Declaration :=
  match g.node? query with
  | some d => .ok d
  | none =>
    match g.candidates query with
    | [] => .error (.notFound query)
    | [only] => .ok only
    | many => .error (.ambiguousTarget query (many.map (·.id)))

/-! ## Summaries -/

def stats (g : CallGraph) : GraphStats where
  files := g.files.length
  declarations := g.nodes.length
  callEdges := g.edges.countP (·.data.kind = .calls)
  apiEdges := g.edges.countP (·.data.kind = .apiRequest)
  httpCalls := g.externals.countP (·.kind = .http)
  databaseCalls := g.externals.countP (·.kind = .database)
  unresolvedCalls := g.externals.countP (·.kind = .unresolved)
  entryPoints := g.entries.length

def snapshot (g : CallGraph) : GraphSnapshot where
  nodes := g.declarations
  edges := Order.sortOn (Order.lex Order.text Order.text) (fun e => (e.source, e.target)) g.edges
  entryPoints := g.entryPoints
  externalEdges :=
    Order.sortOn (Order.lex Order.text (Order.lex Order.count Order.text))
      (fun e => (e.callerId, e.line, e.target)) g.externals

end CallGraph

end CallAtlas
