import CallAtlas.Graph.Assembly

/-!
# Graph.Store — a graph with its indexes

A stored graph knows its nodes by position, and its links join positions. Ids and names are looked
up in indexes and the keys of external edges in a list of their own; every edit keeps them up to
date, and no look-up searches the nodes. `GraphStore.graph` is what a stored graph means.
-/

namespace CallAtlas

/-! ## Indexes -/

/-- A table with one value for each key: the newest entry of a key counts. -/
structure Index (α : Type) where
  entries : List (String × α) := []
deriving DecidableEq, Repr

namespace Index

variable {α : Type}

def get? (x : Index α) (key : String) : Option α := x.entries.lookup key

def insert (x : Index α) (key : String) (value : α) : Index α := ⟨(key, value) :: x.entries⟩

end Index

/-! ## Stored graphs -/

/-- A call between the nodes at two positions. -/
structure Link where
  source : Nat
  target : Nat
  data : EdgeData
deriving DecidableEq, Repr

structure GraphStore where
  /-- A node keeps its position. -/
  nodes : List Declaration := []
  links : List Link := []
  /-- The position of the node with an id. -/
  idIndex : Index Nat := {}
  /-- The positions of the nodes with a name. -/
  nameIndex : Index (List Nat) := {}
  externals : List ExternalEdge := []
  /-- The keys of the external edges. -/
  externalKeys : List (String × ExternalKind × String) := []
  files : List FileSummary := []
  entries : List String := []
deriving DecidableEq, Repr

namespace GraphStore

/-! ## Edits -/

/-- A new summary takes the place of an old one with the same path. -/
def addFile (s : GraphStore) (f : FileSummary) : GraphStore :=
  { s with files := s.files.filter (·.filePath != f.filePath) ++ [f] }

/-- The positions that the index lists under a name. -/
def positionsNamed (s : GraphStore) (name : String) : List Nat := (s.nameIndex.get? name).getD []

/-- A node at the next position, with its entries in the indexes. -/
def appendNode (s : GraphStore) (d : Declaration) : GraphStore :=
  { s with
    nodes := s.nodes ++ [d]
    idIndex := s.idIndex.insert d.id s.nodes.length
    nameIndex := s.nameIndex.insert d.name (s.positionsNamed d.name ++ [s.nodes.length]) }

/-- The position of the node with this id, which is a new one unless the id is known. -/
def addDeclaration (s : GraphStore) (d : Declaration) : Nat × GraphStore :=
  match s.idIndex.get? d.id with
  | some position => (position, s)
  | none => (s.nodes.length, s.appendNode d)

/-- Whether the link was added: its ends are known and not joined yet. -/
def addCall (s : GraphStore) (source target : String) (data : EdgeData) : Bool × GraphStore :=
  match s.idIndex.get? source, s.idIndex.get? target with
  | some a, some b =>
    if s.links.any fun l => l.source = a && l.target = b then (false, s)
    else (true, { s with links := s.links ++ [⟨a, b, data⟩] })
  | _, _ => (false, s)

/-- Whether the edge was added: its key is new. -/
def addExternal (s : GraphStore) (e : ExternalEdge) : Bool × GraphStore :=
  if s.externalKeys.contains e.key then (false, s)
  else (true, { s with externals := s.externals ++ [e], externalKeys := e.key :: s.externalKeys })

/-- Records that the handler serves the external edge at a position, and connects the caller with
it. -/
def bridge (s : GraphStore) (position : Nat) (handler : String) : GraphStore :=
  match s.externals[position]? with
  | none => s
  | some e =>
    let marked := s.externals.set position { e with matchedHandler := some handler }
    ({ s with externals := marked }.addCall e.callerId handler ⟨.apiRequest, .direct,
      e.line, e.flags⟩).2

def markEntry (s : GraphStore) (id : String) : GraphStore :=
  if (s.idIndex.get? id).isSome && !s.entries.contains id then
    { s with entries := s.entries ++ [id] } else s

/-! ## Queries -/

def contains (s : GraphStore) (id : String) : Bool := (s.idIndex.get? id).isSome

def node? (s : GraphStore) (id : String) : Option Declaration :=
  (s.idIndex.get? id).bind (s.nodes[·]?)

/-- The nodes with a name, by id. -/
def findByName (s : GraphStore) (name : String) : List Declaration :=
  Order.sortOn Order.text (·.id) ((s.positionsNamed name).filterMap (s.nodes[·]?))

/-- Of neighbours with the same id only the first stays. -/
def dropRepeats : List Declaration → List Declaration
  | [] => []
  | d :: rest =>
    match dropRepeats rest with
    | [] => [d]
    | next :: later => if d.id = next.id then d :: later else d :: next :: later

/-- The nodes at the other ends of the links of one node, by id: `here` is its own end. -/
def neighbours (s : GraphStore) (here there : Link → Nat) (id : String) : List Declaration :=
  match s.idIndex.get? id with
  | none => []
  | some position =>
    dropRepeats <| Order.sortOn Order.text (·.id) <|
      (s.links.filter (here · = position)).filterMap (s.nodes[there ·]?)

def callers (s : GraphStore) (id : String) : List Declaration :=
  s.neighbours (·.target) (·.source) id

def callees (s : GraphStore) (id : String) : List Declaration :=
  s.neighbours (·.source) (·.target) id

def fanIn (s : GraphStore) (id : String) : Nat := (s.callers id).length

def fanOut (s : GraphStore) (id : String) : Nat := (s.callees id).length

def stats (s : GraphStore) : GraphStats where
  files := s.files.length
  declarations := s.nodes.length
  callEdges := s.links.countP (·.data.kind = .calls)
  apiEdges := s.links.countP (·.data.kind = .apiRequest)
  httpCalls := s.externals.countP (·.kind = .http)
  databaseCalls := s.externals.countP (·.kind = .database)
  unresolvedCalls := s.externals.countP (·.kind = .unresolved)
  entryPoints := s.entries.length

/-! ## Meaning -/

/-- A link between the ids of its ends. -/
def edge? (s : GraphStore) (l : Link) : Option Edge := do
  let source ← s.nodes[l.source]?
  let target ← s.nodes[l.target]?
  return ⟨source.id, target.id, l.data⟩

/-- The graph without its indexes. -/
def graph (s : GraphStore) : CallGraph where
  nodes := s.nodes
  edges := s.links.filterMap s.edge?
  externals := s.externals
  files := s.files
  entries := s.entries

end GraphStore

/-! ## Runs of edits -/

/-- One step of the construction of a stored graph. -/
inductive StoreEdit where
  | file (f : FileSummary)
  | declaration (d : Declaration)
  | call (source target : String) (data : EdgeData)
  | external (e : ExternalEdge)
  | bridge (position : Nat) (handler : String)
  | entry (id : String)
deriving DecidableEq, Repr

namespace StoreEdit

def apply (s : GraphStore) : StoreEdit → GraphStore
  | file f => s.addFile f
  | declaration d => (s.addDeclaration d).2
  | call source target data => (s.addCall source target data).2
  | external e => (s.addExternal e).2
  | bridge position handler => s.bridge position handler
  | entry id => s.markEntry id

/-- An edit of a graph on its stored form, where the edge of a bridge has a position. -/
def ofEdit (s : GraphStore) : GraphEdit → StoreEdit
  | .file f => file f
  | .declaration d => declaration d
  | .call source target data => call source target data
  | .external e => external e
  | .bridge e handler => bridge (s.externals.findIdx (·.key = e.key)) handler
  | .entry id => entry id

end StoreEdit

namespace GraphStore

def applyAll (s : GraphStore) (edits : List StoreEdit) : GraphStore := edits.foldl StoreEdit.apply s

def replay (s : GraphStore) (edits : List GraphEdit) : GraphStore :=
  edits.foldl (fun s edit => (StoreEdit.ofEdit s edit).apply s) s

/-- The stored graph of classified files. -/
def assemble (files : List FileAnalysis) : GraphStore :=
  let r := Registry.build files
  let called :=
    ({} : GraphStore).replay (CallGraph.declarationEdits r.files ++ CallGraph.callEdits r)
  let bridged := called.replay (CallGraph.bridgeEdits r called.graph)
  bridged.replay (CallGraph.entryEdits bridged.graph)

end GraphStore

end CallAtlas
