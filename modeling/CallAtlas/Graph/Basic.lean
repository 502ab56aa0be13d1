import CallAtlas.Order
import CallAtlas.Code.Edge
import CallAtlas.Code.File

/-!
# Graph — declarations and the calls between them

A graph grows by edits and never shrinks. An edit that would repeat an id, a pair of ends or an
external key leaves the graph as it is, so the first registration wins; only a file summary is
replaced.
-/

namespace CallAtlas

/-- A resolved call between two declarations. -/
structure Edge where
  source : String
  target : String
  data : EdgeData
deriving DecidableEq, Repr

/-- Everything is kept in the order of its insertion. -/
structure CallGraph where
  nodes : List Declaration := []
  edges : List Edge := []
  externals : List ExternalEdge := []
  files : List FileSummary := []
  entries : List String := []
deriving DecidableEq, Repr

namespace CallGraph

def node? (g : CallGraph) (id : String) : Option Declaration := g.nodes.find? (·.id = id)

def contains (g : CallGraph) (id : String) : Bool := g.nodes.any (·.id = id)

/-- Whether an edge joins two ids. -/
def connects (g : CallGraph) (source target : String) : Bool :=
  g.edges.any fun e => e.source = source && e.target = target

def hasExternal (g : CallGraph) (key : String × ExternalKind × String) : Bool :=
  g.externals.any (·.key = key)

/-! ## Edits -/

/-- A new summary takes the place of an old one with the same path. -/
def addFile (g : CallGraph) (f : FileSummary) : CallGraph :=
  { g with files := g.files.filter (·.filePath != f.filePath) ++ [f] }

def addDeclaration (g : CallGraph) (d : Declaration) : CallGraph :=
  if g.contains d.id then g else { g with nodes := g.nodes ++ [d] }

/-- Whether an edge between two ids can be added. -/
def admitsCall (g : CallGraph) (source target : String) : Bool :=
  g.contains source && g.contains target && !g.connects source target

def addCall (g : CallGraph) (source target : String) (data : EdgeData) : CallGraph :=
  if g.admitsCall source target then { g with edges := g.edges ++ [⟨source, target, data⟩] } else g

def admitsExternal (g : CallGraph) (e : ExternalEdge) : Bool := !g.hasExternal e.key

def addExternal (g : CallGraph) (e : ExternalEdge) : CallGraph :=
  if g.admitsExternal e then { g with externals := g.externals ++ [e] } else g

/-- Records that the handler serves the external edges with this key, and connects the caller with
it. -/
def bridge (g : CallGraph) (e : ExternalEdge) (handler : String) : CallGraph :=
  let marked :=
    g.externals.map fun x => if x.key = e.key then { x with matchedHandler := some handler } else x
  { g with externals := marked }.addCall e.callerId handler ⟨.apiRequest, .direct, e.line, e.flags⟩

def markEntry (g : CallGraph) (id : String) : CallGraph :=
  if g.contains id && !g.entries.contains id then { g with entries := g.entries ++ [id] } else g

end CallGraph

/-- One step of the construction of a graph. -/
inductive GraphEdit where
  | file (f : FileSummary)
  | declaration (d : Declaration)
  | call (source target : String) (data : EdgeData)
  | external (e : ExternalEdge)
  | bridge (e : ExternalEdge) (handler : String)
  | entry (id : String)
deriving DecidableEq, Repr

namespace GraphEdit

def apply (g : CallGraph) : GraphEdit → CallGraph
  | file f => g.addFile f
  | declaration d => g.addDeclaration d
  | call source target data => g.addCall source target data
  | external e => g.addExternal e
  | bridge e handler => g.bridge e handler
  | entry id => g.markEntry id

end GraphEdit

namespace CallGraph

def applyAll (g : CallGraph) (edits : List GraphEdit) : CallGraph := edits.foldl GraphEdit.apply g

end CallGraph

end CallAtlas
