/-!
# Tree.Node — concrete syntax trees

A tree has one node for each construct of a source file. A node knows its kind, the fields of its
parent that it fills, and its place in the text. A `Cursor` is a node together with the nodes above
it, nearest first, so that one can also move up.

`Cursor.spine` follows one child at a time, from a node down, as long as a rule picks a child; it is
how wrapped expressions and call chains are read.
-/

namespace CallAtlas.Tree

/-- What is known of a node apart from its children. -/
structure Label where
  kind : String
  /-- Source text of the node. -/
  text : String := ""
  /-- Byte offset of the first character. -/
  start : Nat := 0
  /-- Byte offset after the last character. -/
  stop : Nat := 0
  /-- Line of the first character, counted from one. -/
  line : Nat := 1
  /-- Line of the end, counted from one. -/
  endLine : Nat := 1
  /-- Fields of the parent that lead to this node. -/
  fields : List String := []
  /-- Nodes that are not named are keywords and punctuation. -/
  named : Bool := true
  /-- The node was supplied by error recovery. -/
  missing : Bool := false
deriving DecidableEq, Repr

inductive Node where
  | mk (label : Label) (children : List Node)

namespace Node

def label : Node → Label
  | mk l _ => l

def children : Node → List Node
  | mk _ cs => cs

def kind (n : Node) : String := n.label.kind

def text (n : Node) : String := n.label.text

def line (n : Node) : Nat := n.label.line

def endLine (n : Node) : Nat := n.label.endLine

def isNamed (n : Node) : Bool := n.label.named

/-- Whether the parent reaches this node by the field. -/
def fills (n : Node) (field : String) : Bool := n.label.fields.contains field

/-- Error recovery produced or skipped this part of the text. -/
def isBroken (n : Node) : Bool := n.kind == "ERROR" || n.label.missing

/-- Some child, named or not, has this kind. -/
def hasToken (n : Node) (kind : String) : Bool := n.children.any (·.kind == kind)

end Node

structure Cursor where
  node : Node
  /-- The parent, its parent, and so on to the root. -/
  above : List Node := []

namespace Cursor

def kind (c : Cursor) : String := c.node.kind

def text (c : Cursor) : String := c.node.text

def line (c : Cursor) : Nat := c.node.line

def parent? (c : Cursor) : Option Cursor :=
  match c.above with
  | [] => none
  | p :: rest => some ⟨p, rest⟩

def parentKind? (c : Cursor) : Option String := c.above.head?.map Node.kind

def children (c : Cursor) : List Cursor := c.node.children.map fun n => ⟨n, c.node :: c.above⟩

def namedChildren (c : Cursor) : List Cursor := c.children.filter (·.node.isNamed)

def namedChild? (c : Cursor) (i : Nat) : Option Cursor := c.namedChildren[i]?

def field? (c : Cursor) (field : String) : Option Cursor := c.children.find? (·.node.fills field)

end Cursor

/-! ## Spines -/

/-- A way to pick one child. -/
inductive Selector where
  | field (name : String)
  | firstNamed

def Selector.selects (s : Selector) (n : Node) : Bool :=
  match s with
  | field name => n.fills name
  | firstNamed => n.isNamed

mutual

/-- The nodes from a node down, as long as `pick` selects a child that exists. -/
def spineFrom (pick : Node → Option Selector) (above : List Node) : Node → List Cursor
  | .mk label children =>
    ⟨.mk label children, above⟩ ::
      match pick (.mk label children) with
      | none => []
      | some s => spineInto pick s (.mk label children :: above) children

/-- The spine of the first child that `s` selects. -/
def spineInto (pick : Node → Option Selector) (s : Selector)
    (above : List Node) : List Node → List Cursor
  | [] => []
  | n :: rest => if s.selects n then spineFrom pick above n else spineInto pick s above rest

end

namespace Cursor

def spine (pick : Node → Option Selector) (c : Cursor) : List Cursor :=
  spineFrom pick c.above c.node

/-- The last node of the spine. -/
def follow (pick : Node → Option Selector) (c : Cursor) : Cursor := (c.spine pick).getLastD c

end Cursor

end CallAtlas.Tree
