/-!
# Progress — events at the start and end of each phase of an analysis
-/

namespace CallAtlas

inductive Phase where
  | extraction | graphAssembly | traversal
deriving DecidableEq, Repr

namespace Phase

def all : List Phase := [.extraction, .graphAssembly, .traversal]

def name : Phase → String
  | .extraction => "extraction"
  | .graphAssembly => "graph_assembly"
  | .traversal => "traversal"

end Phase

/-- A phase with the number of its work items. -/
inductive ProgressEvent where
  | started (phase : Phase) (items : Nat)
  | completed (phase : Phase) (items : Nat)
deriving DecidableEq, Repr

namespace ProgressEvent

/-- Both events of one phase. -/
def around (phase : Phase) (items : Nat) : List ProgressEvent :=
  [started phase items, completed phase items]

end ProgressEvent

end CallAtlas
