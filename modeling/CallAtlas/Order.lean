/-!
# Order — orders by which lists are sorted

Sorting is stable: entries with equal keys stay in their order.
-/

namespace CallAtlas.Order

def text (a b : String) : Bool := decide (a ≤ b)

def count (a b : Nat) : Bool := decide (a ≤ b)

/-- The first component decides, and the second one between equals. -/
def lex {α β : Type} (first : α → α → Bool) (second : β → β → Bool) (a b : α × β) : Bool :=
  first a.1 b.1 && (!first b.1 a.1 || second a.2 b.2)

def sortOn {α κ : Type} (le : κ → κ → Bool) (key : α → κ) (xs : List α) : List α :=
  xs.mergeSort fun a b => le (key a) (key b)

end CallAtlas.Order
