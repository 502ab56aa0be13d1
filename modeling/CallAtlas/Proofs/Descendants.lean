import CallAtlas.Graph.Cycles
import CallAtlas.Proofs.BreadthFirst
import CallAtlas.Proofs.GraphInvariant

/-!
# Proofs.Descendants — what a declaration reaches, and the cycles in terms of it

The search behind the cycles works off a queue along the edges, in the order in which they were
added. That order decides when something is found, but not what: in the end these are the ends of
all chains of one or more edges.

* `Exploring` — the invariant. What was seen is split into `done`, whose successors were seen, and
  the queue.
* `explore_exact` — a search with enough rounds has seen exactly what is reached. Induction on the
  rounds.
* `mem_descendants` — hence what `descendants` answers.
* `cycles_eq` — the cycles depend on a graph by its ids in order and by what reaches what, and by
  nothing else.
-/

namespace CallAtlas

/-- A chain goes on at its end. -/
theorem Chain.snoc {R : String → String → Prop} {n : Nat} {a b c : String} (h : Chain R n a b)
    (hstep : R b c) : Chain R (n + 1) a c := by
  induction h with
  | refl a => exact .step hstep (.refl c)
  | step hfirst _ ih => exact .step hfirst (ih hstep)

/-- A set that holds the start of a chain and, with every member, all its successors holds the end
too. -/
theorem Chain.mem_of_forward_closed {R : String → String → Prop} {S : String → Prop} {n : Nat}
    {a b : String} (h : Chain R n a b) (hclosed : ∀ x y, S x → R x y → S y) (ha : S a) : S b := by
  induction h with
  | refl _ => exact ha
  | step hstep _ ih => exact ih (hclosed _ _ ha hstep)

namespace CallGraph

variable {g : CallGraph} {id x y : String} {seen queue done : List String}

/-- One or more edges lead from one id to another. -/
def Reaches (g : CallGraph) (x y : String) : Prop := ∃ n, Chain g.Calls (n + 1) x y

/-- The successors of a node are the nodes that it calls. -/
theorem mem_successors : y ∈ g.successors x ↔ g.Calls x y := by
  simp only [successors, List.mem_map, List.mem_filter, decide_eq_true_eq, Calls]
  constructor
  · rintro ⟨e, ⟨he, rfl⟩, rfl⟩
    exact ⟨e.data, he⟩
  · rintro ⟨data, he⟩
    exact ⟨_, ⟨he, rfl⟩, rfl⟩

/-! ## One round -/

/-- The addition keeps from a list what has not been seen. -/
theorem mem_addNew {xs : List String} : x ∈ addNew seen xs ↔ x ∈ xs ∧ x ∉ seen := by
  induction xs generalizing seen with
  | nil => simp [addNew]
  | cons a xs ih =>
    rw [addNew]
    -- a seen element is passed over; an unseen one is kept and seen from here on
    by_cases ha : a ∈ seen
    · rw [if_pos (List.contains_iff_mem.mpr ha), ih, List.mem_cons]
      refine ⟨fun h => ⟨Or.inr h.1, h.2⟩, fun ⟨hx, hnew⟩ => ⟨hx.resolve_left ?_, hnew⟩⟩
      rintro rfl
      exact hnew ha
    · rw [if_neg (mt List.contains_iff_mem.mp ha), List.mem_cons, ih, List.mem_cons, List.mem_cons]
      by_cases hx : x = a
      · subst hx
        exact iff_of_true (Or.inl rfl) ⟨Or.inl rfl, ha⟩
      · simp [hx]

theorem nodup_addNew (seen xs : List String) : (addNew seen xs).Nodup := by
  induction xs generalizing seen with
  | nil => exact List.nodup_nil
  | cons a xs ih =>
    rw [addNew]
    split
    · exact ih seen
    · -- what is added later differs from `a`, since `a` counts as seen from here on
      exact List.nodup_cons.mpr ⟨fun h => (mem_addNew.mp h).2 List.mem_cons_self, ih (a :: seen)⟩

/-- A search from an id in progress. -/
structure Exploring (g : CallGraph) (id : String) (done queue : List String) : Prop where
  nodup : (done ++ queue).Nodup
  sound : ∀ x ∈ done ++ queue, g.Reaches id x
  first : ∀ x, g.Calls id x → x ∈ done ++ queue
  closed : ∀ x ∈ done, ∀ y, g.Calls x y → y ∈ done ++ queue

theorem Exploring.initial (g : CallGraph) (id : String) :
    Exploring g id [] (addNew [] (g.successors id)) where
  nodup := nodup_addNew [] _
  sound x hx := ⟨0, .step (mem_successors.mp (mem_addNew.mp hx).1) (.refl x)⟩
  first _ hx := mem_addNew.mpr ⟨mem_successors.mpr hx, List.not_mem_nil⟩
  closed _ hx := absurd hx List.not_mem_nil

/-- **One round.** The head of the queue is done once its new successors are in the queue. -/
theorem Exploring.next (h : Exploring g id done (x :: queue)) :
    Exploring g id (done ++ [x]) (queue ++ addNew (done ++ x :: queue) (g.successors x)) := by
  have hsplit : done ++ [x] ++ (queue ++ addNew (done ++ x :: queue) (g.successors x))
      = done ++ x :: queue ++ addNew (done ++ x :: queue) (g.successors x) := by simp
  -- the fields in turn: no repetition, soundness, the first callees, closure of what is done
  constructor
  · rw [hsplit, List.nodup_append]
    refine ⟨h.nodup, nodup_addNew _ _, ?_⟩
    rintro a ha b hb rfl
    exact (mem_addNew.mp hb).2 ha
  · rw [hsplit]
    intro y hy
    rcases List.mem_append.mp hy with hy | hy
    · exact h.sound y hy
    · obtain ⟨n, hchain⟩ := h.sound x (List.mem_append_right done List.mem_cons_self)
      exact ⟨n + 1, hchain.snoc (mem_successors.mp (mem_addNew.mp hy).1)⟩
  · rw [hsplit]
    exact fun y hy => List.mem_append_left _ (h.first y hy)
  · rw [hsplit]
    intro z hz y hy
    rcases List.mem_append.mp hz with hz | hz
    · exact List.mem_append_left _ (h.closed z hz y hy)
    · -- the callees of the node done now are seen already or have just been added
      obtain rfl : z = x := List.mem_singleton.mp hz
      by_cases hseen : y ∈ done ++ z :: queue
      · exact List.mem_append_left _ hseen
      · exact List.mem_append_right _ (mem_addNew.mpr ⟨mem_successors.mpr hy, hseen⟩)

/-- At the end of the queue everything that is reached was seen. -/
theorem Exploring.mem_iff (h : Exploring g id done []) : y ∈ done ↔ g.Reaches id y := by
  have hseen : done ++ [] = done := List.append_nil done
  constructor
  · intro hy
    exact h.sound y (by rw [hseen]; exact hy)
  · rintro ⟨n, hchain⟩
    cases hchain with
    | step hfirst rest =>
      refine rest.mem_of_forward_closed (S := (· ∈ done)) (fun a b ha hab => ?_) ?_
      · have hb := h.closed a ha b hab
        rwa [hseen] at hb
      · have hb := h.first _ hfirst
        rwa [hseen] at hb

/-- Only nodes are seen, so there are not more rounds than nodes. -/
theorem Exploring.length_le (hg : g.WellFormed) (h : Exploring g id done queue) :
    (done ++ queue).length ≤ g.nodes.length := by
  have hsub : done ++ queue ⊆ g.nodeIds := by
    intro x hx
    obtain ⟨n, hchain⟩ := h.sound x hx
    -- the last edge of the chain ends at `x`
    cases hchain with
    | step hfirst rest =>
      refine rest.mem_of_forward_closed (S := (· ∈ g.nodeIds)) ?_ ?_
      · exact fun a b _ ⟨_, he⟩ => (hg.ends_known _ he).2
      · obtain ⟨_, he⟩ := hfirst
        exact (hg.ends_known _ he).2
  have hle := (List.subperm_of_subset h.nodup hsub).length_le
  rwa [nodeIds, List.length_map] at hle

/-! ## The search -/

/-- **A search with enough rounds is exact.** Every round moves one id to `done`, and there are no
more ids than nodes. Induction on the rounds. -/
theorem explore_exact (hg : g.WellFormed) {fuel : Nat} (h : Exploring g id done queue)
    (hfuel : g.nodes.length < done.length + fuel) :
    y ∈ g.explore fuel queue (done ++ queue) ↔ g.Reaches id y := by
  induction fuel generalizing done queue with
  -- done and waiting nodes are distinct nodes of the graph, so the fuel cannot run out
  | zero =>
    have hle := h.length_le hg
    rw [List.length_append] at hle
    omega
  | succ fuel ih =>
    cases queue with
    | nil =>
      rw [explore, List.append_nil]
      exact h.mem_iff
    | cons x queue =>
      have hround : done ++ x :: queue ++ addNew (done ++ x :: queue) (g.successors x)
          = done ++ [x] ++ (queue ++ addNew (done ++ x :: queue) (g.successors x)) := by simp
      rw [explore, hround]
      refine ih h.next ?_
      rw [List.length_append, List.length_singleton]
      omega

/-- **Descendants are what is reached by one or more edges.** -/
theorem mem_descendants (hg : g.WellFormed) : y ∈ g.descendants x ↔ g.Reaches x y := by
  have hfuel : g.nodes.length < ([] : List String).length + (g.nodes.length + 1) := by
    rw [List.length_nil, Nat.zero_add]
    exact Nat.lt_succ_self _
  exact explore_exact hg (Exploring.initial g x) hfuel

/-! ## Cycles -/

/-- Whether one or more edges lead from one id to another. -/
def reaches (g : CallGraph) (x y : String) : Bool := (g.descendants x).contains y

/-- The check for reachability decides reachability. -/
theorem reaches_iff (hg : g.WellFormed) : g.reaches x y = true ↔ g.Reaches x y := by
  rw [reaches, List.contains_iff_mem, mem_descendants hg]

/-- The ids that lie on a cycle, in order. -/
def cyclicIds (g : CallGraph) : List String :=
  (g.declarations.map (·.id)).filter fun id => g.reaches id id

/-- The members of the cycle of an id, in order. -/
def cycleOf (g : CallGraph) (id : String) : List String :=
  g.cyclicIds.filter fun other => g.reaches id other && g.reaches other id

/-- **Cycles by reachability.** -/
theorem cycles_eq (g : CallGraph) :
    g.cycles = g.cyclicIds.filterMap fun id =>
      if (g.cycleOf id).head? = some id then some (g.cycleOf id) else none := by
  simp only [cycles, cyclicIds, cycleOf, reaches, List.filter_map, List.filterMap_map, List.map_map,
    Function.comp_def]

end CallGraph

end CallAtlas
