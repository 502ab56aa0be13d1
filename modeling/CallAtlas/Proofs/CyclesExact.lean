import CallAtlas.Proofs.Descendants
import CallAtlas.Proofs.GraphRepresentation

/-!
# Proofs.CyclesExact — the cycles are the cyclic components of the graph

Two declarations belong together if each reaches the other. On the declarations that reach
themselves this is an equivalence, and `cycles` lists its classes: a class is found from each of its
members and kept only where it is found from the first one.

* `Reaches.trans` — reaching is transitive, so that `cycleOf_eq_of_mem` holds: every member of a
  cycle finds the same cycle.
* `mem_cycles` — a list is a cycle exactly if it is what its own head finds.
* `exists_cycle_iff` — two ids share a cycle exactly if each reaches the other.
* `cycles_exact` — the above, with the order of the lists and of their members.
-/

namespace CallAtlas

namespace CallGraph

variable {g : CallGraph} {x y z : String} {c c' : List String}

/-! ## Reaching each other -/

/-- Reaching is transitive: the two walks are joined. -/
theorem Reaches.trans (hxy : g.Reaches x y) (hyz : g.Reaches y z) : g.Reaches x z := by
  obtain ⟨m, hm⟩ := hxy
  obtain ⟨n, hn⟩ := hyz
  exact ⟨m + 1 + n, hm.trans hn⟩

theorem Calls.reaches (h : g.Calls x y) : g.Reaches x y := ⟨0, .step h (.refl y)⟩

/-- Only a node reaches something, since an edge starts there. -/
theorem Reaches.mem_nodeIds (hg : g.WellFormed) (h : g.Reaches x y) : x ∈ g.nodeIds := by
  obtain ⟨n, hchain⟩ := h
  cases hchain with
  | step hfirst _ =>
    obtain ⟨_, he⟩ := hfirst
    exact (hg.ends_known _ he).1

/-! ## The cycle of an id -/

/-- The cyclic nodes are those that reach themselves. -/
theorem mem_cyclicIds (hg : g.WellFormed) : x ∈ g.cyclicIds ↔ g.Reaches x x := by
  rw [cyclicIds, List.mem_filter, reaches_iff hg]
  refine and_iff_right_of_imp fun h => ?_
  obtain ⟨d, hd, rfl⟩ := List.mem_map.mp (h.mem_nodeIds hg)
  exact List.mem_map.mpr ⟨d, Order.mem_sortOn.mpr hd, rfl⟩

/-- The cycle of a node is its strongly connected component. -/
theorem mem_cycleOf (hg : g.WellFormed) : y ∈ g.cycleOf x ↔ g.Reaches x y ∧ g.Reaches y x := by
  rw [cycleOf, List.mem_filter, mem_cyclicIds hg, Bool.and_eq_true, reaches_iff hg, reaches_iff hg]
  exact and_iff_right_of_imp fun h => h.2.trans h.1

theorem pairwise_cycleOf (hg : g.WellFormed) (x : String) : (g.cycleOf x).Pairwise (· < ·) :=
  ((pairwise_declarations hg).filter _).filter _

/-- **Every member of a cycle finds the same cycle.** -/
theorem cycleOf_eq_of_mem (hg : g.WellFormed) (h : y ∈ g.cycleOf x) :
    g.cycleOf y = g.cycleOf x := by
  obtain ⟨hxy, hyx⟩ := (mem_cycleOf hg).mp h
  refine List.filter_congr fun z _ => ?_
  rw [Bool.eq_iff_iff, Bool.and_eq_true, Bool.and_eq_true, reaches_iff hg, reaches_iff hg,
    reaches_iff hg, reaches_iff hg]
  constructor
  · rintro ⟨hyz, hzy⟩
    exact ⟨hxy.trans hyz, hzy.trans hyx⟩
  · rintro ⟨hxz, hzx⟩
    exact ⟨hyx.trans hxz, hzx.trans hxy⟩

/-! ## The list of cycles -/

/-- **A list is a cycle exactly if its head finds it.** -/
theorem mem_cycles (hg : g.WellFormed) :
    c ∈ g.cycles ↔ ∃ x, c.head? = some x ∧ g.cycleOf x = c := by
  rw [cycles_eq, List.mem_filterMap]
  constructor
  · rintro ⟨x, -, hx⟩
    split at hx
    · next hhead =>
      obtain rfl : g.cycleOf x = c := Option.some.inj hx
      exact ⟨x, hhead, rfl⟩
    · cases hx
  · rintro ⟨x, hhead, rfl⟩
    obtain ⟨hxx, -⟩ := (mem_cycleOf hg).mp (List.mem_of_head? hhead)
    exact ⟨x, (mem_cyclicIds hg).mpr hxx, if_pos hhead⟩

/-- A cycle is what each of its members finds. -/
theorem eq_cycleOf_of_mem (hg : g.WellFormed) (hc : c ∈ g.cycles)
    (hx : x ∈ c) : c = g.cycleOf x := by
  obtain ⟨first, -, rfl⟩ := (mem_cycles hg).mp hc
  exact (cycleOf_eq_of_mem hg hx).symm

/-- What a declaration on a cycle finds is listed: its head is a member, and so finds the same. -/
theorem cycleOf_mem_cycles (hg : g.WellFormed) (h : g.Reaches x x) : g.cycleOf x ∈ g.cycles := by
  have hmem : x ∈ g.cycleOf x := (mem_cycleOf hg).mpr ⟨h, h⟩
  -- the class is kept where its first member finds it, so that is the one to go through
  obtain ⟨first, hfirst⟩ :=
    Option.isSome_iff_exists.mp (List.isSome_head?.mpr (List.ne_nil_of_mem hmem))
  exact (mem_cycles hg).mpr ⟨first, hfirst, cycleOf_eq_of_mem hg (List.mem_of_head? hfirst)⟩

/-- **Two ids share a cycle exactly if each reaches the other.** -/
theorem exists_cycle_iff (hg : g.WellFormed) :
    (∃ c ∈ g.cycles, x ∈ c ∧ y ∈ c) ↔ g.Reaches x y ∧ g.Reaches y x := by
  constructor
  · rintro ⟨c, hc, hx, hy⟩
    rw [eq_cycleOf_of_mem hg hc hx] at hy
    exact (mem_cycleOf hg).mp hy
  · intro h
    have hxx : g.Reaches x x := h.1.trans h.2
    exact ⟨g.cycleOf x, cycleOf_mem_cycles hg hxx, (mem_cycleOf hg).mpr ⟨hxx, hxx⟩,
      (mem_cycleOf hg).mpr h⟩

/-- An id lies on some cycle exactly if it reaches itself. -/
theorem exists_mem_cycle_iff (hg : g.WellFormed) : (∃ c ∈ g.cycles, x ∈ c) ↔ g.Reaches x x := by
  have h : (∃ c ∈ g.cycles, x ∈ c ∧ x ∈ c) ↔ g.Reaches x x ∧ g.Reaches x x := exists_cycle_iff hg
  simpa only [and_self] using h

/-- The heads of the cycles increase, since they are the ids in order at which a cycle is kept. -/
theorem pairwise_cycles_heads (hg : g.WellFormed) :
    g.cycles.Pairwise fun c c' => ∃ x y, c.head? = some x ∧ c'.head? = some y ∧ x < y := by
  have hids : g.cyclicIds.Pairwise (· < ·) := (pairwise_declarations hg).filter _
  rw [cycles_eq, List.pairwise_filterMap]
  refine hids.imp fun {x y} hlt c hc c' hc' => ?_
  split at hc
  · next hhead =>
    split at hc'
    · next hhead' =>
      obtain rfl := Option.some.inj hc
      obtain rfl := Option.some.inj hc'
      exact ⟨x, y, hhead, hhead', hlt⟩
    · cases hc'
  · cases hc

/-- Lists are in the order of their first elements where those differ. -/
theorem lex_of_head?_lt (hx : c.head? = some x) (hy : c'.head? = some y) (hlt : x < y) :
    List.Lex (· < ·) c c' := by
  obtain ⟨rest, rfl⟩ := List.head?_eq_some_iff.mp hx
  obtain ⟨rest', rfl⟩ := List.head?_eq_some_iff.mp hy
  exact .rel hlt

/-- Two cycles with a common member are found by it, and so they are the same. -/
theorem disjoint_of_heads_lt (hg : g.WellFormed) (hc : c ∈ g.cycles) (hc' : c' ∈ g.cycles)
    (hx : c.head? = some x) (hy : c'.head? = some y) (hlt : x < y) : c.Disjoint c' := by
  intro z hz hz'
  have hsame : c = c' := (eq_cycleOf_of_mem hg hc hz).trans (eq_cycleOf_of_mem hg hc' hz').symm
  rw [hsame, hy] at hx
  exact absurd hlt (by rw [Option.some.inj hx]; exact lt_irrefl x)

/-- **Cycles are the cyclic components.** On every graph that edits can build: an id lies on a
reported cycle exactly if one or more edges lead from it to itself; two ids lie on the same one
exactly if each reaches the other; and the cycles are disjoint, not empty, increasing by id, and
sorted. -/
theorem cycles_exact (edits : List GraphEdit) :
    let g := ({} : CallGraph).applyAll edits
    (∀ x, (∃ c ∈ g.cycles, x ∈ c) ↔ g.Reaches x x) ∧
      (∀ x y, (∃ c ∈ g.cycles, x ∈ c ∧ y ∈ c) ↔ g.Reaches x y ∧ g.Reaches y x) ∧
      g.cycles.Pairwise List.Disjoint ∧ (∀ c ∈ g.cycles, c ≠ [] ∧ c.Pairwise (· < ·)) ∧
      g.cycles.Pairwise (List.Lex (· < ·)) := by
  intro g
  have hg : g.WellFormed := wellFormed_applyAll edits
  have hheads := pairwise_cycles_heads hg
  refine ⟨fun x => exists_mem_cycle_iff hg, fun x y => exists_cycle_iff hg, ?_, ?_, ?_⟩
  · refine hheads.imp_of_mem fun hc hc' => ?_
    rintro ⟨x, y, hx, hy, hlt⟩
    exact disjoint_of_heads_lt hg hc hc' hx hy hlt
  · intro c hc
    obtain ⟨x, hx, rfl⟩ := (mem_cycles hg).mp hc
    exact ⟨List.ne_nil_of_mem (List.mem_of_head? hx), pairwise_cycleOf hg x⟩
  · refine hheads.imp ?_
    rintro c c' ⟨x, y, hx, hy, hlt⟩
    exact lex_of_head?_lt hx hy hlt

/-- Of the small graph, two functions that call each other and one that calls itself. -/
example : (({} : CallGraph).applyAll sample).cycles = [["retry", "submit"], ["save"]] := by cbv

end CallGraph

end CallAtlas
