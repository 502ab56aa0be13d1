import Mathlib.Algebra.BigOperators.Ring.Finset
import CallAtlas.Proofs.GraphInvariant

/-!
# Proofs.GraphRepresentation — look-ups, degrees and refused edits

What a graph holds is one thing, what its queries say of it another. On a graph that was built by
edits the two agree: a look-up by id, name or key finds exactly the entries that are there, and the
edges are counted alike from their sources, from their targets and by their kinds.

* `CallGraph.Indexed` — the look-ups are exact.
* `CallGraph.Balanced` — callers and callees are converse to each other, and degrees count edges.
* `CallGraph.addCall_eq_self_iff` and the like — an edit that is refused changes nothing.
-/

namespace CallAtlas.CallGraph

variable {g : CallGraph}

/-! ## Look-ups -/

/-- Every look-up finds the entries with its key, and those only. -/
structure Indexed (g : CallGraph) : Prop where
  index_iff : ∀ id i, g.index? id = some i ↔ g.nodeIds[i]? = some id
  node_iff : ∀ id d, g.node? id = some d ↔ d ∈ g.nodes ∧ d.id = id
  contains_iff : ∀ id, g.contains id = true ↔ id ∈ g.nodeIds
  name_iff : ∀ name d, d ∈ g.findByName name ↔ d ∈ g.nodes ∧ d.name = name
  name_sorted : ∀ name, ((g.findByName name).map (·.id)).Pairwise (· < ·)
  external_iff : ∀ key, g.hasExternal key = true ↔ key ∈ g.externals.map ExternalEdge.key
  entry_iff : ∀ id, g.isEntryPoint id = true ↔ id ∈ g.entries

/-- Sorted by distinct ids, a list of declarations increases. -/
theorem pairwise_lt_of_nodup {ids : List String} (hsorted : ids.Pairwise (· ≤ ·))
    (hnodup : ids.Nodup) : ids.Pairwise (· < ·) :=
  hsorted.imp₂ (fun _ _ hle hne => lt_of_le_of_ne hle hne) hnodup

theorem pairwise_ids_sortOn (ds : List Declaration) :
    ((Order.sortOn Order.text (·.id) ds).map (·.id)).Pairwise (· ≤ ·) := by
  rw [List.pairwise_map]
  exact (Order.pairwise_sortOn Order.text_total _ ds).imp fun h => by simpa [Order.text] using h

/-- In a well-formed graph the index of an id is the one place where it stands. -/
theorem index?_eq_some_iff (hg : g.WellFormed) {id : String} {i : Nat} :
    g.index? id = some i ↔ g.nodeIds[i]? = some id := by
  rw [index?, List.findIdx?_eq_some_iff_getElem]
  constructor
  · rintro ⟨hi, hid, -⟩
    simpa [nodeIds, List.getElem?_eq_getElem hi] using hid
  · intro hid
    obtain ⟨hi, hget⟩ := List.getElem?_eq_some_iff.mp hid
    have hlen : i < g.nodes.length := by simpa [nodeIds] using hi
    refine ⟨hlen, by simpa [nodeIds] using hget, fun j hj hsame => ?_⟩
    -- an earlier node with the id would be the same node
    have hjlen : j < g.nodeIds.length := Nat.lt_trans hj hi
    have hjget : g.nodeIds[j] = id := by simpa [nodeIds] using hsame
    exact absurd ((hg.nodes_nodup.getElem_inj_iff).mp (hjget.trans hget.symm)) (Nat.ne_of_lt hj)

/-- The search by name finds all declarations of that name. -/
theorem mem_findByName {name : String} {d : Declaration} :
    d ∈ g.findByName name ↔ d ∈ g.nodes ∧ d.name = name := by
  simp [findByName, declarations, Order.mem_sortOn]

/-- The declarations are listed by id, each once. -/
theorem pairwise_declarations (hg : g.WellFormed) :
    (g.declarations.map (·.id)).Pairwise (· < ·) := by
  have hnodup : (g.declarations.map (·.id)).Nodup :=
    ((Order.perm_sortOn Order.text _ g.nodes).map _).nodup_iff.mpr hg.nodes_nodup
  exact pairwise_lt_of_nodup (pairwise_ids_sortOn g.nodes) hnodup

theorem pairwise_findByName (hg : g.WellFormed) (name : String) :
    ((g.findByName name).map (·.id)).Pairwise (· < ·) :=
  (pairwise_declarations hg).sublist (List.filter_sublist.map _)

/-- The look-ups of a well-formed graph agree with what it holds. -/
theorem WellFormed.indexed (hg : g.WellFormed) : g.Indexed where
  index_iff _ _ := index?_eq_some_iff hg
  node_iff _ _ := node?_eq_some_iff hg
  contains_iff _ := CallGraph.contains_iff
  name_iff _ _ := mem_findByName
  name_sorted := pairwise_findByName hg
  external_iff _ := any_key_eq_true
  entry_iff _ := List.contains_iff_mem

/-! ## Callers, callees and degrees -/

/-- Edges are seen alike from both ends, and counted alike from both ends and by kind. -/
structure Balanced (g : CallGraph) : Prop where
  converse : ∀ x y, y ∈ g.callerIds x ↔ x ∈ g.calleeIds y
  joined : ∀ x y, y ∈ g.callerIds x ↔ g.Calls y x
  callers_sorted : ∀ x, (g.callerIds x).Pairwise (· < ·)
  callees_sorted : ∀ x, (g.calleeIds x).Pairwise (· < ·)
  fanIn_eq : ∀ x, g.fanIn x = g.edges.countP (·.target = x)
  fanOut_eq : ∀ x, g.fanOut x = g.edges.countP (·.source = x)
  sum_fanIn : (g.nodes.map fun d => g.fanIn d.id).sum = g.stats.callEdges + g.stats.apiEdges
  sum_fanOut : (g.nodes.map fun d => g.fanOut d.id).sum = g.stats.callEdges + g.stats.apiEdges

/-- The callees that the graph lists are the nodes that are called. -/
theorem mem_calleeIds (hg : g.WellFormed) {id callee : String} :
    callee ∈ g.calleeIds id ↔ g.Calls id callee := by
  simp only [calleeIds, callees, List.mem_map, Order.mem_sortOn, Prod.exists, Calls]
  constructor
  · rintro ⟨_, ⟨d, data, hmem, rfl⟩, rfl⟩
    exact ⟨data, ((mem_calleeEdges hg).mp hmem).2⟩
  · rintro ⟨data, he⟩
    obtain ⟨d, hmem, hid⟩ := exists_mem_calleeEdges hg he
    exact ⟨d, ⟨d, data, hmem, rfl⟩, hid⟩

/-- Since the ends of all edges are nodes, no edge is lost when they are listed with a node at one
end. -/
theorem map_id_filterMap_node? {edges : List Edge} {pick : Edge → String}
    (hpick : ∀ e ∈ edges, pick e ∈ g.nodeIds) :
    (edges.filterMap fun e => (g.node? (pick e)).map (·, e.data)).map (·.1.id)
      = edges.map pick := by
  induction edges with
  | nil => rfl
  | cons e rest ih =>
    obtain ⟨d, hd, hid⟩ := exists_node?_of_mem (hpick e List.mem_cons_self)
    rw [List.filterMap_cons, hd, Option.map_some, List.map_cons, List.map_cons, hid,
      ih fun e' he' => hpick e' (List.mem_cons_of_mem e he')]

/-- The callers of an id, up to order, are the sources of the edges into it. -/
theorem perm_callerIds (hg : g.WellFormed) (id : String) :
    (g.callerIds id).Perm ((g.edges.filter (·.target = id)).map Edge.source) := by
  rw [callerIds, callers, List.map_map]
  refine ((Order.perm_sortOn _ _ _).map _).trans (.of_eq (map_id_filterMap_node? fun e he => ?_))
  exact (hg.ends_known e (List.mem_filter.mp he).1).1

/-- The callees of an id, up to order, are the targets of the edges out of it. -/
theorem perm_calleeIds (hg : g.WellFormed) (id : String) :
    (g.calleeIds id).Perm ((g.edges.filter (·.source = id)).map Edge.target) := by
  rw [calleeIds, callees]
  refine ((Order.perm_sortOn _ _ _).map _).trans ?_
  rw [List.map_map]
  refine ((Order.perm_sortOn _ _ _).map _).trans (.of_eq (map_id_filterMap_node? fun e he => ?_))
  exact (hg.ends_known e (List.mem_filter.mp he).1).2

/-- Edges that share one end differ in the other. -/
theorem nodup_map_of_ends {edges : List Edge} {fixed pick : Edge → String} {x : String}
    (hends : ∀ e e' : Edge, fixed e = fixed e' → pick e = pick e' → e.ends = e'.ends)
    (hnodup : (edges.map Edge.ends).Nodup) :
    ((edges.filter fun e => fixed e = x).map pick).Nodup := by
  have hfilter : ((edges.filter fun e => fixed e = x).map Edge.ends).Nodup :=
    hnodup.sublist (List.filter_sublist.map _)
  rw [List.Nodup, List.pairwise_map] at hfilter ⊢
  -- two edges with equal picked ends would have both ends in common
  refine hfilter.imp_of_mem fun {e e'} he he' hne hpick => hne (hends e e' ?_ hpick)
  rw [of_decide_eq_true (List.mem_filter.mp he).2, of_decide_eq_true (List.mem_filter.mp he').2]

theorem pairwise_callerIds (hg : g.WellFormed) (id : String) :
    (g.callerIds id).Pairwise (· < ·) := by
  -- sorted by construction; strictly, since two edges into one node have different sources
  refine pairwise_lt_of_nodup ?_ ((perm_callerIds hg id).nodup_iff.mpr ?_)
  · rw [callerIds, callers, List.map_map, List.pairwise_map]
    exact (Order.pairwise_sortOn Order.text_total _ _).imp fun h => by simpa [Order.text] using h
  · exact nodup_map_of_ends (fun _ _ htarget hsource => Prod.ext hsource htarget) hg.edges_nodup

theorem pairwise_calleeIds (hg : g.WellFormed) (id : String) :
    (g.calleeIds id).Pairwise (· < ·) := by
  refine pairwise_lt_of_nodup (pairwise_ids_sortOn _) ((perm_calleeIds hg id).nodup_iff.mpr ?_)
  exact nodup_map_of_ends (fun _ _ hsource htarget => Prod.ext hsource htarget) hg.edges_nodup

/-- The fan-in counts the edges into a node. -/
theorem fanIn_eq_countP (hg : g.WellFormed) (id : String) :
    g.fanIn id = g.edges.countP (·.target = id) := by
  rw [fanIn, ← List.length_map (·.id), ← callerIds, (perm_callerIds hg id).length_eq,
    List.length_map, List.countP_eq_length_filter]

theorem fanOut_eq_countP (hg : g.WellFormed) (id : String) :
    g.fanOut id = g.edges.countP (·.source = id) := by
  rw [fanOut, ← List.length_map (·.id), ← calleeIds, (perm_calleeIds hg id).length_eq,
    List.length_map, List.countP_eq_length_filter]

/-- Counting the edges at every node counts each edge once: `pick` says at which end. -/
theorem sum_countP_nodes (hg : g.WellFormed) {pick : Edge → String}
    (hpick : ∀ e ∈ g.edges, pick e ∈ g.nodeIds) :
    (g.nodes.map fun d => g.edges.countP (fun e => pick e = d.id)).sum = g.edges.length := by
  have hcount (id : String) : g.edges.countP (fun e => pick e = id)
      = (g.edges.map pick).count id := by
    rw [List.count, List.countP_map]
    rfl
  -- every counted id is the id of a node
  have hall : ∀ id ∈ (g.edges.map pick : Multiset String), id ∈ g.nodeIds.toFinset := by
    intro id hid
    obtain ⟨e, he, rfl⟩ := List.mem_map.mp hid
    exact List.mem_toFinset.mpr (hpick e he)
  calc (g.nodes.map fun d => g.edges.countP (fun e => pick e = d.id)).sum
      = (g.nodeIds.map fun id => (g.edges.map pick).count id).sum := by
        rw [nodeIds, List.map_map]
        exact congrArg List.sum (List.map_congr_left fun d _ => hcount d.id)
    _ = ∑ id ∈ g.nodeIds.toFinset, (g.edges.map pick).count id :=
      (List.sum_toFinset _ hg.nodes_nodup).symm
    _ = (g.edges.map pick).length := by
        simpa only [Multiset.coe_count, Multiset.coe_card] using Multiset.sum_count_eq_card hall
    _ = g.edges.length := List.length_map pick

/-- There are two kinds of edges. -/
theorem length_edges (g : CallGraph) : g.edges.length = g.stats.callEdges + g.stats.apiEdges := by
  rw [List.length_eq_countP_add_countP fun e : Edge => e.data.kind = .calls]
  refine congrArg (_ + ·) (List.countP_congr fun e _ => ?_)
  cases e.data.kind <;> simp

/-- Callers and callees of a well-formed graph are two views of the same edges. -/
theorem WellFormed.balanced (hg : g.WellFormed) : g.Balanced where
  converse x y := (mem_callerIds hg).trans (mem_calleeIds hg).symm
  joined _ _ := mem_callerIds hg
  callers_sorted := pairwise_callerIds hg
  callees_sorted := pairwise_calleeIds hg
  fanIn_eq := fanIn_eq_countP hg
  fanOut_eq := fanOut_eq_countP hg
  -- every edge ends at one known node, so summing over the nodes counts each edge once
  sum_fanIn := by
    simp only [fanIn_eq_countP hg, ← length_edges]
    exact sum_countP_nodes hg fun e he => (hg.ends_known e he).2
  sum_fanOut := by
    simp only [fanOut_eq_countP hg, ← length_edges]
    exact sum_countP_nodes hg fun e he => (hg.ends_known e he).1

/-! ## Refused edits -/

/-- A call is admitted between known nodes that are not joined yet. -/
theorem admitsCall_iff {source target : String} :
    g.admitsCall source target = true ↔
      source ∈ g.nodeIds ∧ target ∈ g.nodeIds ∧ ¬ g.Calls source target := by
  have hcalls : g.connects source target = true ↔ g.Calls source target := by
    rw [connects_iff, Calls, List.mem_map]
    constructor
    · rintro ⟨e, he, hends⟩
      obtain ⟨rfl, rfl⟩ := Prod.mk.inj hends
      exact ⟨e.data, he⟩
    · rintro ⟨data, he⟩
      exact ⟨_, he, rfl⟩
  rw [admitsCall, Bool.and_eq_true, Bool.and_eq_true, contains_iff, contains_iff,
    Bool.not_eq_true', ← hcalls, Bool.not_eq_true, and_assoc]

/-- A call changes the graph exactly when it is admitted. -/
theorem addCall_eq_self_iff {source target : String} (data : EdgeData) :
    g.addCall source target data = g ↔ g.admitsCall source target = false := by
  unfold addCall
  split
  · next hadmits =>
    refine iff_of_false (fun h => ?_) (by simp [hadmits])
    -- an admitted call makes the list of edges longer
    simpa using congrArg (·.edges.length) h
  · next hrefused => exact iff_of_true rfl (Bool.eq_false_iff.mpr hrefused)

theorem addExternal_eq_self_iff {e : ExternalEdge} :
    g.addExternal e = g ↔ g.admitsExternal e = false := by
  unfold addExternal
  split
  · next hadmits =>
    refine iff_of_false (fun h => ?_) (by simp [hadmits])
    simpa using congrArg (·.externals.length) h
  · next hrefused => exact iff_of_true rfl (Bool.eq_false_iff.mpr hrefused)

theorem addDeclaration_eq_self_iff {d : Declaration} :
    g.addDeclaration d = g ↔ g.contains d.id = true := by
  unfold addDeclaration
  split
  · next hknown => exact iff_of_true rfl hknown
  · next hnew =>
    refine iff_of_false (fun h => ?_) hnew
    simpa using congrArg (·.nodes.length) h

end CallAtlas.CallGraph
