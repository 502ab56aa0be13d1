import Mathlib.Data.List.Permutation
import CallAtlas.Graph.Query
import CallAtlas.Proofs.Sorting

/-!
# Proofs.GraphInvariant — what every run of edits keeps, and what the edge queries then answer

Three of the five lists of a graph grow in the same way: an entry is appended unless its key is
taken. `addByKey` is that step, and what is known of it (`mem_foldl_addByKey`: the first entry of
each key stays, no other) is used for nodes, edges and external edges alike.

* `CallGraph.WellFormed` — keys are unique and both ends of every edge are nodes.
* `CallGraph.wellFormed_applyAll` — it holds after any list of edits of the empty graph.
* `CallGraph.mem_callerEdges`, `CallGraph.mem_callerIds` — on such a graph the sorted queries list
  exactly the edges.
-/

namespace CallAtlas

/-! ## Appending by key -/

section AddByKey

variable {α κ : Type} [DecidableEq κ]

/-- Appends an entry unless its key is taken. -/
def addByKey (key : α → κ) (xs : List α) (x : α) : List α :=
  if xs.any fun y => key y = key x then xs else xs ++ [x]

theorem exists_find?_eq_some {p : α → Bool} {xs : List α} (h : ∃ x ∈ xs, p x = true) :
    ∃ x, xs.find? p = some x :=
  Option.isSome_iff_exists.mp (List.find?_isSome.mpr h)

theorem any_key_eq_true {key : α → κ} {xs : List α} {k : κ} :
    (xs.any fun y => decide (key y = k)) = true ↔ k ∈ xs.map key := by
  simp

/-- Adding by key keeps what is there and adds the new element if its key is free. -/
theorem mem_addByKey {key : α → κ} {xs : List α} {x y : α} :
    y ∈ addByKey key xs x ↔ y ∈ xs ∨ key x ∉ xs.map key ∧ y = x := by
  unfold addByKey
  split
  · next h => simp [any_key_eq_true.mp h]
  · next h => simp [mt any_key_eq_true.mpr h]

/-- After adding by key the key is taken, by the new element or by an older one. -/
theorem map_key_addByKey {key : α → κ} {xs : List α} {x : α} {k : κ} :
    k ∈ (addByKey key xs x).map key ↔ k ∈ xs.map key ∨ k = key x := by
  simp only [List.mem_map, mem_addByKey]
  constructor
  · rintro ⟨y, hy | ⟨-, rfl⟩, rfl⟩
    · exact Or.inl ⟨y, hy, rfl⟩
    · exact Or.inr rfl
  · rintro (⟨y, hy, rfl⟩ | rfl)
    · exact ⟨y, Or.inl hy, rfl⟩
    · -- where the key was taken, the older element has it
      by_cases htaken : ∃ y ∈ xs, key y = key x
      · obtain ⟨y, hy, hkey⟩ := htaken
        exact ⟨y, Or.inl hy, hkey⟩
      · exact ⟨x, Or.inr ⟨htaken, rfl⟩, rfl⟩

/-- Adding by key never repeats a key. -/
theorem nodup_addByKey {key : α → κ} {xs : List α} (x : α) (h : (xs.map key).Nodup) :
    ((addByKey key xs x).map key).Nodup := by
  unfold addByKey
  split
  · exact h
  · next hfree =>
    have hnew : key x ∉ xs.map key := mt any_key_eq_true.mpr hfree
    rw [List.map_append, List.nodup_append]
    refine ⟨h, by simp, ?_⟩
    intro a ha b hb
    obtain rfl : b = key x := by simpa using hb
    rintro rfl
    exact hnew ha

/-- **The first entry wins.** After a list of additions there is, beside what was there before, the
first entry of each key that was free, and nothing else. Induction on the additions, for any list to
start from. -/
theorem mem_foldl_addByKey {key : α → κ} {additions xs : List α} {y : α} :
    y ∈ additions.foldl (addByKey key) xs ↔
      y ∈ xs ∨ key y ∉ xs.map key ∧ additions.find? (fun x => key x = key y) = some y := by
  induction additions generalizing xs with
  | nil => simp
  | cons x rest ih =>
    rw [List.foldl_cons, ih, mem_addByKey, map_key_addByKey, List.find?_cons]
    by_cases hkey : key x = key y
    · -- the head has the key of `y`, so it is the first of its key
      simp only [hkey, decide_true, Option.some.injEq, not_or]
      constructor
      · rintro ((hy | ⟨hfree, rfl⟩) | ⟨⟨-, hne⟩, -⟩)
        · exact Or.inl hy
        · exact Or.inr ⟨hfree, rfl⟩
        · exact absurd trivial hne
      · rintro (hy | ⟨hfree, rfl⟩)
        · exact Or.inl (Or.inl hy)
        · exact Or.inl (Or.inr ⟨hfree, rfl⟩)
    · have hne : y ≠ x := fun h => hkey (congrArg key h.symm)
      have hne' : ¬ key y = key x := fun h => hkey h.symm
      simp [hkey, hne, hne']

end AddByKey

/-! ## What one edit does

One lemma for each list that an edit changes, and frame lemmas for those that it leaves alone. -/

/-- The ends of an edge are its key. -/
def Edge.ends (e : Edge) : String × String := (e.source, e.target)

namespace CallGraph

/-- The ids of the nodes, in the order of insertion. -/
def nodeIds (g : CallGraph) : List String := g.nodes.map (·.id)

/-- The graph contains the ids of its nodes. -/
theorem contains_iff {g : CallGraph} {id : String} : g.contains id = true ↔ id ∈ g.nodeIds :=
  any_key_eq_true

/-- Two ids are connected when an edge has them as its ends. -/
theorem connects_iff {g : CallGraph} {source target : String} :
    g.connects source target = true ↔ (source, target) ∈ g.edges.map Edge.ends := by
  simp [connects, Edge.ends]

/-- A declaration is filed under its id. -/
theorem addDeclaration_nodes (g : CallGraph) (d : Declaration) :
    (g.addDeclaration d).nodes = addByKey (·.id) g.nodes d := by
  unfold addDeclaration addByKey contains
  split <;> rfl

@[simp] theorem addDeclaration_edges (g : CallGraph) (d : Declaration) :
    (g.addDeclaration d).edges = g.edges := by
  unfold addDeclaration
  split <;> rfl

@[simp] theorem addDeclaration_externals (g : CallGraph) (d : Declaration) :
    (g.addDeclaration d).externals = g.externals := by
  unfold addDeclaration
  split <;> rfl

@[simp] theorem addDeclaration_entries (g : CallGraph) (d : Declaration) :
    (g.addDeclaration d).entries = g.entries := by
  unfold addDeclaration
  split <;> rfl

/-- An edge between two nodes is added by its ends. -/
theorem addCall_edges {g : CallGraph} {source target : String} (data : EdgeData)
    (hsource : source ∈ g.nodeIds) (htarget : target ∈ g.nodeIds) :
    (g.addCall source target data).edges = addByKey Edge.ends g.edges ⟨source, target, data⟩ := by
  have hs : g.contains source = true := contains_iff.mpr hsource
  have ht : g.contains target = true := contains_iff.mpr htarget
  -- `connects` compares the ends one by one, `addByKey` as a pair
  have hkey : (g.edges.any fun e => decide (e.ends = (source, target)))
      = g.connects source target := by
    rw [Bool.eq_iff_iff, any_key_eq_true, connects_iff]
  unfold addCall admitsCall addByKey
  rw [hs, ht, show Edge.ends ⟨source, target, data⟩ = (source, target) from rfl, hkey]
  cases g.connects source target <;> rfl

/-- An edge with an unknown end is not added. -/
theorem addCall_of_unknown {g : CallGraph} {source target : String} (data : EdgeData)
    (h : source ∉ g.nodeIds ∨ target ∉ g.nodeIds) : g.addCall source target data = g := by
  have hadmits : g.admitsCall source target = false := by
    rw [Bool.eq_false_iff]
    intro hadmits
    simp only [admitsCall, Bool.and_eq_true, contains_iff] at hadmits
    rcases h with h | h
    · exact h hadmits.1.1
    · exact h hadmits.1.2
  simp [addCall, hadmits]

@[simp] theorem addCall_nodes (g : CallGraph) (source target : String) (data : EdgeData) :
    (g.addCall source target data).nodes = g.nodes := by
  unfold addCall
  split <;> rfl

@[simp] theorem addCall_externals (g : CallGraph) (source target : String) (data : EdgeData) :
    (g.addCall source target data).externals = g.externals := by
  unfold addCall
  split <;> rfl

@[simp] theorem addCall_entries (g : CallGraph) (source target : String) (data : EdgeData) :
    (g.addCall source target data).entries = g.entries := by
  unfold addCall
  split <;> rfl

/-- An external edge is filed under its key. -/
theorem addExternal_externals (g : CallGraph) (e : ExternalEdge) :
    (g.addExternal e).externals = addByKey ExternalEdge.key g.externals e := by
  unfold addExternal admitsExternal hasExternal addByKey
  cases g.externals.any fun x => decide (x.key = e.key) <;> rfl

@[simp] theorem addExternal_nodes (g : CallGraph) (e : ExternalEdge) :
    (g.addExternal e).nodes = g.nodes := by
  unfold addExternal
  split <;> rfl

@[simp] theorem addExternal_edges (g : CallGraph) (e : ExternalEdge) :
    (g.addExternal e).edges = g.edges := by
  unfold addExternal
  split <;> rfl

@[simp] theorem addExternal_entries (g : CallGraph) (e : ExternalEdge) :
    (g.addExternal e).entries = g.entries := by
  unfold addExternal
  split <;> rfl

/-- Records the handler of the requests with one key. -/
def serve (key : String × ExternalKind × String) (handler : String)
    (x : ExternalEdge) : ExternalEdge :=
  if x.key = key then { x with matchedHandler := some handler } else x

/-- Serving an external edge keeps its key. -/
@[simp] theorem serve_key (key : String × ExternalKind × String) (handler : String)
    (x : ExternalEdge) : (serve key handler x).key = x.key := by
  unfold serve
  split <;> rfl

/-- Bridging serves the external edges of one key and leaves the others alone. -/
theorem bridge_externals (g : CallGraph) (e : ExternalEdge) (handler : String) :
    (g.bridge e handler).externals = g.externals.map (serve e.key handler) :=
  addCall_externals _ _ _ _

/-- A bridge joins the same ends as a call would. -/
theorem bridge_edges (g : CallGraph) (e : ExternalEdge) (handler : String) :
    (g.bridge e handler).edges = (g.addCall e.callerId handler ⟨.apiRequest, .direct, e.line,
      e.flags⟩).edges := by
  have hsame (xs : List ExternalEdge) : { g with externals := xs }.admitsCall e.callerId handler
      = g.admitsCall e.callerId handler := rfl
  simp only [bridge, addCall, hsame]
  split <;> rfl

@[simp] theorem bridge_nodes (g : CallGraph) (e : ExternalEdge) (handler : String) :
    (g.bridge e handler).nodes = g.nodes :=
  addCall_nodes _ _ _ _

@[simp] theorem bridge_entries (g : CallGraph) (e : ExternalEdge) (handler : String) :
    (g.bridge e handler).entries = g.entries :=
  addCall_entries _ _ _ _

@[simp] theorem markEntry_nodes (g : CallGraph) (id : String) :
    (g.markEntry id).nodes = g.nodes := by
  unfold markEntry
  split <;> rfl

@[simp] theorem markEntry_edges (g : CallGraph) (id : String) :
    (g.markEntry id).edges = g.edges := by
  unfold markEntry
  split <;> rfl

@[simp] theorem markEntry_externals (g : CallGraph) (id : String) :
    (g.markEntry id).externals = g.externals := by
  unfold markEntry
  split <;> rfl

/-! ## The invariant -/

/-- What holds of a graph that was built by edits. -/
structure WellFormed (g : CallGraph) : Prop where
  nodes_nodup : g.nodeIds.Nodup
  edges_nodup : (g.edges.map Edge.ends).Nodup
  ends_known : ∀ e ∈ g.edges, e.source ∈ g.nodeIds ∧ e.target ∈ g.nodeIds
  externals_nodup : (g.externals.map ExternalEdge.key).Nodup
  entries_nodup : g.entries.Nodup
  entries_known : ∀ id ∈ g.entries, id ∈ g.nodeIds

/-- The empty graph is well formed. -/
theorem wellFormed_empty : ({} : CallGraph).WellFormed := by
  constructor <;> simp [nodeIds]

/-- Only the nodes, the ends of the edges, the keys of the external edges and the entries matter. -/
theorem WellFormed.of_eq {g g' : CallGraph} (h : g.WellFormed) (hnodes : g'.nodes = g.nodes)
    (hedges : g'.edges = g.edges)
    (hkeys : g'.externals.map ExternalEdge.key = g.externals.map ExternalEdge.key)
    (hentries : g'.entries = g.entries) : g'.WellFormed := by
  have hids : g'.nodeIds = g.nodeIds := by rw [nodeIds, hnodes, nodeIds]
  constructor
  · rw [hids]; exact h.nodes_nodup
  · rw [hedges]; exact h.edges_nodup
  · rw [hedges, hids]; exact h.ends_known
  · rw [hkeys]; exact h.externals_nodup
  · rw [hentries]; exact h.entries_nodup
  · rw [hentries, hids]; exact h.entries_known

/-- A new declaration breaks nothing: ids stay distinct, and known ends stay known. -/
theorem WellFormed.addDeclaration {g : CallGraph} (h : g.WellFormed) (d : Declaration) :
    (g.addDeclaration d).WellFormed := by
  -- known ids stay known
  have hgrow : ∀ id ∈ g.nodeIds, id ∈ (g.addDeclaration d).nodeIds := by
    intro id hid
    rw [nodeIds, addDeclaration_nodes]
    exact map_key_addByKey.mpr (Or.inl hid)
  constructor
  · rw [nodeIds, addDeclaration_nodes]
    exact nodup_addByKey d h.nodes_nodup
  · rw [addDeclaration_edges]
    exact h.edges_nodup
  · rw [addDeclaration_edges]
    exact fun e he => ⟨hgrow _ (h.ends_known e he).1, hgrow _ (h.ends_known e he).2⟩
  · rw [addDeclaration_externals]
    exact h.externals_nodup
  · rw [addDeclaration_entries]
    exact h.entries_nodup
  · rw [addDeclaration_entries]
    exact fun id hid => hgrow id (h.entries_known id hid)

/-- A call is filed only between known nodes, once for each pair. -/
theorem WellFormed.addCall {g : CallGraph} (h : g.WellFormed) (source target : String)
    (data : EdgeData) : (g.addCall source target data).WellFormed := by
  -- a call with an unknown end is refused and changes nothing
  by_cases hknown : source ∈ g.nodeIds ∧ target ∈ g.nodeIds
  · have hids : (g.addCall source target data).nodeIds = g.nodeIds := by
      rw [nodeIds, addCall_nodes, nodeIds]
    constructor
    · rw [hids]
      exact h.nodes_nodup
    · rw [addCall_edges data hknown.1 hknown.2]
      exact nodup_addByKey _ h.edges_nodup
    · rw [addCall_edges data hknown.1 hknown.2, hids]
      intro e he
      rcases mem_addByKey.mp he with he | ⟨-, rfl⟩
      · exact h.ends_known e he
      · exact hknown
    · rw [addCall_externals]
      exact h.externals_nodup
    · rw [addCall_entries]
      exact h.entries_nodup
    · rw [addCall_entries, hids]
      exact h.entries_known
  · rw [addCall_of_unknown data (not_and_or.mp hknown)]
    exact h

/-- An external edge is filed once for each key. -/
theorem WellFormed.addExternal {g : CallGraph} (h : g.WellFormed) (e : ExternalEdge) :
    (g.addExternal e).WellFormed := by
  have hids : (g.addExternal e).nodeIds = g.nodeIds := by rw [nodeIds, addExternal_nodes, nodeIds]
  constructor
  · rw [hids]
    exact h.nodes_nodup
  · rw [addExternal_edges]
    exact h.edges_nodup
  · rw [addExternal_edges, hids]
    exact h.ends_known
  · rw [addExternal_externals]
    exact nodup_addByKey e h.externals_nodup
  · rw [addExternal_entries]
    exact h.entries_nodup
  · rw [addExternal_entries, hids]
    exact h.entries_known

/-- A bridge adds its call and changes no key. -/
theorem WellFormed.bridge {g : CallGraph} (h : g.WellFormed) (e : ExternalEdge) (handler : String) :
    (g.bridge e handler).WellFormed := by
  refine (h.addCall e.callerId handler ⟨.apiRequest, .direct, e.line, e.flags⟩).of_eq ?_ ?_ ?_ ?_
  · rw [bridge_nodes, addCall_nodes]
  · exact bridge_edges g e handler
  · rw [bridge_externals, addCall_externals, List.map_map]
    exact List.map_congr_left fun x _ => serve_key e.key handler x
  · rw [bridge_entries, addCall_entries]

/-- Only a known node is marked as an entry, and once. -/
theorem WellFormed.markEntry {g : CallGraph} (h : g.WellFormed) (id : String) :
    (g.markEntry id).WellFormed := by
  unfold CallGraph.markEntry
  split
  · next hadmits =>
    -- an admitted id is a node and not marked yet
    simp only [Bool.and_eq_true, Bool.not_eq_true', contains_iff] at hadmits
    have hnew : id ∉ g.entries := by simpa using hadmits.2
    refine ⟨h.nodes_nodup, h.edges_nodup, h.ends_known, h.externals_nodup, ?_, ?_⟩
    · rw [List.nodup_append]
      refine ⟨h.entries_nodup, by simp, ?_⟩
      intro a ha b hb
      obtain rfl : b = id := by simpa using hb
      rintro rfl
      exact hnew ha
    · intro x hx
      rcases List.mem_append.mp hx with hx | hx
      · exact h.entries_known x hx
      · obtain rfl : x = id := by simpa using hx
        exact hadmits.1
  · exact h

/-- **One edit keeps the invariant.** -/
theorem WellFormed.apply {g : CallGraph} (h : g.WellFormed) (edit : GraphEdit) :
    (edit.apply g).WellFormed := by
  cases edit with
  | file f => exact h.of_eq rfl rfl rfl rfl
  | declaration d => exact h.addDeclaration d
  | call source target data => exact h.addCall source target data
  | external e => exact h.addExternal e
  | bridge e handler => exact h.bridge e handler
  | entry id => exact h.markEntry id

/-- **Every run of edits keeps a graph well formed.** -/
theorem WellFormed.applyAll {g : CallGraph} (h : g.WellFormed) (edits : List GraphEdit) :
    (g.applyAll edits).WellFormed := by
  induction edits generalizing g with
  | nil => exact h
  | cons edit rest ih => exact ih (h.apply edit)

/-- **Every graph that edits can build is well-formed.** -/
theorem wellFormed_applyAll (edits : List GraphEdit) :
    (({} : CallGraph).applyAll edits).WellFormed :=
  wellFormed_empty.applyAll edits

/-! ## Queries on a well-formed graph -/

theorem exists_node?_of_mem {g : CallGraph} {id : String} (h : id ∈ g.nodeIds) :
    ∃ d, g.node? id = some d ∧ d.id = id := by
  obtain ⟨d, hd, rfl⟩ := List.mem_map.mp h
  obtain ⟨d', hd'⟩ : ∃ d', g.node? d.id = some d' :=
    exists_find?_eq_some ⟨d, hd, decide_eq_true rfl⟩
  exact ⟨d', hd', by simpa using List.find?_some hd'⟩

/-- A look-up by id finds a node exactly at its own id. -/
theorem node?_eq_some_iff {g : CallGraph} (hg : g.WellFormed) {id : String} {d : Declaration} :
    g.node? id = some d ↔ d ∈ g.nodes ∧ d.id = id := by
  constructor
  · intro h
    exact ⟨List.mem_of_find?_eq_some h, by simpa using List.find?_some h⟩
  · rintro ⟨hd, rfl⟩
    obtain ⟨d', hd', hid⟩ := exists_node?_of_mem (List.mem_map_of_mem hd : d.id ∈ g.nodeIds)
    rw [hd', List.inj_on_of_nodup_map hg.nodes_nodup (List.mem_of_find?_eq_some hd') hd hid]

/-- An id means its own node, whatever names there are. -/
theorem resolveTarget_of_node? {g : CallGraph} {id : String} {d : Declaration}
    (h : g.node? id = some d) : g.resolveTarget id = .ok d := by
  unfold resolveTarget
  rw [h]

/-- A query means a node or nothing. -/
theorem mem_nodes_of_resolveTarget {g : CallGraph} {query : String} {d : Declaration}
    (h : g.resolveTarget query = .ok d) : d ∈ g.nodes := by
  have hcandidates : ∀ x ∈ g.candidates query, x ∈ g.nodes := by
    intro x hx
    unfold candidates at hx
    split at hx
    · exact Order.mem_sortOn.mp (List.mem_filter.mp hx).1
    · exact Order.mem_sortOn.mp (List.mem_filter.mp hx).1
  unfold resolveTarget at h
  split at h
  · next hnode =>
    cases h
    exact List.mem_of_find?_eq_some hnode
  · split at h
    · cases h
    · next honly =>
      cases h
      exact hcandidates d (by rw [honly]; simp)
    · cases h

/-- Edges listed with the node at one of their ends: `pick` says which end. -/
theorem mem_filterMap_node? {g : CallGraph} (hg : g.WellFormed) {edges : List Edge}
    {pick : Edge → String} {d : Declaration} {data : EdgeData} :
    (d, data) ∈ edges.filterMap (fun e => (g.node? (pick e)).map (·, e.data)) ↔
      d ∈ g.nodes ∧ ∃ e ∈ edges, pick e = d.id ∧ e.data = data := by
  rw [List.mem_filterMap]
  constructor
  · rintro ⟨e, he, hnode⟩
    obtain ⟨d', hd', hpair⟩ := Option.map_eq_some_iff.mp hnode
    obtain ⟨rfl, rfl⟩ := Prod.mk.inj hpair
    obtain ⟨hmem, hid⟩ := (node?_eq_some_iff hg).mp hd'
    exact ⟨hmem, e, he, hid.symm, rfl⟩
  · rintro ⟨hd, e, he, hid, rfl⟩
    refine ⟨e, he, ?_⟩
    rw [hid, (node?_eq_some_iff hg).mpr ⟨hd, rfl⟩]
    rfl

/-- The incoming edges of an id are those that the graph holds. -/
theorem mem_callerEdges {g : CallGraph} (hg : g.WellFormed) {id : String} {d : Declaration}
    {data : EdgeData} :
    (d, data) ∈ g.callerEdges id ↔ d ∈ g.nodes ∧ ⟨d.id, id, data⟩ ∈ g.edges := by
  rw [callerEdges, Order.mem_sortOn, mem_filterMap_node? hg]
  refine and_congr_right fun _ => ⟨?_, fun he => ⟨_, List.mem_filter.mpr ⟨he, by simp⟩, rfl, rfl⟩⟩
  rintro ⟨e, hfilter, hsource, rfl⟩
  obtain ⟨he, htarget⟩ := List.mem_filter.mp hfilter
  rw [← hsource, ← of_decide_eq_true htarget]
  exact he

/-- The outgoing edges of an id are those that the graph holds. -/
theorem mem_calleeEdges {g : CallGraph} (hg : g.WellFormed) {id : String} {d : Declaration}
    {data : EdgeData} :
    (d, data) ∈ g.calleeEdges id ↔ d ∈ g.nodes ∧ ⟨id, d.id, data⟩ ∈ g.edges := by
  rw [calleeEdges, Order.mem_sortOn, mem_filterMap_node? hg]
  refine and_congr_right fun _ => ⟨?_, fun he => ⟨_, List.mem_filter.mpr ⟨he, by simp⟩, rfl, rfl⟩⟩
  rintro ⟨e, hfilter, htarget, rfl⟩
  obtain ⟨he, hsource⟩ := List.mem_filter.mp hfilter
  rw [← htarget, ← of_decide_eq_true hsource]
  exact he

/-- Every edge into an id is among its incoming edges, since its source is a node. -/
theorem exists_mem_callerEdges {g : CallGraph} (hg : g.WellFormed) {caller id : String}
    {data : EdgeData} (he : ⟨caller, id, data⟩ ∈ g.edges) :
    ∃ d, (d, data) ∈ g.callerEdges id ∧ d.id = caller := by
  obtain ⟨d, hd, hid⟩ := List.mem_map.mp (hg.ends_known _ he).1
  refine ⟨d, (mem_callerEdges hg).mpr ⟨hd, ?_⟩, hid⟩
  rw [hid]
  exact he

/-- Every edge out of an id is among its outgoing edges, since its target is a node. -/
theorem exists_mem_calleeEdges {g : CallGraph} (hg : g.WellFormed) {id callee : String}
    {data : EdgeData} (he : ⟨id, callee, data⟩ ∈ g.edges) :
    ∃ d, (d, data) ∈ g.calleeEdges id ∧ d.id = callee := by
  obtain ⟨d, hd, hid⟩ := List.mem_map.mp (hg.ends_known _ he).2
  refine ⟨d, (mem_calleeEdges hg).mpr ⟨hd, ?_⟩, hid⟩
  rw [hid]
  exact he

/-- Some edge leads from one id to another. -/
def Calls (g : CallGraph) (caller callee : String) : Prop :=
  ∃ data, ⟨caller, callee, data⟩ ∈ g.edges

/-- The callers that the graph lists are the nodes that call. -/
theorem mem_callerIds {g : CallGraph} (hg : g.WellFormed) {caller id : String} :
    caller ∈ g.callerIds id ↔ g.Calls caller id := by
  simp only [callerIds, callers, List.map_map, List.mem_map, Prod.exists,
    Function.comp_apply, Calls]
  constructor
  · rintro ⟨d, data, hmem, rfl⟩
    exact ⟨data, ((mem_callerEdges hg).mp hmem).2⟩
  · rintro ⟨data, he⟩
    obtain ⟨d, hmem, hid⟩ := exists_mem_callerEdges hg he
    exact ⟨d, data, hmem, hid⟩

/-! ## A small graph

Two functions that call each other, one that calls itself, and a page that catches the failures of
one call and not those of another. The walks over graphs are tried on it. -/

def sampleNode (id : String) : Declaration :=
  { id, name := id, kind := .function, exported := true, signature := "()", span := ⟨1, 9⟩,
    filePath := "m.ts" }

def sampleCall (source target : String) (line : Nat) (guarded : Bool) : GraphEdit :=
  .call source target ⟨.calls, .direct, line, { guarded }⟩

def sample : List GraphEdit :=
  (["save", "retry", "submit", "form", "page"].map fun id => .declaration (sampleNode id)) ++
    [sampleCall "save" "save" 2 false, sampleCall "retry" "save" 3 false,
      sampleCall "submit" "retry" 4 false, sampleCall "retry" "submit" 5 false,
        sampleCall "form" "submit" 6 true, sampleCall "page" "save" 7 true,
      sampleCall "page" "submit" 8 false,
      .external ⟨"submit", .database, "db.insert(drafts)",
        .database "db" .insert (some "drafts"), 4, {}, none⟩]

end CallGraph

end CallAtlas
