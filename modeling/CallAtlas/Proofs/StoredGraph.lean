import CallAtlas.Pipeline
import CallAtlas.Proofs.AssemblyExact
import CallAtlas.Proofs.GraphRepresentation

/-!
# Proofs.StoredGraph — the indexes of a stored graph are exact

A stored graph repeats itself: what its indexes say could be read off its nodes and its external
edges. Every edit keeps the two in step, so that the look-ups through the indexes answer as a search
would.

* `GraphStore.Exact` — the indexes list the nodes and keys that are there, and no others.
* `GraphStore.Exact.apply`, `GraphStore.graph_apply` — one edit keeps the indexes exact and does to
  the meaning what the corresponding edit of a graph does.
* `GraphStore.graph_assemble` — the stored graph of some files means the graph of these files.
* `GraphStore.applyAll_represents` — after any list of edits the indexes are exact, every query
  answers as on the meaning, and an edit that is refused changes nothing.
-/

namespace CallAtlas

variable {α : Type}

/-- A look-up after an insertion finds the new value under its key and the old values elsewhere. -/
theorem Index.get?_insert (x : Index α) (key other : String) (value : α) :
    (x.insert key value).get? other = if other = key then some value else x.get? other := by
  rw [get?, insert, List.lookup_cons, get?]
  by_cases h : other = key
  · simp [h]
  · simp [h, beq_false_of_ne h]

namespace GraphStore

variable {s : GraphStore}

/-! ## The invariant -/

/-- The meaning is well-formed, and the indexes say of it what is there. -/
structure Exact (s : GraphStore) : Prop where
  wellFormed : s.graph.WellFormed
  id_iff : ∀ id i, s.idIndex.get? id = some i ↔ ∃ d, s.nodes[i]? = some d ∧ d.id = id
  name_iff : ∀ name i, i ∈ s.positionsNamed name ↔ ∃ d, s.nodes[i]? = some d ∧ d.name = name
  name_ascending : ∀ name, (s.positionsNamed name).Pairwise (· < ·)
  links_known : ∀ l ∈ s.links, l.source < s.nodes.length ∧ l.target < s.nodes.length
  key_iff : ∀ key, key ∈ s.externalKeys ↔ key ∈ s.externals.map ExternalEdge.key

/-- The empty store is exact. -/
theorem exact_empty : ({} : GraphStore).Exact where
  wellFormed := CallGraph.wellFormed_empty
  id_iff _ _ := by simp [Index.get?]
  name_iff _ _ := by simp [positionsNamed, Index.get?]
  name_ascending _ := by simp [positionsNamed, Index.get?]
  links_known := List.forall_mem_nil _
  key_iff _ := by simp

namespace Exact

/-- The index knows an id exactly if a search of the nodes would find it. -/
theorem contains_eq (hs : s.Exact) (id : String) : s.contains id = s.graph.contains id := by
  rw [Bool.eq_iff_iff, contains, Option.isSome_iff_exists, CallGraph.contains_iff,
    CallGraph.nodeIds, List.mem_map]
  simp only [hs.id_iff, graph, List.mem_iff_getElem?]
  constructor
  · rintro ⟨i, d, hd, hid⟩
    exact ⟨d, ⟨i, hd⟩, hid⟩
  · rintro ⟨d, ⟨i, hd⟩, hid⟩
    exact ⟨i, d, hd, hid⟩

/-- Two ids with the same position are the same. -/
theorem id_unique (hs : s.Exact) {a b : String} {i : Nat} (ha : s.idIndex.get? a = some i)
    (hb : s.idIndex.get? b = some i) : a = b := by
  obtain ⟨d, hd, rfl⟩ := (hs.id_iff a i).mp ha
  obtain ⟨d', hd', rfl⟩ := (hs.id_iff b i).mp hb
  rw [Option.some.inj (hd.symm.trans hd')]

/-- No link is lost in the meaning: both of its positions carry ids. -/
theorem exists_edge? (hs : s.Exact) {l : Link} (hl : l ∈ s.links) :
    ∃ a b, s.idIndex.get? a = some l.source ∧ s.idIndex.get? b = some l.target ∧
      s.edge? l = some ⟨a, b, l.data⟩ := by
  obtain ⟨hsource, htarget⟩ := hs.links_known l hl
  refine ⟨s.nodes[l.source].id, s.nodes[l.target].id, ?_, ?_, ?_⟩
  · exact (hs.id_iff _ _).mpr ⟨_, List.getElem?_eq_getElem hsource, rfl⟩
  · exact (hs.id_iff _ _).mpr ⟨_, List.getElem?_eq_getElem htarget, rfl⟩
  · simp [edge?, hsource, htarget]

/-- Two positions are linked exactly if their ids are joined. -/
theorem connects_eq (hs : s.Exact) {source target : String} {a b : Nat}
    (ha : s.idIndex.get? source = some a) (hb : s.idIndex.get? target = some b) :
    (s.links.any fun l => l.source = a && l.target = b) = s.graph.connects source target := by
  rw [Bool.eq_iff_iff, CallGraph.connects_iff]
  simp only [List.any_eq_true, Bool.and_eq_true, decide_eq_true_eq, List.mem_map, graph,
    List.mem_filterMap, Edge.ends, Prod.mk.injEq]
  constructor
  · rintro ⟨l, hl, rfl, rfl⟩
    obtain ⟨x, y, hx, hy, hedge⟩ := hs.exists_edge? hl
    exact ⟨_, ⟨l, hl, hedge⟩, hs.id_unique hx ha, hs.id_unique hy hb⟩
  · rintro ⟨e, ⟨l, hl, hedge⟩, rfl, rfl⟩
    obtain ⟨x, y, hx, hy, hedge'⟩ := hs.exists_edge? hl
    obtain rfl := Option.some.inj (hedge.symm.trans hedge')
    exact ⟨l, hl, Option.some.inj (hx.symm.trans ha), Option.some.inj (hy.symm.trans hb)⟩

/-- The set of keys holds a key exactly if a search of the external edges would find it. -/
theorem hasExternal_eq (hs : s.Exact) (key : String × ExternalKind × String) :
    s.externalKeys.contains key = s.graph.hasExternal key := by
  rw [Bool.eq_iff_iff, List.contains_iff_mem, hs.key_iff]
  exact any_key_eq_true.symm

end Exact

/-! ## What one edit does to the meaning -/

theorem addDeclaration_of_some {d : Declaration} {i : Nat} (h : s.idIndex.get? d.id = some i) :
    s.addDeclaration d = (i, s) := by
  rw [addDeclaration, h]

theorem addDeclaration_of_none {d : Declaration} (h : s.idIndex.get? d.id = none) :
    s.addDeclaration d = (s.nodes.length, s.appendNode d) := by
  rw [addDeclaration, h]

/-- The new node comes last, so the links still find the nodes at their positions. -/
theorem graph_appendNode (hs : s.Exact) (d : Declaration) :
    (s.appendNode d).graph = { s.graph with nodes := s.graph.nodes ++ [d] } := by
  have hedges : s.links.filterMap (s.appendNode d).edge? = s.links.filterMap s.edge? := by
    refine List.filterMap_congr fun l hl => ?_
    obtain ⟨hsource, htarget⟩ := hs.links_known l hl
    simp only [edge?, appendNode, List.getElem?_append_left hsource,
      List.getElem?_append_left htarget]
  simp only [graph, CallGraph.mk.injEq]
  exact ⟨rfl, hedges, rfl, rfl, rfl⟩

/-- Adding a declaration to the store adds it to the graph it stands for. -/
theorem graph_addDeclaration (hs : s.Exact) (d : Declaration) :
    (s.addDeclaration d).2.graph = s.graph.addDeclaration d := by
  rw [CallGraph.addDeclaration, ← hs.contains_eq, contains]
  cases hknown : s.idIndex.get? d.id with
  | some i => rw [addDeclaration_of_some hknown, Option.isSome_some, if_pos rfl]
  | none =>
    rw [addDeclaration_of_none hknown, Option.isSome_none, if_neg Bool.false_ne_true]
    exact graph_appendNode hs d

/-- A call is added to the meaning, and reported, as a search of the graph would decide. -/
theorem graph_addCall (hs : s.Exact) (source target : String) (data : EdgeData) :
    (s.addCall source target data).1 = s.graph.admitsCall source target ∧
      (s.addCall source target data).2.graph = s.graph.addCall source target data := by
  have hsource := hs.contains_eq source
  have htarget := hs.contains_eq target
  rw [contains] at hsource htarget
  unfold CallGraph.addCall CallGraph.admitsCall addCall
  rw [← hsource, ← htarget]
  cases ha : s.idIndex.get? source with
  | none => exact ⟨rfl, rfl⟩
  | some a =>
    cases hb : s.idIndex.get? target with
    | none => exact ⟨rfl, rfl⟩
    | some b =>
      -- both ends have places, so the search among the links decides
      simp only [Option.isSome_some, Bool.true_and, hs.connects_eq ha hb]
      cases s.graph.connects source target with
      | true => exact ⟨rfl, rfl⟩
      | false =>
        obtain ⟨x, hx, rfl⟩ := (hs.id_iff source a).mp ha
        obtain ⟨y, hy, rfl⟩ := (hs.id_iff target b).mp hb
        have hedge : s.edge? ⟨a, b, data⟩ = some ⟨x.id, y.id, data⟩ := by simp [edge?, hx, hy]
        have hlinks : (s.links ++ [(⟨a, b, data⟩ : Link)]).filterMap s.edge? =
            s.links.filterMap s.edge? ++ [⟨x.id, y.id, data⟩] := by
          rw [List.filterMap_append, List.filterMap_cons_some hedge, List.filterMap_nil]
        refine ⟨rfl, ?_⟩
        simp only [Bool.false_eq_true, if_false, Bool.not_false, if_true]
        simp only [graph, CallGraph.mk.injEq, true_and, and_true]
        exact hlinks

/-- Adding an external edge to the store answers and does what it does to the graph. -/
theorem graph_addExternal (hs : s.Exact) (e : ExternalEdge) :
    (s.addExternal e).1 = s.graph.admitsExternal e ∧
      (s.addExternal e).2.graph = s.graph.addExternal e := by
  unfold addExternal CallGraph.addExternal CallGraph.admitsExternal
  rw [hs.hasExternal_eq]
  cases s.graph.hasExternal e.key with
  | true => exact ⟨rfl, rfl⟩
  | false => exact ⟨rfl, rfl⟩

/-- Marking an entry in the store marks it in the graph. -/
theorem graph_markEntry (hs : s.Exact) (id : String) :
    (s.markEntry id).graph = s.graph.markEntry id := by
  have hcontains := hs.contains_eq id
  rw [contains] at hcontains
  unfold markEntry CallGraph.markEntry
  rw [hcontains, show s.graph.entries = s.entries from rfl]
  split <;> rfl

/-! ## What one edit does to the indexes -/

/-- Only the nodes, the links, the two indexes and the keys matter, beside the meaning. -/
theorem Exact.of_eq {s' : GraphStore} (hs : s.Exact) (hmeaning : s'.graph.WellFormed)
    (hnodes : s'.nodes = s.nodes) (hids : s'.idIndex = s.idIndex)
    (hnames : s'.nameIndex = s.nameIndex)
    (hlinks : ∀ l ∈ s'.links, l.source < s.nodes.length ∧ l.target < s.nodes.length)
    (hkeys : ∀ key, key ∈ s'.externalKeys ↔ key ∈ s'.externals.map ExternalEdge.key) :
    s'.Exact := by
  have hpositions (name : String) : s'.positionsNamed name = s.positionsNamed name := by
    rw [positionsNamed, hnames, positionsNamed]
  constructor
  · exact hmeaning
  · rw [hids, hnodes]
    exact hs.id_iff
  · simp only [hpositions, hnodes]
    exact hs.name_iff
  · simp only [hpositions]
    exact hs.name_ascending
  · rw [hnodes]
    exact hlinks
  · exact hkeys

/-- A list with one more element at the end has that element at the last place. -/
theorem getElem?_append_singleton_iff {xs : List α} {x y : α} {i : Nat} :
    (xs ++ [x])[i]? = some y ↔ xs[i]? = some y ∨ i = xs.length ∧ x = y := by
  rcases Nat.lt_trichotomy i xs.length with hlt | rfl | hgt
  · simp [List.getElem?_append_left hlt, Nat.ne_of_lt hlt]
  · simp
  · have hle : xs.length ≤ i := Nat.le_of_lt hgt
    have hlen : (xs ++ [x]).length ≤ i := by
      rw [List.length_append, List.length_singleton]
      exact hgt
    simp [List.getElem?_eq_none hlen, List.getElem?_eq_none hle, Nat.ne_of_gt hgt]

/-- A new node is filed under its name, after the nodes that have the name already. -/
theorem positionsNamed_appendNode (s : GraphStore) (d : Declaration) (name : String) :
    (s.appendNode d).positionsNamed name =
      if name = d.name then s.positionsNamed d.name ++ [s.nodes.length]
      else s.positionsNamed name := by
  rw [positionsNamed, appendNode, Index.get?_insert]
  split <;> rfl

/-- The id index lists the old nodes and the new one, whose id no old node has. -/
theorem Exact.id_iff_appendNode (hs : s.Exact) {d : Declaration}
    (hnew : s.idIndex.get? d.id = none) (id : String) (i : Nat) :
    (s.appendNode d).idIndex.get? id = some i ↔
      ∃ x, (s.appendNode d).nodes[i]? = some x ∧ x.id = id := by
  simp only [appendNode, Index.get?_insert, getElem?_append_singleton_iff]
  -- the new id was free, so no earlier place holds it
  split
  · next heq =>
    subst heq
    constructor
    · intro hi
      exact ⟨d, Or.inr ⟨(Option.some.inj hi).symm, rfl⟩, rfl⟩
    · rintro ⟨x, hx | ⟨rfl, rfl⟩, hid⟩
      · exact absurd ((hs.id_iff _ i).mpr ⟨x, hx, hid⟩) (by simp [hnew])
      · rfl
  · next hne =>
    rw [hs.id_iff]
    constructor
    · rintro ⟨x, hx, hid⟩
      exact ⟨x, Or.inl hx, hid⟩
    · rintro ⟨x, hx | ⟨-, rfl⟩, hid⟩
      · exact ⟨x, hx, hid⟩
      · exact absurd hid.symm hne

/-- The name index lists the old nodes and the new one. -/
theorem Exact.name_iff_appendNode (hs : s.Exact) (d : Declaration) (name : String) (i : Nat) :
    i ∈ (s.appendNode d).positionsNamed name ↔
      ∃ x, (s.appendNode d).nodes[i]? = some x ∧ x.name = name := by
  rw [positionsNamed_appendNode]
  simp only [appendNode, getElem?_append_singleton_iff]
  -- only the list of the new name grows
  split
  · next heq =>
    subst heq
    rw [List.mem_append, hs.name_iff, List.mem_singleton]
    constructor
    · rintro (⟨x, hx, hname⟩ | rfl)
      · exact ⟨x, Or.inl hx, hname⟩
      · exact ⟨d, Or.inr ⟨rfl, rfl⟩, rfl⟩
    · rintro ⟨x, hx | ⟨rfl, rfl⟩, hname⟩
      · exact Or.inl ⟨x, hx, hname⟩
      · exact Or.inr rfl
  · next hne =>
    rw [hs.name_iff]
    constructor
    · rintro ⟨x, hx, hname⟩
      exact ⟨x, Or.inl hx, hname⟩
    · rintro ⟨x, hx | ⟨-, rfl⟩, hname⟩
      · exact ⟨x, hx, hname⟩
      · exact absurd hname.symm hne

/-- A new position is larger than all old ones. -/
theorem Exact.pairwise_positionsNamed_appendNode (hs : s.Exact) (d : Declaration) (name : String) :
    ((s.appendNode d).positionsNamed name).Pairwise (· < ·) := by
  rw [positionsNamed_appendNode]
  split
  · rw [List.pairwise_append]
    refine ⟨hs.name_ascending d.name, by simp, fun i hi j hj => ?_⟩
    obtain ⟨x, hx, -⟩ := (hs.name_iff d.name i).mp hi
    rw [List.mem_singleton.mp hj]
    exact (List.getElem?_eq_some_iff.mp hx).1
  · exact hs.name_ascending name

/-- Adding a declaration keeps both indexes in step with the nodes. -/
theorem Exact.addDeclaration (hs : s.Exact) (d : Declaration) : (s.addDeclaration d).2.Exact := by
  cases hknown : s.idIndex.get? d.id with
  | some i =>
    rw [addDeclaration_of_some hknown]
    exact hs
  | none =>
    have hmeaning : (s.addDeclaration d).2.graph.WellFormed := by
      rw [graph_addDeclaration hs]
      exact hs.wellFormed.addDeclaration d
    rw [addDeclaration_of_none hknown] at hmeaning ⊢
    refine ⟨hmeaning, hs.id_iff_appendNode hknown, hs.name_iff_appendNode d,
      hs.pairwise_positionsNamed_appendNode d, fun l hl => ?_, hs.key_iff⟩
    have hlength : (s.appendNode d).nodes.length = s.nodes.length + 1 := by simp [appendNode]
    obtain ⟨hsource, htarget⟩ := hs.links_known l hl
    rw [hlength]
    exact ⟨Nat.lt_succ_of_lt hsource, Nat.lt_succ_of_lt htarget⟩

/-- Adding a call keeps the store exact: its link joins two places that hold nodes. -/
theorem Exact.addCall (hs : s.Exact) (source target : String) (data : EdgeData) :
    (s.addCall source target data).2.Exact := by
  have hmeaning : (s.addCall source target data).2.graph.WellFormed := by
    rw [(graph_addCall hs source target data).2]
    exact hs.wellFormed.addCall source target data
  -- a place from the index is in range
  have hposition {id : String} {i : Nat} (hi : s.idIndex.get? id = some i) :
      i < s.nodes.length := by
    obtain ⟨d, hd, -⟩ := (hs.id_iff id i).mp hi
    exact (List.getElem?_eq_some_iff.mp hd).1
  revert hmeaning
  unfold GraphStore.addCall
  split
  · next a b ha hb =>
    split
    · exact fun _ => hs
    · intro hmeaning
      refine hs.of_eq hmeaning rfl rfl rfl (fun l hl => ?_) hs.key_iff
      rcases List.mem_append.mp hl with hl | hl
      · exact hs.links_known l hl
      · obtain rfl := List.mem_singleton.mp hl
        exact ⟨hposition ha, hposition hb⟩
  · exact fun _ => hs

/-- Adding an external edge keeps the key set in step with the edges. -/
theorem Exact.addExternal (hs : s.Exact) (e : ExternalEdge) : (s.addExternal e).2.Exact := by
  have hmeaning : (s.addExternal e).2.graph.WellFormed := by
    rw [(graph_addExternal hs e).2]
    exact hs.wellFormed.addExternal e
  revert hmeaning
  unfold GraphStore.addExternal
  split
  · exact fun _ => hs
  · intro hmeaning
    refine hs.of_eq hmeaning rfl rfl rfl hs.links_known fun key => ?_
    rw [List.mem_cons, hs.key_iff, List.map_append, List.mem_append, List.map_singleton,
      List.mem_singleton, or_comm]

theorem Exact.markEntry (hs : s.Exact) (id : String) : (s.markEntry id).Exact := by
  have hmeaning : (s.markEntry id).graph.WellFormed := by
    rw [graph_markEntry hs]
    exact hs.wellFormed.markEntry id
  revert hmeaning
  unfold GraphStore.markEntry
  split
  · exact fun hmeaning => hs.of_eq hmeaning rfl rfl rfl hs.links_known hs.key_iff
  · exact fun _ => hs

/-! ## Bridges -/

/-- Since keys are unique, the edge at a position is the only one that its key marks. -/
theorem Exact.set_eq_map_serve (hs : s.Exact) {position : Nat} {e : ExternalEdge}
    (he : s.externals[position]? = some e) (handler : String) :
    s.externals.set position { e with matchedHandler := some handler } =
      s.externals.map (CallGraph.serve e.key handler) := by
  obtain ⟨hlt, hget⟩ := List.getElem?_eq_some_iff.mp he
  have hnodup : (s.externals.map ExternalEdge.key).Nodup := hs.wellFormed.externals_nodup
  refine List.ext_getElem (by simp) fun i hi _ => ?_
  have hilt : i < s.externals.length := by simpa using hi
  rw [List.getElem_set, List.getElem_map]
  split
  · next heq =>
    subst heq
    rw [hget, CallGraph.serve, if_pos rfl]
  · next hne =>
    -- two edges with one key would be at one place
    have hkey : s.externals[i].key ≠ e.key := by
      intro hkey
      have hsame : (s.externals.map ExternalEdge.key)[position]? =
          (s.externals.map ExternalEdge.key)[i]? := by
        rw [List.getElem?_map, List.getElem?_map, he, List.getElem?_eq_getElem hilt,
          Option.map_some, Option.map_some, hkey]
      exact hne ((List.getElem?_inj (by simpa using hlt) hnodup).mp hsame)
    rw [CallGraph.serve, if_neg hkey]

/-- The external edge at a position, with its handler recorded. -/
def serveAt (s : GraphStore) (position : Nat) (e : ExternalEdge) (handler : String) : GraphStore :=
  { s with externals := s.externals.set position { e with matchedHandler := some handler } }

/-- Bridging an edge serves it in its place and then adds the call to the handler. -/
theorem bridge_of_some {position : Nat} {e : ExternalEdge} (he : s.externals[position]? = some e)
    (handler : String) :
    s.bridge position handler =
      ((s.serveAt position e handler).addCall e.callerId handler
        ⟨.apiRequest, .direct, e.line, e.flags⟩).2 := by
  rw [bridge, he]
  rfl

theorem bridge_of_none {position : Nat} (he : s.externals[position]? = none) (handler : String) :
    s.bridge position handler = s := by
  rw [bridge, he]

/-- Serving an edge in its place changes no key. -/
theorem Exact.serveAt (hs : s.Exact) {position : Nat} {e : ExternalEdge}
    (he : s.externals[position]? = some e) (handler : String) :
    (s.serveAt position e handler).Exact := by
  have hkeys : (s.serveAt position e handler).externals.map ExternalEdge.key =
      s.externals.map ExternalEdge.key := by
    rw [GraphStore.serveAt, hs.set_eq_map_serve he, List.map_map]
    exact List.map_congr_left fun x _ => CallGraph.serve_key e.key handler x
  refine hs.of_eq (hs.wellFormed.of_eq rfl rfl hkeys rfl) rfl rfl rfl hs.links_known fun key => ?_
  rw [hkeys]
  exact hs.key_iff key

/-- Bridging by place is bridging by key, since keys are distinct. -/
theorem graph_bridge (hs : s.Exact) {position : Nat} {e : ExternalEdge}
    (he : s.externals[position]? = some e) (handler : String) :
    (s.bridge position handler).graph = s.graph.bridge e handler := by
  have hmarked : (s.serveAt position e handler).graph =
      { s.graph with externals := s.graph.externals.map (CallGraph.serve e.key handler) } := by
    rw [serveAt, hs.set_eq_map_serve he]
    rfl
  rw [bridge_of_some he, (graph_addCall (hs.serveAt he handler) ..).2, hmarked]
  rfl

/-- Bridging keeps the store exact, whether or not there is an edge at the place. -/
theorem Exact.bridge (hs : s.Exact) (position : Nat) (handler : String) :
    (s.bridge position handler).Exact := by
  cases he : s.externals[position]? with
  | none =>
    rw [bridge_of_none he]
    exact hs
  | some e =>
    rw [bridge_of_some he]
    exact (hs.serveAt he handler).addCall ..

theorem Exact.addFile (hs : s.Exact) (f : FileSummary) : (s.addFile f).Exact :=
  hs.of_eq (hs.wellFormed.of_eq rfl rfl rfl rfl) rfl rfl rfl hs.links_known hs.key_iff

end GraphStore

/-! ## Runs of edits -/

/-- What an edit of a stored graph is on its meaning. A bridge at no position is nothing. -/
def StoreEdit.seen (s : GraphStore) : StoreEdit → List GraphEdit
  | .file f => [.file f]
  | .declaration d => [.declaration d]
  | .call source target data => [.call source target data]
  | .external e => [.external e]
  | .bridge position handler => s.externals[position]?.toList.map (.bridge · handler)
  | .entry id => [.entry id]

namespace GraphStore

variable {s : GraphStore}

/-- **One edit keeps the indexes exact.** -/
theorem Exact.apply (hs : s.Exact) (edit : StoreEdit) : (edit.apply s).Exact := by
  cases edit with
  | file f => exact hs.addFile f
  | declaration d => exact hs.addDeclaration d
  | call source target data => exact hs.addCall source target data
  | external e => exact hs.addExternal e
  | bridge position handler => exact hs.bridge position handler
  | entry id => exact hs.markEntry id

/-- **One edit does to the meaning what it is seen as.** -/
theorem graph_apply (hs : s.Exact) (edit : StoreEdit) :
    (edit.apply s).graph = s.graph.applyAll (edit.seen s) := by
  cases edit with
  | file f => rfl
  | declaration d => exact graph_addDeclaration hs d
  | call source target data => exact (graph_addCall hs source target data).2
  | external e => exact (graph_addExternal hs e).2
  | bridge position handler =>
    cases he : s.externals[position]? with
    | none =>
      rw [StoreEdit.apply, bridge_of_none he, StoreEdit.seen, he]
      rfl
    | some e =>
      rw [StoreEdit.apply, graph_bridge hs he, StoreEdit.seen, he]
      rfl
  | entry id => exact graph_markEntry hs id

/-- **Every run of edits keeps the store exact.** -/
theorem Exact.applyAll (hs : s.Exact) (edits : List StoreEdit) : (s.applyAll edits).Exact := by
  induction edits generalizing s with
  | nil => exact hs
  | cons edit rest ih => exact ih (hs.apply edit)

/-- What a run of edits of a stored graph is on its meaning. -/
def seenAll (s : GraphStore) : List StoreEdit → List GraphEdit
  | [] => []
  | edit :: rest => edit.seen s ++ seenAll (edit.apply s) rest

/-- **A stored graph and its meaning stay in step.** -/
theorem graph_applyAll (hs : s.Exact) (edits : List StoreEdit) :
    (s.applyAll edits).graph = s.graph.applyAll (s.seenAll edits) := by
  induction edits generalizing s with
  | nil => rfl
  | cons edit rest ih =>
    rw [seenAll, CallGraph.applyAll_append, ← graph_apply hs]
    exact ih (hs.apply edit)

/-! ## The edits of a graph on its stored form -/

/-- Two external edges differ at most in the handler that was recorded. -/
structure SameRequest (x y : ExternalEdge) : Prop where
  key : x.key = y.key
  line : x.line = y.line
  flags : x.flags = y.flags

theorem SameRequest.trans {x y z : ExternalEdge} (h : SameRequest x y) (h' : SameRequest y z) :
    SameRequest x z :=
  ⟨h.key.trans h'.key, h.line.trans h'.line, h.flags.trans h'.flags⟩

/-- Bridging looks at the request of an edge, not at whether it is served. -/
theorem bridge_congr (g : CallGraph) {x y : ExternalEdge} (h : SameRequest x y) (handler : String) :
    g.bridge x handler = g.bridge y handler := by
  have hcaller : x.callerId = y.callerId := congrArg Prod.fst h.key
  simp only [CallGraph.bridge, h.key, h.line, h.flags, hcaller]

/-- No edit drops an external edge or changes more of it than its handler. -/
theorem exists_sameRequest_apply (g : CallGraph) (edit : GraphEdit) {x : ExternalEdge}
    (hx : x ∈ g.externals) : ∃ y ∈ (edit.apply g).externals, SameRequest y x := by
  have hself : SameRequest x x := ⟨rfl, rfl, rfl⟩
  -- only bridging changes an edge that is there, and it keeps the request
  cases edit with
  | file f => exact ⟨x, hx, hself⟩
  | declaration d => exact ⟨x, (CallGraph.addDeclaration_externals g d).symm ▸ hx, hself⟩
  | call source target data =>
    exact ⟨x, (CallGraph.addCall_externals g source target data).symm ▸ hx, hself⟩
  | external e =>
    refine ⟨x, ?_, hself⟩
    rw [GraphEdit.apply, CallGraph.addExternal_externals]
    exact mem_addByKey.mpr (Or.inl hx)
  | bridge e handler =>
    refine ⟨CallGraph.serve e.key handler x, ?_, CallGraph.serve_key e.key handler x, ?_, ?_⟩
    · rw [GraphEdit.apply, CallGraph.bridge_externals]
      exact List.mem_map_of_mem hx
    · unfold CallGraph.serve
      split <;> rfl
    · unfold CallGraph.serve
      split <;> rfl
  | entry id => exact ⟨x, (CallGraph.markEntry_externals g id).symm ▸ hx, hself⟩

/-- An edit of a graph on its stored form does to the meaning what it does to a graph, as long as
the edge of a bridge is there. -/
theorem graph_ofEdit (hs : s.Exact) (edit : GraphEdit)
    (hheld : ∀ e handler, edit = .bridge e handler → ∃ x ∈ s.externals, SameRequest x e) :
    ((StoreEdit.ofEdit s edit).apply s).graph = edit.apply s.graph := by
  cases edit with
  | file f => rfl
  | declaration d => exact graph_addDeclaration hs d
  | call source target data => exact (graph_addCall hs source target data).2
  | external e => exact (graph_addExternal hs e).2
  | bridge e handler =>
    obtain ⟨x, hx, hsame⟩ := hheld e handler rfl
    -- the first edge with the key is the one that is held, since keys are unique
    have hlt : s.externals.findIdx (fun y => decide (y.key = e.key)) < s.externals.length :=
      List.findIdx_lt_length.mpr ⟨x, hx, decide_eq_true hsame.key⟩
    have hkey := of_decide_eq_true (List.findIdx_getElem (w := hlt))
    have hfound : s.externals[s.externals.findIdx fun y => decide (y.key = e.key)] = x :=
      List.inj_on_of_nodup_map hs.wellFormed.externals_nodup (List.getElem_mem hlt) hx
        (hkey.trans hsame.key.symm)
    have hget := (List.getElem?_eq_getElem hlt).trans (congrArg some hfound)
    rw [StoreEdit.ofEdit, StoreEdit.apply, graph_bridge hs hget, bridge_congr _ hsame]
    rfl
  | entry id => exact graph_markEntry hs id

/-- **A run of edits of a graph on its stored form.** -/
theorem graph_replay (hs : s.Exact) {edits : List GraphEdit}
    (hheld : ∀ e handler, .bridge e handler ∈ edits → ∃ x ∈ s.externals, SameRequest x e) :
    (s.replay edits).Exact ∧ (s.replay edits).graph = s.graph.applyAll edits := by
  induction edits generalizing s with
  | nil => exact ⟨hs, rfl⟩
  | cons edit rest ih =>
    have hstep : ((StoreEdit.ofEdit s edit).apply s).graph = edit.apply s.graph :=
      graph_ofEdit hs edit fun e handler heq => hheld e handler (heq ▸ List.mem_cons_self)
    rw [CallGraph.applyAll_cons, ← hstep]
    refine ih (hs.apply _) fun e handler he => ?_
    obtain ⟨x, hx, hsame⟩ := hheld e handler (List.mem_cons_of_mem _ he)
    obtain ⟨y, hy, hsame'⟩ := exists_sameRequest_apply s.graph edit hx
    exact ⟨y, by rw [← hstep] at hy; exact hy, hsame'.trans hsame⟩

/-- A run without bridges needs no edge to be there. -/
theorem graph_replay_of_plain (hs : s.Exact) {edits : List GraphEdit}
    (hplain : ∀ edit ∈ edits, edit.isBridge = false) :
    (s.replay edits).Exact ∧ (s.replay edits).graph = s.graph.applyAll edits :=
  graph_replay hs fun _ _ he => absurd (hplain _ he) (by simp [GraphEdit.isBridge])

/-- A request is bridged only if the graph holds it. -/
theorem held_of_mem_bridgeEdits {r : Registry} {e : ExternalEdge} {handler : String}
    (h : .bridge e handler ∈ CallGraph.bridgeEdits r s.graph) :
    ∃ x ∈ s.externals, SameRequest x e := by
  rw [CallGraph.bridgeEdits_eq] at h
  obtain ⟨x, hx, hedit⟩ := List.mem_filterMap.mp h
  obtain ⟨id, -, hedit⟩ := Option.map_eq_some_iff.mp hedit
  obtain ⟨rfl, -⟩ := GraphEdit.bridge.inj hedit
  exact ⟨x, hx, rfl, rfl, rfl⟩

/-- **The stored graph of some files means the graph of these files.** -/
theorem graph_assemble (files : List FileAnalysis) :
    (assemble files).graph = CallGraph.assemble files := by
  let r := Registry.build files
  have hcalls : ∀ edit ∈ CallGraph.declarationEdits r.files ++ CallGraph.callEdits r,
      edit.isBridge = false := by
    intro edit he
    rcases List.mem_append.mp he with he | he
    · exact (CallGraph.declarationEdits_plain r.files edit he).2.2
    · rcases Registry.mem_callEdits_cases he with ⟨source, target, data, rfl⟩ | ⟨e, rfl⟩
      · rfl
      · rfl
  obtain ⟨hcalled, hmeaning⟩ := graph_replay_of_plain exact_empty hcalls
  obtain ⟨hbridged, hmeaning'⟩ := graph_replay hcalled fun _ _ => held_of_mem_bridgeEdits (r := r)
  obtain ⟨-, hmeaning''⟩ := graph_replay_of_plain hbridged
    fun edit he => (CallGraph.entryEdits_plain _ edit he).2.2
  refine hmeaning''.trans ?_
  rw [hmeaning', hmeaning]
  rfl

/-- The graph that a run gives out is that of its files. -/
theorem graph_run (p : Pipeline) (files : List SourceFile) :
    (p.run files).graph = CallGraph.assemble (p.analyze files).analyses :=
  graph_assemble _

/-! ## Queries -/

/-- The queries through the indexes answer as those on the meaning do. -/
structure Answers (s : GraphStore) : Prop where
  index : ∀ id, s.idIndex.get? id = s.graph.index? id
  node : ∀ id, s.node? id = s.graph.node? id
  contains : ∀ id, s.contains id = s.graph.contains id
  findByName : ∀ name, s.findByName name = s.graph.findByName name
  callers : ∀ id, s.callers id = s.graph.callers id
  callees : ∀ id, s.callees id = s.graph.callees id
  fanIn : ∀ id, s.fanIn id = s.graph.fanIn id
  fanOut : ∀ id, s.fanOut id = s.graph.fanOut id
  stats : s.stats = s.graph.stats

/-- The id index finds the place that a scan would find. -/
theorem Exact.index?_eq (hs : s.Exact) (id : String) : s.idIndex.get? id = s.graph.index? id := by
  refine Option.ext fun i => ?_
  rw [hs.id_iff, CallGraph.index?_eq_some_iff hs.wellFormed, CallGraph.nodeIds, List.getElem?_map,
    Option.map_eq_some_iff]
  rfl

/-- Looking up by the index finds the node that a scan would find. -/
theorem Exact.node?_eq (hs : s.Exact) (id : String) : s.node? id = s.graph.node? id := by
  refine Option.ext fun d => ?_
  rw [CallGraph.node?_eq_some_iff hs.wellFormed, node?, Option.bind_eq_some_iff]
  -- a place that the index gives holds the id, and the place of a node is indexed
  constructor
  · rintro ⟨i, hi, hd⟩
    obtain ⟨d', hd', hid⟩ := (hs.id_iff id i).mp hi
    obtain rfl := Option.some.inj (hd.symm.trans hd')
    exact ⟨List.mem_of_getElem? hd, hid⟩
  · rintro ⟨hd, hid⟩
    obtain ⟨i, hi⟩ := List.mem_iff_getElem?.mp hd
    exact ⟨i, (hs.id_iff id i).mpr ⟨d, hi, hid⟩, hi⟩

/-- The nodes at the listed positions are those with the name. -/
theorem Exact.perm_filterMap_positionsNamed (hs : s.Exact) (name : String) :
    ((s.positionsNamed name).filterMap (s.nodes[·]?)).Perm (s.nodes.filter (·.name = name)) := by
  have hnodes : s.nodes.Nodup := List.Nodup.of_map _ hs.wellFormed.nodes_nodup
  have hpositions : (s.positionsNamed name).Nodup := (hs.name_ascending name).imp Nat.ne_of_lt
  refine (List.perm_ext_iff_of_nodup (hpositions.filterMap fun i j d hi hj => ?_)
    (hnodes.filter _)).mpr fun d => ?_
  · obtain ⟨hlt, -⟩ := List.getElem?_eq_some_iff.mp hi
    exact (List.getElem?_inj hlt hnodes).mp (hi.trans hj.symm)
  · rw [List.mem_filterMap, List.mem_filter, decide_eq_true_eq]
    constructor
    · rintro ⟨i, hi, hd⟩
      obtain ⟨d', hd', hname⟩ := (hs.name_iff name i).mp hi
      obtain rfl := Option.some.inj (hd.symm.trans hd')
      exact ⟨List.mem_of_getElem? hd, hname⟩
    · rintro ⟨hd, hname⟩
      obtain ⟨i, hi⟩ := List.mem_iff_getElem?.mp hd
      exact ⟨i, (hs.name_iff name i).mpr ⟨d, hi, hname⟩, hi⟩

/-- Sorted by ids that increase, a list of declarations is determined. -/
theorem sortOn_id_eq {found expected : List Declaration} (hperm : found.Perm expected)
    (hsorted : (expected.map (·.id)).Pairwise (· < ·)) :
    Order.sortOn Order.text (·.id) found = expected := by
  have hnodup : (expected.map (·.id)).Nodup := hsorted.imp ne_of_lt
  refine (Order.sortOn_eq_of_perm Order.text_linear _ hperm
    ((hperm.map _).nodup_iff.mpr hnodup)).trans ?_
  refine List.mergeSort_of_pairwise ?_
  exact (List.pairwise_map.mp hsorted).imp fun h => by simpa [Order.text] using le_of_lt h

/-- Looking up by the name index finds what a filter over all declarations would find. -/
theorem Exact.findByName_eq (hs : s.Exact) (name : String) :
    s.findByName name = s.graph.findByName name := by
  refine sortOn_id_eq ((hs.perm_filterMap_positionsNamed name).trans ?_)
    (CallGraph.pairwise_findByName hs.wellFormed name)
  exact ((Order.perm_sortOn _ _ _).filter _).symm

/-- A list with strictly ascending ids has no repeats to drop. -/
theorem dropRepeats_eq {ds : List Declaration} (h : (ds.map (·.id)).Pairwise (· < ·)) :
    dropRepeats ds = ds := by
  induction ds with
  | nil => rfl
  | cons d rest ih =>
    obtain ⟨hhead, htail⟩ := List.pairwise_cons.mp h
    rw [dropRepeats, ih htail]
    cases rest with
    | nil => rfl
    | cons next later =>
      have hne : d.id ≠ next.id := ne_of_lt (hhead _ List.mem_cons_self)
      simp [hne]

/-- How the two ends of a link appear in the meaning. -/
structure Ends (s : GraphStore) (here there : Link → Nat)
    (here' there' : Edge → String) : Prop where
  here_eq : ∀ l e, s.edge? l = some e → s.idIndex.get? (here' e) = some (here l)
  there_eq : ∀ l e, s.edge? l = some e → s.nodes[there l]? = s.graph.node? (there' e)

/-- The places of a link and the ids of its edge name the same nodes, at either end. -/
theorem Exact.ends (hs : s.Exact) :
    s.Ends Link.source Link.target Edge.source Edge.target ∧
      s.Ends Link.target Link.source Edge.target Edge.source := by
  have hends (l : Link) (e : Edge) (h : s.edge? l = some e) :
      (s.idIndex.get? e.source = some l.source ∧ s.nodes[l.source]? = s.graph.node? e.source) ∧
        s.idIndex.get? e.target = some l.target ∧ s.nodes[l.target]? = s.graph.node? e.target := by
    simp only [edge?, Option.bind_eq_bind, Option.bind_eq_some_iff] at h
    obtain ⟨a, ha, b, hb, hedge⟩ := h
    obtain rfl := Option.some.inj hedge
    have hsource := (hs.id_iff a.id l.source).mpr ⟨a, ha, rfl⟩
    have htarget := (hs.id_iff b.id l.target).mpr ⟨b, hb, rfl⟩
    refine ⟨⟨hsource, ?_⟩, htarget, ?_⟩
    · rw [← hs.node?_eq, node?, hsource, Option.bind_some]
    · rw [← hs.node?_eq, node?, htarget, Option.bind_some]
  exact ⟨⟨fun l e h => (hends l e h).1.1, fun l e h => (hends l e h).2.2⟩,
    ⟨fun l e h => (hends l e h).2.1, fun l e h => (hends l e h).1.2⟩⟩

/-- The links of one node, followed to their other ends, are its edges followed to theirs. -/
theorem Exact.filterMap_links (hs : s.Exact) {here there : Link → Nat}
    {here' there' : Edge → String} (hends : s.Ends here there here' there') {id : String} {i : Nat}
    (hid : s.idIndex.get? id = some i) {links : List Link} (hlinks : ∀ l ∈ links, l ∈ s.links) :
    (links.filter (here · = i)).filterMap (s.nodes[there ·]?) =
      (((links.filterMap s.edge?).filter (here' · = id)).filterMap fun e =>
        (s.graph.node? (there' e)).map (·, e.data)).map (·.1) := by
  induction links with
  | nil => rfl
  | cons l rest ih =>
    obtain ⟨a, b, -, -, hedge⟩ := hs.exists_edge? (hlinks l List.mem_cons_self)
    have hhere := hends.here_eq l _ hedge
    have hthere := hends.there_eq l _ hedge
    -- the place in the link and the id in the edge single out the same node
    have hsame : here l = i ↔ here' ⟨a, b, l.data⟩ = id := by
      constructor
      · rintro rfl
        exact hs.id_unique hhere hid
      · rintro rfl
        exact Option.some.inj (hhere.symm.trans hid)
    rw [List.filterMap_cons_some hedge]
    have hrest := ih fun l' hl' => hlinks l' (List.mem_cons_of_mem l hl')
    by_cases heq : here l = i
    · rw [List.filter_cons_of_pos (by simpa using heq),
        List.filter_cons_of_pos (by simpa using hsame.mp heq), List.filterMap_cons, hthere,
        List.filterMap_cons, hrest]
      cases s.graph.node? (there' ⟨a, b, l.data⟩) <;> rfl
    · rw [List.filter_cons_of_neg (by simpa using heq),
        List.filter_cons_of_neg (by simpa using mt hsame.mpr heq), hrest]

/-- Neighbours are found as soon as they are listed in the order of their ids. -/
theorem Exact.neighbours_eq (hs : s.Exact) {here there : Link → Nat} {here' there' : Edge → String}
    (hends : s.Ends here there here' there') {id : String} {expected : List Declaration}
    (hperm : (((s.graph.edges.filter (here' · = id)).filterMap fun e =>
      (s.graph.node? (there' e)).map (·, e.data)).map (·.1)).Perm expected)
    (hsorted : (expected.map (·.id)).Pairwise (· < ·)) : s.neighbours here there id = expected := by
  unfold neighbours
  cases hid : s.idIndex.get? id with
  | some i =>
    have hfound : ((s.links.filter (here · = i)).filterMap (s.nodes[there ·]?)).Perm expected := by
      rw [hs.filterMap_links hends hid fun l hl => hl]
      exact hperm
    exact (congrArg dropRepeats (sortOn_id_eq hfound hsorted)).trans (dropRepeats_eq hsorted)
  | none =>
    -- no edge has an end that is unknown
    have hnone : s.graph.edges.filter (here' · = id) = [] := by
      refine List.filter_eq_nil_iff.mpr fun e he hsame => ?_
      obtain ⟨l, -, hedge⟩ := List.mem_filterMap.mp he
      have hhere := hends.here_eq l e hedge
      rw [of_decide_eq_true hsame, hid] at hhere
      cases hhere
    rw [hnone] at hperm
    exact hperm.nil_eq

/-- The callers found through links are those found through edges. -/
theorem Exact.callers_eq (hs : s.Exact) (id : String) : s.callers id = s.graph.callers id := by
  refine hs.neighbours_eq hs.ends.2 ?_ (CallGraph.pairwise_callerIds hs.wellFormed id)
  exact ((Order.perm_sortOn _ _ _).map _).symm

/-- The callees found through links are those found through edges. -/
theorem Exact.callees_eq (hs : s.Exact) (id : String) : s.callees id = s.graph.callees id := by
  refine hs.neighbours_eq hs.ends.1 ?_ (CallGraph.pairwise_calleeIds hs.wellFormed id)
  exact (((Order.perm_sortOn _ _ _).map _).symm).trans (Order.perm_sortOn _ _ _).symm

/-- The links are counted by their data as the edges are. -/
theorem Exact.countP_links (hs : s.Exact) (p : EdgeData → Bool) :
    s.links.countP (fun l => p l.data) = s.graph.edges.countP fun e => p e.data := by
  rw [show s.graph.edges = s.links.filterMap s.edge? from rfl, List.countP_filterMap]
  refine List.countP_congr fun l hl => ?_
  obtain ⟨a, b, -, -, hedge⟩ := hs.exists_edge? hl
  simp [hedge]

/-- Counting links is counting edges. -/
theorem Exact.stats_eq (hs : s.Exact) : s.stats = s.graph.stats := by
  simp only [stats, CallGraph.stats, GraphStats.mk.injEq]
  exact ⟨rfl, rfl, hs.countP_links (·.kind = .calls), hs.countP_links (·.kind = .apiRequest), rfl,
    rfl, rfl, rfl⟩

theorem Exact.answers (hs : s.Exact) : s.Answers where
  index := hs.index?_eq
  node := hs.node?_eq
  contains := hs.contains_eq
  findByName := hs.findByName_eq
  callers := hs.callers_eq
  callees := hs.callees_eq
  fanIn id := congrArg List.length (hs.callers_eq id)
  fanOut id := congrArg List.length (hs.callees_eq id)
  stats := hs.stats_eq

/-! ## Refused edits -/

/-- A call that is refused leaves the store as it was, and only then. -/
theorem addCall_eq_self_iff (hs : s.Exact) (source target : String) (data : EdgeData) :
    (s.addCall source target data).2 = s ↔ (s.addCall source target data).1 = false := by
  obtain ⟨hadmits, hmeaning⟩ := graph_addCall hs source target data
  constructor
  · intro hself
    rw [hadmits, ← CallGraph.addCall_eq_self_iff data, ← hmeaning, hself]
  · unfold addCall
    split
    · split
      · exact fun _ => rfl
      · exact fun h => absurd h (by simp)
    · exact fun _ => rfl

/-- An external edge that is refused leaves the store as it was, and only then. -/
theorem addExternal_eq_self_iff (hs : s.Exact) (e : ExternalEdge) :
    (s.addExternal e).2 = s ↔ (s.addExternal e).1 = false := by
  obtain ⟨hadmits, hmeaning⟩ := graph_addExternal hs e
  constructor
  · intro hself
    rw [hadmits, ← CallGraph.addExternal_eq_self_iff, ← hmeaning, hself]
  · unfold addExternal
    split
    · exact fun _ => rfl
    · exact fun h => absurd h (by simp)

/-- A known declaration leaves the store as it was, and only a known one does. -/
theorem addDeclaration_eq_self_iff (hs : s.Exact) (d : Declaration) :
    (s.addDeclaration d).2 = s ↔ s.contains d.id = true := by
  constructor
  · intro hself
    rw [hs.contains_eq, ← CallGraph.addDeclaration_eq_self_iff, ← graph_addDeclaration hs, hself]
  · intro hknown
    obtain ⟨i, hi⟩ := Option.isSome_iff_exists.mp hknown
    rw [addDeclaration_of_some hi]

/-- The position that is given back is that of the id. -/
theorem exists_node_addDeclaration (hs : s.Exact) (d : Declaration) :
    ∃ x, (s.addDeclaration d).2.nodes[(s.addDeclaration d).1]? = some x ∧ x.id = d.id := by
  cases hknown : s.idIndex.get? d.id with
  | some i =>
    rw [addDeclaration_of_some hknown]
    exact (hs.id_iff d.id i).mp hknown
  | none =>
    rw [addDeclaration_of_none hknown]
    exact ⟨d, by simp [appendNode], rfl⟩

/-! ## The result -/

/-- **The representation invariant.** After any list of edits of the empty store: ids, ends of edges
and external keys are unique, and the ends of edges and the entries are nodes; the id index and the
name index list exactly the nodes with that id or name, and the key set exactly the keys of the
external edges. The store means the graph that the same edits build without indexes, and its queries
answer as on that graph, where callers and callees are converse to each other, degrees count edges,
and summed over all nodes they give the number of edges in the statistics, in either direction. A
call is taken exactly if its ends are nodes that no edge joins yet, and an external edge if its key
is free; a declaration is given back the position of its id. An edit that is not taken, and a
declaration with a known id, leave the store as it is. -/
theorem applyAll_represents (edits : List StoreEdit) :
    let s := ({} : GraphStore).applyAll edits
    let g := s.graph
    s.Exact ∧ g = ({} : CallGraph).applyAll (({} : GraphStore).seenAll edits) ∧
      s.Answers ∧ g.Indexed ∧ g.Balanced ∧
      (∀ source target data, (s.addCall source target data).1 = true ↔
        source ∈ g.nodeIds ∧ target ∈ g.nodeIds ∧ ¬ g.Calls source target) ∧
      (∀ source target data,
        (s.addCall source target data).2 = s ↔ (s.addCall source target data).1 = false) ∧
      (∀ e, (s.addExternal e).1 = true ↔ e.key ∉ s.externals.map ExternalEdge.key) ∧
      (∀ e, (s.addExternal e).2 = s ↔ (s.addExternal e).1 = false) ∧
      (∀ d, (s.addDeclaration d).2 = s ↔ s.contains d.id = true) ∧
      (∀ d, ∃ x, (s.addDeclaration d).2.nodes[(s.addDeclaration d).1]? = some x ∧ x.id = d.id) := by
  intro s g
  -- everything is a property of exact stores, and the edits start from the empty one
  have hs : s.Exact := exact_empty.applyAll edits
  have hg : g.WellFormed := hs.wellFormed
  refine ⟨hs, graph_applyAll exact_empty edits, hs.answers, hg.indexed, hg.balanced,
    fun source target data => ?_, addCall_eq_self_iff hs, fun e => ?_, addExternal_eq_self_iff hs,
    addDeclaration_eq_self_iff hs, exists_node_addDeclaration hs⟩
  · rw [(graph_addCall hs source target data).1, CallGraph.admitsCall_iff]
  · rw [(graph_addExternal hs e).1, CallGraph.admitsExternal, Bool.not_eq_true', Bool.eq_false_iff,
      ne_eq, hg.indexed.external_iff]
    rfl

end GraphStore

end CallAtlas
