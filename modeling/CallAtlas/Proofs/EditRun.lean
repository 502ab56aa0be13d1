import CallAtlas.Proofs.GraphInvariant

/-!
# Proofs.EditRun — what a run of edits adds to a graph

Of each edit it is said once which node, edge or external edge it stands for; the lists of a graph
after a run are then those of the graph before it, with what the edits stand for added by key.

* `mem_nodeIds_applyAll`, `nodes_applyAll` — the nodes are the old ones and the declared ones.
* `edges_applyAll` — the edges, as long as their ends are nodes.
* `externals_applyAll` — the external edges, as long as no edit is a bridge. A bridge changes
  external edges that are there already.
* `mem_entries_applyAll` — an entry is an old one or marked by an edit.
-/

namespace CallAtlas

/-! ## What an edit stands for -/

namespace GraphEdit

/-- The declaration that an edit adds if its id is free. -/
def declaration? : GraphEdit → Option Declaration
  | declaration d => some d
  | file _ | call .. | external _ | bridge .. | entry _ => none

/-- The edge that an edit adds if its ends are free. -/
def edge? : GraphEdit → Option Edge
  | call source target data => some ⟨source, target, data⟩
  | bridge e handler => some ⟨e.callerId, handler, ⟨.apiRequest, .direct, e.line, e.flags⟩⟩
  | file _ | declaration _ | external _ | entry _ => none

/-- The external edge that an edit adds if its key is free. -/
def external? : GraphEdit → Option ExternalEdge
  | external e => some e
  | file _ | declaration _ | call .. | bridge .. | entry _ => none

/-- The id that an edit marks if it is a node. -/
def entry? : GraphEdit → Option String
  | entry id => some id
  | file _ | declaration _ | call .. | external _ | bridge .. => none

def isBridge : GraphEdit → Bool
  | bridge .. => true
  | file _ | declaration _ | call .. | external _ | entry _ => false

end GraphEdit

namespace CallGraph

variable {g : CallGraph} {edit : GraphEdit} {edits : List GraphEdit}

/-! ## Nodes -/

theorem applyAll_append (g : CallGraph) (first second : List GraphEdit) :
    g.applyAll (first ++ second) = (g.applyAll first).applyAll second :=
  List.foldl_append

theorem applyAll_cons (g : CallGraph) (edit : GraphEdit) (rest : List GraphEdit) :
    g.applyAll (edit :: rest) = (edit.apply g).applyAll rest :=
  rfl

/-- Only a declaration adds an id to the nodes, and no edit takes one away. -/
theorem mem_nodeIds_apply {id : String} :
    id ∈ (edit.apply g).nodeIds ↔ id ∈ g.nodeIds ∨ ∃ d, edit = .declaration d ∧ d.id = id := by
  cases edit with
  | declaration d =>
    rw [GraphEdit.apply, nodeIds, addDeclaration_nodes, map_key_addByKey]
    simp [nodeIds, eq_comm]
  | file f => simp [GraphEdit.apply, nodeIds, addFile]
  | call source target data => simp [GraphEdit.apply, nodeIds]
  | external e => simp [GraphEdit.apply, nodeIds]
  | bridge e handler => simp [GraphEdit.apply, nodeIds]
  | entry id => simp [GraphEdit.apply, nodeIds]

/-- The ids after a run are the old ones and those of the declarations in it. -/
theorem mem_nodeIds_applyAll {id : String} :
    id ∈ (g.applyAll edits).nodeIds ↔ id ∈ g.nodeIds ∨ ∃ d, .declaration d ∈ edits ∧ d.id = id := by
  induction edits generalizing g with
  | nil => simp [applyAll]
  | cons edit rest ih =>
    rw [applyAll_cons, ih, mem_nodeIds_apply]
    constructor
    · -- the declaration is the first edit or one of the later ones
      rintro ((hid | ⟨d, rfl, hid⟩) | ⟨d, hd, hid⟩)
      · exact Or.inl hid
      · exact Or.inr ⟨d, List.mem_cons_self, hid⟩
      · exact Or.inr ⟨d, List.mem_cons_of_mem _ hd, hid⟩
    · rintro (hid | ⟨d, hd, hid⟩)
      · exact Or.inl (Or.inl hid)
      · rcases List.mem_cons.mp hd with hd | hd
        · exact Or.inl (Or.inr ⟨d, hd.symm, hid⟩)
        · exact Or.inr ⟨d, hd, hid⟩

/-- **Nodes of a run.** The declarations of the edits are added by their ids. -/
theorem nodes_applyAll (g : CallGraph) (edits : List GraphEdit) :
    (g.applyAll edits).nodes = (edits.filterMap GraphEdit.declaration?).foldl
      (addByKey Declaration.id) g.nodes := by
  induction edits generalizing g with
  | nil => rfl
  | cons edit rest ih =>
    rw [applyAll_cons, ih]
    -- every kind but a declaration leaves the nodes alone
    cases edit with
    | declaration d =>
      rw [GraphEdit.apply, addDeclaration_nodes]
      rfl
    | file f => rfl
    | call source target data =>
      rw [GraphEdit.apply, addCall_nodes]
      rfl
    | external e =>
      rw [GraphEdit.apply, addExternal_nodes]
      rfl
    | bridge e handler =>
      rw [GraphEdit.apply, bridge_nodes]
      rfl
    | entry id =>
      rw [GraphEdit.apply, markEntry_nodes]
      rfl

theorem nodes_applyAll_of_none (h : ∀ edit ∈ edits, edit.declaration? = none) :
    (g.applyAll edits).nodes = g.nodes := by
  rw [nodes_applyAll, List.filterMap_eq_nil_iff.mpr h, List.foldl_nil]

/-! ## Edges -/

/-- An edit that makes no edge leaves the edges alone. -/
theorem edges_apply_of_none (h : edit.edge? = none) : (edit.apply g).edges = g.edges := by
  cases edit with
  | file f => rfl
  | declaration d => exact addDeclaration_edges g d
  | call source target data => cases h
  | external e => exact addExternal_edges g e
  | bridge e handler => cases h
  | entry id => exact markEntry_edges g id

/-- An edit that makes an edge between known nodes files it under its two ends. -/
theorem edges_apply_of_some {e : Edge} (h : edit.edge? = some e) (hsource : e.source ∈ g.nodeIds)
    (htarget : e.target ∈ g.nodeIds) : (edit.apply g).edges = addByKey Edge.ends g.edges e := by
  cases edit with
  | call source target data =>
    cases h
    exact addCall_edges data hsource htarget
  | bridge e' handler =>
    cases h
    rw [GraphEdit.apply, bridge_edges]
    exact addCall_edges _ hsource htarget
  | file _ | declaration _ | external _ | entry _ => cases h

/-- **Edges of a run.** If both ends of all edges that a run stands for are nodes, it adds these
edges by their ends. Induction on the edits. -/
theorem edges_applyAll
    (hends : ∀ e ∈ edits.filterMap GraphEdit.edge?, e.source ∈ g.nodeIds ∧ e.target ∈ g.nodeIds) :
    (g.applyAll edits).edges = (edits.filterMap GraphEdit.edge?).foldl
      (addByKey Edge.ends) g.edges := by
  induction edits generalizing g with
  | nil => rfl
  | cons edit rest ih =>
    -- the hypothesis is about the nodes before the run, and the rest of it starts with at least
    -- these
    have hkept : ∀ id ∈ g.nodeIds,
        id ∈ (edit.apply g).nodeIds := fun id hid => mem_nodeIds_apply.mpr (Or.inl hid)
    rw [applyAll_cons]
    cases hedge : edit.edge? with
    | none =>
      rw [List.filterMap_cons_none hedge] at hends ⊢
      rw [ih fun e he => ⟨hkept _ (hends e he).1, hkept _ (hends e he).2⟩,
        edges_apply_of_none hedge]
    | some e =>
      rw [List.filterMap_cons_some hedge] at hends ⊢
      have hhead := hends e List.mem_cons_self
      rw [ih fun e' he' => ⟨hkept _ (hends e' (List.mem_cons_of_mem _ he')).1,
          hkept _ (hends e' (List.mem_cons_of_mem _ he')).2⟩,
        edges_apply_of_some hedge hhead.1 hhead.2, List.foldl_cons]

theorem edges_applyAll_of_none (h : ∀ edit ∈ edits, edit.edge? = none) :
    (g.applyAll edits).edges = g.edges := by
  have hnil : edits.filterMap GraphEdit.edge? = [] := List.filterMap_eq_nil_iff.mpr h
  rw [edges_applyAll (by simp [hnil]), hnil, List.foldl_nil]

/-! ## External edges -/

/-- An edit that makes no external edge and is no bridge leaves the externals alone. -/
theorem externals_apply_of_none (h : edit.external? = none) (hbridge : edit.isBridge = false) :
    (edit.apply g).externals = g.externals := by
  cases edit with
  | file f => rfl
  | declaration d => exact addDeclaration_externals g d
  | call source target data => exact addCall_externals g source target data
  | external e => cases h
  | bridge e handler => cases hbridge
  | entry id => exact markEntry_externals g id

/-- **External edges of a run without bridges.** -/
theorem externals_applyAll (hbridge : ∀ edit ∈ edits, edit.isBridge = false) :
    (g.applyAll edits).externals =
      (edits.filterMap GraphEdit.external?).foldl (addByKey ExternalEdge.key) g.externals := by
  induction edits generalizing g with
  | nil => rfl
  | cons edit rest ih =>
    rw [applyAll_cons, ih fun x hx => hbridge x (List.mem_cons_of_mem _ hx)]
    cases hexternal : edit.external? with
    | none =>
      rw [List.filterMap_cons_none hexternal,
        externals_apply_of_none hexternal (hbridge edit List.mem_cons_self)]
    | some e =>
      rw [List.filterMap_cons_some hexternal, List.foldl_cons]
      cases edit with
      | external x =>
        cases hexternal
        rw [GraphEdit.apply, addExternal_externals]
      | file _ | declaration _ | call _ _ _ | bridge _ _ | entry _ => cases hexternal

theorem externals_applyAll_of_none
    (h : ∀ edit ∈ edits, edit.external? = none ∧ edit.isBridge = false) :
    (g.applyAll edits).externals = g.externals := by
  have hnil : edits.filterMap GraphEdit.external? = [] :=
    List.filterMap_eq_nil_iff.mpr fun edit he => (h edit he).1
  rw [externals_applyAll fun edit he => (h edit he).2, hnil, List.foldl_nil]

/-! ## Entries -/

/-- One edit marks at most the entry that it names. -/
theorem mem_entries_apply {id : String} (h : id ∈ (edit.apply g).entries) :
    id ∈ g.entries ∨ edit.entry? = some id := by
  cases edit with
  | file f => exact Or.inl h
  | declaration d => exact Or.inl (addDeclaration_entries g d ▸ h)
  | call source target data => exact Or.inl (addCall_entries g source target data ▸ h)
  | external e => exact Or.inl (addExternal_entries g e ▸ h)
  | bridge e handler => exact Or.inl (bridge_entries g e handler ▸ h)
  | entry marked =>
    rw [GraphEdit.apply, markEntry] at h
    split at h
    · rcases List.mem_append.mp h with hold | hnew
      · exact Or.inl hold
      · exact Or.inr (congrArg some (List.mem_singleton.mp hnew).symm)
    · exact Or.inl h

/-- **Entries of a run.** Induction on the edits. -/
theorem mem_entries_applyAll {id : String} (h : id ∈ (g.applyAll edits).entries) :
    id ∈ g.entries ∨ ∃ edit ∈ edits, edit.entry? = some id := by
  induction edits generalizing g with
  | nil => exact Or.inl h
  | cons edit rest ih =>
    rcases ih (applyAll_cons g edit rest ▸ h) with hfirst | ⟨later, hlater, hmarked⟩
    · rcases mem_entries_apply hfirst with hold | hmarked
      · exact Or.inl hold
      · exact Or.inr ⟨edit, List.mem_cons_self, hmarked⟩
    · exact Or.inr ⟨later, List.mem_cons_of_mem _ hlater, hmarked⟩

end CallGraph

end CallAtlas
