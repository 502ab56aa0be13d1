import CallAtlas.Graph.Assembly
import CallAtlas.Proofs.EditRun
import CallAtlas.Proofs.RegistryClosed

/-!
# Proofs.AssemblyExact — every call site is accounted for

A graph is assembled in four runs of edits, and two of them touch edges or external edges. The run
of calls adds both by their keys; the run of bridges then marks external edges and adds more edges.

* `Registry.sites`, `Registry.joins`, `Registry.leavingKey?` — what the call sites of registered
  callers ask for.
* `mem_called_edges`, `mem_called_externals` — the run of calls, read back as the first site of each
  key.
* `externals_applyAll_bridges`, `foldl_mark` — the run of bridges gives every request the handler of
  its own route.
* `assemble_exact` — the edges and external edges of the whole graph, in terms of the sites and the
  routes.
-/

namespace CallAtlas

/-! ## Call sites

What a site of a registered caller stands for: an edge to the declaration that it refers to, or an
external edge. -/

namespace Registry

variable {r : Registry} {s : CallSite}

/-! The files of a registry are sorted by their paths, as `Order.sortOn` sorts. -/

theorem build_perm (files : List FileAnalysis) : (build files).files.Perm files :=
  Order.perm_sortOn Order.text FileAnalysis.filePath files

/-- The paths ascend. -/
theorem build_pairwise (files : List FileAnalysis) :
    (build files).files.Pairwise fun a b => a.filePath ≤ b.filePath :=
  (Order.pairwise_sortOn Order.text_total FileAnalysis.filePath files).imp fun h => by
    simpa [Order.text] using h

/-- Files of one path keep the order in which they were given. -/
theorem filter_build (files : List FileAnalysis) (path : String) :
    (build files).files.filter (·.filePath = path) = files.filter (·.filePath = path) := by
  refine Order.filter_sortOn Order.text_total FileAnalysis.filePath files fun a b ha hb => ?_
  have heq : a.filePath = b.filePath := (of_decide_eq_true ha).trans (of_decide_eq_true hb).symm
  simp [Order.text, heq]

/-- The call sites of registered callers, in the order of the paths of the files and of the sites of
a file. -/
def sites (r : Registry) : List CallSite :=
  (r.files.flatMap (·.calls)).filter fun s => (r.declaration? s.callerId).isSome

/-- The id of the declaration that a site of a registered caller refers to. -/
def calleeId? (r : Registry) (s : CallSite) : Option String :=
  (r.declaration? s.callerId).bind fun caller =>
    (r.resolveCall? caller s.target s.calleeModule).map (·.id)

/-- Whether a site is a call of one declaration that refers to another. -/
def joins (r : Registry) (caller callee : String) (s : CallSite) : Bool :=
  decide (s.callerId = caller ∧ r.calleeId? s = some callee)

/-- The kind of a site that leaves the analysed code. -/
def leavesAs? (r : Registry) (s : CallSite) : Option ExternalKind :=
  match s.target with
  | .http .. => some .http
  | .database .. => some .database
  | .named .. => if r.calleeId? s = none then some .unresolved else none

/-- The key of a site that leaves the analysed code: its caller, its kind and what is shown of its
target. -/
def leavingKey? (r : Registry) (s : CallSite) : Option (String × ExternalKind × String) :=
  (r.leavesAs? s).map fun kind => (s.callerId, kind, s.target.displayName)

/-- The id of the handler that serves a call, if it is a request. -/
def handlerId? (r : Registry) : CallTarget → Option String
  | .http method path => (r.matchRoute? method path).map (·.id)
  | .named .. | .database .. => none

/-- The edge of a site. -/
def siteEdge? (r : Registry) (s : CallSite) : Option Edge :=
  (r.calleeId? s).map fun callee => ⟨s.callerId, callee, .ofSite s⟩

/-- The external edge of a site. -/
def siteExternal? (r : Registry) (s : CallSite) : Option ExternalEdge :=
  (r.leavesAs? s).map fun kind =>
    ⟨s.callerId, kind, s.target.displayName, s.target, s.line, s.flags, none⟩

/-- The edit of a call adds the edge that its site stands for. Only a name can refer to a
declaration. -/
theorem edge?_callEdit {caller : Declaration} (h : r.declaration? s.callerId = some caller) :
    (CallGraph.callEdit r caller s).edge? = r.siteEdge? s := by
  have hid : caller.id = s.callerId := id_of_declaration? h
  unfold CallGraph.callEdit siteEdge? calleeId?
  rw [h, Option.bind_some]
  cases s.target with
  | named name receiver =>
    cases r.resolveCall? caller (.named name receiver) s.calleeModule with
    | none => simp [GraphEdit.edge?]
    | some callee => simp [GraphEdit.edge?, hid]
  | http method path => rfl
  | database client operation table => rfl

/-- It adds the external edge that its site stands for. -/
theorem external?_callEdit {caller : Declaration} (h : r.declaration? s.callerId = some caller) :
    (CallGraph.callEdit r caller s).external? = r.siteExternal? s := by
  have hid : caller.id = s.callerId := id_of_declaration? h
  unfold CallGraph.callEdit siteExternal? leavesAs? calleeId?
  rw [h, Option.bind_some]
  cases s.target with
  | named name receiver =>
    cases r.resolveCall? caller (.named name receiver) s.calleeModule with
    | none => simp [GraphEdit.external?, hid]
    | some callee => simp [GraphEdit.external?]
  | http method path => simp [GraphEdit.external?, hid]
  | database client operation table => simp [GraphEdit.external?, hid]

/-- The edits for call sites add calls and external edges, and nothing else. -/
theorem mem_callEdits_cases {edit : GraphEdit} (h : edit ∈ CallGraph.callEdits r) :
    (∃ source target data, edit = .call source target data) ∨ ∃ e, edit = .external e := by
  obtain ⟨s, -, hs⟩ := List.mem_filterMap.mp h
  obtain ⟨caller, -, rfl⟩ := Option.map_eq_some_iff.mp hs
  unfold CallGraph.callEdit
  cases s.target with
  | named name receiver =>
    cases r.resolveCall? caller (.named name receiver) s.calleeModule with
    | none => exact Or.inr ⟨_, rfl⟩
    | some callee => exact Or.inl ⟨_, _, _, rfl⟩
  | http method path => exact Or.inr ⟨_, rfl⟩
  | database client operation table => exact Or.inr ⟨_, rfl⟩

/-- What the edits of the call sites stand for is what the sites stand for. -/
theorem filterMap_callEdits {α : Type} {view : GraphEdit → Option α} {view' : CallSite → Option α}
    (hview : ∀ s caller, r.declaration? s.callerId = some caller →
      view (CallGraph.callEdit r caller s) = view' s) :
    (CallGraph.callEdits r).filterMap view = r.sites.filterMap view' := by
  unfold CallGraph.callEdits sites
  rw [List.filterMap_filterMap, List.filterMap_filter]
  refine List.filterMap_congr fun s _ => ?_
  -- a site whose caller is not registered makes no edit, and is no site
  cases hcaller : r.declaration? s.callerId with
  | none => simp
  | some caller => simp [hview s caller hcaller]

/-- Sites stand for edges between registered declarations. -/
theorem ends_declared_of_siteEdge? {e : Edge} (h : r.siteEdge? s = some e) :
    (∃ d ∈ r.declarations, d.id = e.source) ∧ ∃ d ∈ r.declarations, d.id = e.target := by
  obtain ⟨id, hcallee, rfl⟩ := Option.map_eq_some_iff.mp h
  obtain ⟨caller, hcaller, hcallee⟩ := Option.bind_eq_some_iff.mp hcallee
  obtain ⟨callee, hresolve, hid⟩ := Option.map_eq_some_iff.mp hcallee
  exact ⟨⟨caller, mem_declarations_of_declaration? hcaller, id_of_declaration? hcaller⟩,
    ⟨callee, mem_declarations_of_resolveCall? hresolve, hid⟩⟩

/-- The handler of a request is registered. -/
theorem exists_declaration_of_handlerId? {call : CallTarget} {handler : String}
    (h : r.handlerId? call = some handler) : ∃ d ∈ r.declarations, d.id = handler := by
  cases call with
  | named name receiver => cases h
  | http method path =>
    obtain ⟨d, hd, hid⟩ := Option.map_eq_some_iff.mp h
    exact ⟨d, mem_declarations_of_matchRoute? hd, hid⟩
  | database client operation table => cases h

/-- Sites leave as requests exactly if they were written as such. -/
theorem leavesAs?_eq_http_iff :
    r.leavesAs? s = some .http ↔ ∃ method path, s.target = .http method path := by
  unfold leavesAs?
  cases s.target with
  | named name receiver =>
    by_cases hnone : r.calleeId? s = none <;> simp [hnone]
  | http method path => simp
  | database client operation table => simp

/-- The ends of the edge of a site, as a test. -/
theorem siteEdge?_ends {caller callee : String} :
    ((r.siteEdge? s).any fun e => decide (e.ends = (caller, callee)))
      = r.joins caller callee s := by
  unfold siteEdge? joins
  cases r.calleeId? s <;> simp [Edge.ends]

/-- The key of the external edge of a site, as a test. -/
theorem siteExternal?_key {key : String × ExternalKind × String} :
    ((r.siteExternal? s).any fun e => decide (e.key = key))
      = decide (r.leavingKey? s = some key) := by
  rw [Bool.eq_iff_iff]
  unfold siteExternal? leavingKey?
  cases r.leavesAs? s with
  | none => simp
  | some kind =>
    simp only [Option.map_some, Option.any_some, decide_eq_true_eq, Option.some.injEq]
    rfl

end Registry

/-! ## The run of calls -/

namespace CallGraph

variable {r : Registry}

/-- The graph after the declarations and the calls. -/
def called (r : Registry) : CallGraph :=
  ({} : CallGraph).applyAll (declarationEdits r.files ++ callEdits r)

/-- The first run adds files and declarations only. -/
theorem declarationEdits_plain (files : List FileAnalysis) :
    ∀ edit ∈ declarationEdits files, edit.edge? = none ∧ edit.external? = none ∧
      edit.isBridge = false := by
  intro edit he
  obtain ⟨f, -, he⟩ := List.mem_flatMap.mp he
  rcases List.mem_cons.mp he with rfl | he
  · exact ⟨rfl, rfl, rfl⟩
  · obtain ⟨d, -, rfl⟩ := List.mem_map.mp he
    exact ⟨rfl, rfl, rfl⟩

/-- All registered declarations are nodes before the first call is added. -/
theorem mem_nodeIds_declared {g : CallGraph} {d : Declaration} (h : d ∈ r.declarations) :
    d.id ∈ (g.applyAll (declarationEdits r.files)).nodeIds := by
  obtain ⟨f, hf, hd⟩ := List.mem_flatMap.mp h
  have hedit : .declaration d ∈ declarationEdits r.files :=
    List.mem_flatMap.mpr ⟨f, hf, List.mem_cons_of_mem _ (List.mem_map_of_mem hd)⟩
  exact mem_nodeIds_applyAll.mpr (Or.inr ⟨d, hedit, rfl⟩)

/-- The edges after the run of calls, from the sites. Both ends of each are nodes by then, so that
no call is refused. -/
theorem called_edges :
    (called r).edges = (r.sites.filterMap r.siteEdge?).foldl (addByKey Edge.ends) [] := by
  have hsites : (callEdits r).filterMap GraphEdit.edge? = r.sites.filterMap r.siteEdge? :=
    Registry.filterMap_callEdits fun _ _ => Registry.edge?_callEdit
  rw [called, applyAll_append, edges_applyAll, hsites,
    edges_applyAll_of_none fun edit he => (declarationEdits_plain r.files edit he).1]
  rw [hsites]
  -- the ends of a call are registered, and all that is registered was added before
  intro e he
  obtain ⟨s, -, hedge⟩ := List.mem_filterMap.mp he
  obtain ⟨⟨caller, hcaller, hsource⟩, callee, hcallee, htarget⟩ :=
    Registry.ends_declared_of_siteEdge? hedge
  rw [← hsource, ← htarget]
  exact ⟨mem_nodeIds_declared hcaller, mem_nodeIds_declared hcallee⟩

/-- The external edges after the run of calls. -/
theorem called_externals :
    (called r).externals
      = (r.sites.filterMap r.siteExternal?).foldl (addByKey ExternalEdge.key) [] := by
  have hsites : (callEdits r).filterMap GraphEdit.external? = r.sites.filterMap r.siteExternal? :=
    Registry.filterMap_callEdits fun _ _ => Registry.external?_callEdit
  rw [called, applyAll_append, externals_applyAll, hsites,
    externals_applyAll_of_none fun edit he => (declarationEdits_plain r.files edit he).2]
  intro edit he
  rcases Registry.mem_callEdits_cases he with ⟨source, target, data, rfl⟩ | ⟨e, rfl⟩ <;> rfl

/-- **The calls that a site makes.** An edge of the run of calls carries the data of the first site
that joins its ends. -/
theorem mem_called_edges {caller callee : String} {data : EdgeData} :
    ⟨caller, callee, data⟩ ∈ (called r).edges ↔
      ∃ s, r.sites.find? (r.joins caller callee) = some s ∧ data = .ofSite s := by
  rw [called_edges, mem_foldl_addByKey, List.find?_filterMap, Option.bind_eq_some_iff]
  simp only [List.not_mem_nil, List.map_nil, not_false_eq_true, true_and, false_or]
  have htest : (fun s => (r.siteEdge? s).any fun e =>
      decide (e.ends = Edge.ends ⟨caller, callee, data⟩)) = r.joins caller callee :=
    funext fun s => Registry.siteEdge?_ends
  rw [htest]
  -- the first site with these ends makes the edge, so its data are those of the edge
  refine exists_congr fun s => and_congr_right fun hfind => ?_
  obtain ⟨rfl, hcallee⟩ : s.callerId = caller ∧ r.calleeId? s = some callee := by
    simpa [Registry.joins] using List.find?_some hfind
  simp [Registry.siteEdge?, hcallee, eq_comm]

/-- **The external edges that a site makes.** Each is that of the first site with its key. -/
theorem mem_called_externals {e : ExternalEdge} :
    e ∈ (called r).externals ↔
      ∃ s, r.sites.find? (fun s => r.leavingKey? s = some e.key) = some s ∧
        r.siteExternal? s = some e := by
  rw [called_externals, mem_foldl_addByKey, List.find?_filterMap, Option.bind_eq_some_iff]
  simp only [List.not_mem_nil, List.map_nil, not_false_eq_true, true_and, false_or]
  have htest : (fun s => (r.siteExternal? s).any fun x => decide (x.key = e.key))
      = fun s => decide (r.leavingKey? s = some e.key) :=
    funext fun s => Registry.siteExternal?_key
  rw [htest]

/-! ## The run of bridges

Every request is bridged by itself. Keys are unique, so a bridge marks its own request and no other.
-/

/-- Marks a request with the handler of another one, if it has the same key. -/
def mark (r : Registry) (x e : ExternalEdge) : ExternalEdge :=
  match r.handlerId? e.call with
  | none => x
  | some handler => serve e.key handler x

/-- A request with the handler that its own route has. -/
def served (r : Registry) (x : ExternalEdge) : ExternalEdge :=
  { x with matchedHandler := r.handlerId? x.call }

/-- A mark is no part of a key. -/
theorem mark_key (x e : ExternalEdge) : (mark r x e).key = x.key := by
  unfold mark
  split
  · rfl
  · exact serve_key _ _ _

/-- Requests with other keys are left alone. -/
theorem mark_of_key_ne {x e : ExternalEdge} (h : x.key ≠ e.key) : mark r x e = x := by
  unfold mark
  split
  · rfl
  · rw [serve, if_neg h]

/-- A request that has no handler yet gets that of its own route, or none. -/
theorem mark_self {x : ExternalEdge} (h : x.matchedHandler = none) : mark r x x = served r x := by
  unfold mark served
  split
  · next hnone => rw [hnone, ← h]
  · next handler hsome => rw [serve, if_pos rfl, hsome]

/-- A run without a bridge for the request leaves it alone. -/
theorem foldl_mark_of_not_mem {xs : List ExternalEdge} {x : ExternalEdge}
    (h : x.key ∉ xs.map ExternalEdge.key) : xs.foldl (mark r) x = x := by
  induction xs with
  | nil => rfl
  | cons e rest ih =>
    rw [List.map_cons, List.mem_cons, not_or] at h
    rw [List.foldl_cons, mark_of_key_ne h.1, ih h.2]

/-- **A run of bridges marks a request by its own route.** -/
theorem foldl_mark {xs : List ExternalEdge} (hkeys : (xs.map ExternalEdge.key).Nodup)
    {x : ExternalEdge} (hx : x ∈ xs) (hnone : x.matchedHandler = none) :
    xs.foldl (mark r) x = served r x := by
  induction xs with
  | nil => cases hx
  | cons e rest ih =>
    obtain ⟨hnew, hrest⟩ := List.nodup_cons.mp hkeys
    rw [List.foldl_cons]
    rcases List.mem_cons.mp hx with rfl | hx
    · -- its own bridge marks it, and no later one has its key
      rw [foldl_mark_of_not_mem (by rw [mark_key]; exact hnew), mark_self hnone]
    · have hne : x.key ≠ e.key := fun h => hnew (h ▸ List.mem_map_of_mem hx)
      rw [mark_of_key_ne hne, ih hrest hx]

/-- There is a bridge for each request that a route serves. -/
theorem bridgeEdits_eq (r : Registry) (g : CallGraph) :
    bridgeEdits r g = g.externals.filterMap fun e => (r.handlerId? e.call).map (.bridge e) := by
  unfold bridgeEdits
  refine List.filterMap_congr fun e _ => ?_
  cases e.call with
  | named name receiver => rfl
  | http method path => simp [Registry.handlerId?, Function.comp_def]
  | database client operation table => rfl

/-- **External edges of a run of bridges.** Each is marked by all bridges of the run, one after the
other. -/
theorem externals_applyAll_bridges {g : CallGraph} (xs : List ExternalEdge) :
    (g.applyAll (xs.filterMap fun e => (r.handlerId? e.call).map (.bridge e))).externals
      = g.externals.map fun x => xs.foldl (mark r) x := by
  induction xs generalizing g with
  | nil => simp [applyAll]
  | cons e rest ih =>
    cases hhandler : r.handlerId? e.call with
    | none =>
      rw [List.filterMap_cons_none (by simp [hhandler]), ih]
      simp [mark, hhandler]
    | some handler =>
      rw [List.filterMap_cons_some (by simp [hhandler]; rfl), applyAll_cons, ih, GraphEdit.apply,
        bridge_externals, List.map_map]
      simp [mark, hhandler, Function.comp_def]

/-- The edge from the caller of a request to its handler. -/
def handlerEdge? (e : ExternalEdge) : Option Edge :=
  e.matchedHandler.map fun handler => ⟨e.callerId, handler, ⟨.apiRequest, .direct, e.line, e.flags⟩⟩

/-- The ends of such an edge, as a test. -/
theorem handlerEdge?_ends {e : ExternalEdge} {caller callee : String} :
    ((handlerEdge? e).any fun x => decide (x.ends = (caller, callee)))
      = decide (e.callerId = caller ∧ e.matchedHandler = some callee) := by
  unfold handlerEdge?
  cases e.matchedHandler <;> simp [Edge.ends]

/-- The edges that the bridges add are those of the requests that they mark. -/
theorem filterMap_bridgeEdits (r : Registry) (g : CallGraph) :
    (bridgeEdits r g).filterMap GraphEdit.edge?
      = (g.externals.map (served r)).filterMap handlerEdge? := by
  rw [bridgeEdits_eq, List.filterMap_filterMap, List.filterMap_map]
  refine List.filterMap_congr fun e _ => ?_
  simp only [Function.comp_apply, handlerEdge?, served]
  cases r.handlerId? e.call <;> rfl

/-! ## The whole graph -/

/-- No later run takes a node away. -/
theorem mem_nodeIds_called {d : Declaration} (h : d ∈ r.declarations) :
    d.id ∈ (called r).nodeIds := by
  rw [called, applyAll_append]
  exact mem_nodeIds_applyAll.mpr (Or.inl (mem_nodeIds_declared h))

/-- Before the run of bridges no request has a handler. -/
theorem exists_site_of_mem_called {e : ExternalEdge} (h : e ∈ (called r).externals) :
    ∃ s ∈ r.sites, e.callerId = s.callerId ∧ e.matchedHandler = none := by
  obtain ⟨s, hfind, hs⟩ := mem_called_externals.mp h
  obtain ⟨kind, -, rfl⟩ := Option.map_eq_some_iff.mp hs
  exact ⟨s, List.mem_of_find?_eq_some hfind, rfl, rfl⟩

/-- The last run marks entry points only. -/
theorem entryEdits_plain (g : CallGraph) :
    ∀ edit ∈ entryEdits g, edit.edge? = none ∧ edit.external? = none ∧ edit.isBridge = false := by
  intro edit he
  obtain ⟨d, -, rfl⟩ := List.mem_map.mp he
  exact ⟨rfl, rfl, rfl⟩

theorem assemble_eq (files : List FileAnalysis) :
    assemble files = ((called (.build files)).applyAll
      (bridgeEdits (.build files) (called (.build files)))).applyAll
      (entryEdits ((called (.build files)).applyAll
        (bridgeEdits (.build files) (called (.build files))))) :=
  rfl

/-- Entries leave the external edges alone, and bridges give each request its own handler. -/
theorem assemble_externals (files : List FileAnalysis) :
    (assemble files).externals = (called (.build files)).externals.map (served (.build files)) := by
  have hnodup : ((called (.build files)).externals.map ExternalEdge.key).Nodup :=
    (wellFormed_applyAll _).externals_nodup
  rw [assemble_eq, externals_applyAll_of_none fun edit he => (entryEdits_plain _ edit he).2,
    bridgeEdits_eq, externals_applyAll_bridges]
  refine List.map_congr_left fun e he => ?_
  obtain ⟨_, _, _, hnone⟩ := exists_site_of_mem_called he
  exact foldl_mark hnodup he hnone

/-- The edges of the whole graph: those of the calls, and then those of the requests, by their ends.
-/
theorem assemble_edges (files : List FileAnalysis) :
    (assemble files).edges =
      ((assemble files).externals.filterMap handlerEdge?).foldl (addByKey Edge.ends)
        (called (.build files)).edges := by
  rw [assemble_externals, ← filterMap_bridgeEdits, assemble_eq,
    edges_applyAll_of_none fun edit he => (entryEdits_plain _ edit he).1]
  refine edges_applyAll ?_
  -- the caller of a request is registered, and so is its handler
  rw [filterMap_bridgeEdits]
  intro edge hedge
  obtain ⟨x, hx, hhandler⟩ := List.mem_filterMap.mp hedge
  obtain ⟨e, he, rfl⟩ := List.mem_map.mp hx
  obtain ⟨handler, hserved, rfl⟩ := Option.map_eq_some_iff.mp hhandler
  constructor
  · obtain ⟨s, hs, hsource, -⟩ := exists_site_of_mem_called he
    obtain ⟨caller, hcaller⟩ := Option.isSome_iff_exists.mp (List.mem_filter.mp hs).2
    have hid : caller.id = e.callerId := (Registry.id_of_declaration? hcaller).trans hsource.symm
    exact hid ▸ mem_nodeIds_called (Registry.mem_declarations_of_declaration? hcaller)
  · obtain ⟨d, hd, hid⟩ := Registry.exists_declaration_of_handlerId? hserved
    exact hid ▸ mem_nodeIds_called hd

theorem wellFormed_assemble (files : List FileAnalysis) : (assemble files).WellFormed :=
  ((wellFormed_applyAll _).applyAll _).applyAll _

/-- Two ids are joined by the run of calls exactly if a site joins them. -/
theorem mem_called_ends {caller callee : String} :
    (caller, callee) ∈ (called r).edges.map Edge.ends ↔
      ∃ s ∈ r.sites, r.joins caller callee s = true := by
  constructor
  · intro h
    obtain ⟨⟨_, _, data⟩, hedge, hends⟩ := List.mem_map.mp h
    cases hends
    obtain ⟨s, hfind, -⟩ := mem_called_edges.mp hedge
    exact ⟨s, List.mem_of_find?_eq_some hfind, List.find?_some hfind⟩
  · intro h
    obtain ⟨s, hfind⟩ := exists_find?_eq_some h
    exact List.mem_map.mpr ⟨⟨caller, callee, .ofSite s⟩, mem_called_edges.mpr ⟨s, hfind, rfl⟩, rfl⟩

/-- **The edges of the whole graph.** Those of the run of calls, and where it left two ids unjoined
the edge of the first request between them. -/
theorem mem_assemble_edges {files : List FileAnalysis} {caller callee : String} {data : EdgeData} :
    ⟨caller, callee, data⟩ ∈ (assemble files).edges ↔
      ⟨caller, callee, data⟩ ∈ (called (.build files)).edges ∨
        (¬ ∃ s ∈ (Registry.build files).sites,
          (Registry.build files).joins caller callee s = true) ∧
          ∃ e, (assemble files).externals.find? (fun e => e.callerId = caller ∧
            e.matchedHandler = some callee) = some e ∧
            data = ⟨.apiRequest, .direct, e.line, e.flags⟩ := by
  rw [assemble_edges, mem_foldl_addByKey, List.find?_filterMap, Option.bind_eq_some_iff,
    ← mem_called_ends]
  -- an external edge makes this edge when its caller and its handler are the two ends
  have htest : (fun e => (handlerEdge? e).any fun x =>
      decide (x.ends = Edge.ends ⟨caller, callee, data⟩))
        = fun e => decide (e.callerId = caller ∧ e.matchedHandler = some callee) :=
    funext fun e => handlerEdge?_ends
  rw [htest]
  refine or_congr Iff.rfl (and_congr_right fun _ => exists_congr fun e =>
    and_congr_right fun hfind => ?_)
  obtain ⟨rfl, hhandler⟩ : e.callerId = caller ∧ e.matchedHandler = some callee := by
    simpa using List.find?_some hfind
  simp [handlerEdge?, hhandler, eq_comm]

/-- **The external edges of the whole graph.** Bridges change none of the data that an external edge
has from its site. -/
theorem first_site_of_mem_externals {files : List FileAnalysis} {e : ExternalEdge}
    (h : e ∈ (assemble files).externals) :
    ∃ s, (Registry.build files).sites.find?
        (fun s => (Registry.build files).leavingKey? s = some e.key) = some s ∧
      (Registry.build files).leavesAs? s = some e.kind ∧ e.call = s.target ∧ e.line = s.line ∧
      e.flags = s.flags := by
  rw [assemble_externals] at h
  obtain ⟨x, hx, rfl⟩ := List.mem_map.mp h
  obtain ⟨s, hfind, hs⟩ := mem_called_externals.mp hx
  obtain ⟨kind, hkind, rfl⟩ := Option.map_eq_some_iff.mp hs
  exact ⟨s, hfind, hkind, rfl, rfl, rfl⟩

/-- The handler of an external edge is the one of its own route. -/
theorem matchedHandler_eq {files : List FileAnalysis} {e : ExternalEdge}
    (h : e ∈ (assemble files).externals) :
    e.matchedHandler = (Registry.build files).handlerId? e.call := by
  rw [assemble_externals] at h
  obtain ⟨x, -, rfl⟩ := List.mem_map.mp h
  rfl

/-- **A graph that accounts for the call sites and the routes of a registry.** -/
structure Accounts (g : CallGraph) (r : Registry) : Prop where
  /-- Two ids are joined at most once. -/
  edges_nodup : (g.edges.map Edge.ends).Nodup
  /-- A call joins two ids exactly if a site does, and carries the data of the first such site. -/
  calls_iff : ∀ caller callee data, ⟨caller, callee, data⟩ ∈ g.edges ∧ data.kind = .calls ↔
    ∃ s, r.sites.find? (r.joins caller callee) = some s ∧ data = .ofSite s
  /-- A key has at most one external edge. -/
  externals_nodup : (g.externals.map ExternalEdge.key).Nodup
  /-- It has one exactly if a site leaves the analysed code under that key. -/
  external_iff : ∀ key, key ∈ g.externals.map ExternalEdge.key ↔
    ∃ s ∈ r.sites, r.leavingKey? s = some key
  /-- An external edge carries the data of the first site with its key. -/
  external_first : ∀ e ∈ g.externals, ∃ s,
    r.sites.find? (fun s => r.leavingKey? s = some e.key) = some s ∧
      e.call = s.target ∧ e.line = s.line ∧ e.flags = s.flags
  /-- The handler of a request is the one that its route gives. -/
  handler_iff : ∀ e ∈ g.externals, e.kind = .http → ∃ method path, e.call = .http method path ∧
    ∀ handler, e.matchedHandler = some handler ↔
      ∃ d, r.matchRoute? method path = some d ∧ d.id = handler
  /-- Nothing else has a handler. -/
  handler_none : ∀ e ∈ g.externals, e.kind ≠ .http → e.matchedHandler = none
  /-- The caller of a request is joined with the handler, as a request exactly if no site calls the
  handler. -/
  handler_edge : ∀ e ∈ g.externals, ∀ handler, e.matchedHandler = some handler →
    ∃ data, ⟨e.callerId, handler, data⟩ ∈ g.edges ∧
      (data.kind = .apiRequest ↔ ¬ ∃ s ∈ r.sites, r.joins e.callerId handler s = true)
  /-- There are no other edges: one that is no call is that of the first request from its source to
  its target. -/
  edge_cases : ∀ edge ∈ g.edges, edge.data.kind = .calls ∨ ∃ e,
    g.externals.find? (fun e => e.callerId = edge.source ∧ e.matchedHandler = some edge.target)
      = some e ∧
      e.kind = .http ∧ edge.data = ⟨.apiRequest, .direct, e.line, e.flags⟩

/-- An external edge is a request exactly if its call is one. -/
theorem kind_eq_http_iff {files : List FileAnalysis} {e : ExternalEdge}
    (h : e ∈ (assemble files).externals) :
    e.kind = .http ↔ ∃ method path, e.call = .http method path := by
  obtain ⟨s, -, hkind, hcall, -⟩ := first_site_of_mem_externals h
  rw [hcall, ← Registry.leavesAs?_eq_http_iff, hkind, Option.some.injEq]

/-- What has a handler is a request. -/
theorem kind_of_matchedHandler {files : List FileAnalysis} {e : ExternalEdge}
    (h : e ∈ (assemble files).externals) {handler : String}
    (hhandler : e.matchedHandler = some handler) : e.kind = .http := by
  have hserved := matchedHandler_eq h
  rw [hhandler] at hserved
  refine (kind_eq_http_iff h).mpr ?_
  cases hcall : e.call with
  | http method path => exact ⟨method, path, rfl⟩
  | named name receiver =>
    rw [hcall] at hserved
    cases hserved
  | database client operation table =>
    rw [hcall] at hserved
    cases hserved

/-- The keys of the external edges, by the sites. -/
theorem mem_assemble_keys {files : List FileAnalysis} {key : String × ExternalKind × String} :
    key ∈ (assemble files).externals.map ExternalEdge.key ↔
      ∃ s ∈ (Registry.build files).sites, (Registry.build files).leavingKey? s = some key := by
  constructor
  · intro h
    obtain ⟨e, he, rfl⟩ := List.mem_map.mp h
    obtain ⟨s, hfind, -⟩ := first_site_of_mem_externals he
    exact ⟨s, List.mem_of_find?_eq_some hfind, by simpa using List.find?_some hfind⟩
  · rintro ⟨s, hs, hkey⟩
    obtain ⟨first, hfind⟩ : ∃ first, (Registry.build files).sites.find?
        (fun s => (Registry.build files).leavingKey? s = some key) = some first :=
      exists_find?_eq_some ⟨s, hs, decide_eq_true hkey⟩
    have hfirst : (Registry.build files).leavingKey? first = some key := by
      simpa using List.find?_some hfind
    -- the first site with the key made an external edge, which the bridges left in place
    obtain ⟨kind, hkind, rfl⟩ := Option.map_eq_some_iff.mp hfirst
    have hmem : ⟨first.callerId, kind, first.target.displayName, first.target, first.line,
        first.flags, none⟩ ∈ (called (.build files)).externals :=
      mem_called_externals.mpr ⟨first, hfind, by simp [Registry.siteExternal?, hkind]⟩
    rw [assemble_externals, List.map_map]
    exact List.mem_map.mpr ⟨_, hmem, rfl⟩

/-- The whole graph accounts for its registry, clause by clause. -/
theorem accounts_assemble (files : List FileAnalysis) :
    (assemble files).Accounts (Registry.build files) where
  edges_nodup := (wellFormed_assemble files).edges_nodup
  externals_nodup := (wellFormed_assemble files).externals_nodup
  calls_iff caller callee data := by
    rw [mem_assemble_edges, mem_called_edges]
    constructor
    · rintro ⟨hsite | ⟨-, e, -, rfl⟩, hkind⟩
      · exact hsite
      · cases hkind
    · rintro ⟨s, hfind, rfl⟩
      exact ⟨Or.inl ⟨s, hfind, rfl⟩, rfl⟩
  external_iff key := mem_assemble_keys
  external_first e he := by
    obtain ⟨s, hfind, -, hcall, hline, hflags⟩ := first_site_of_mem_externals he
    exact ⟨s, hfind, hcall, hline, hflags⟩
  handler_iff e he hkind := by
    obtain ⟨method, path, hcall⟩ := (kind_eq_http_iff he).mp hkind
    refine ⟨method, path, hcall, fun handler => ?_⟩
    rw [matchedHandler_eq he, hcall]
    exact Option.map_eq_some_iff
  handler_none e he hkind := by
    cases hhandler : e.matchedHandler with
    | none => rfl
    | some handler => exact absurd (kind_of_matchedHandler he hhandler) hkind
  handler_edge e he handler hhandler := by
    by_cases hsite : ∃ s ∈ (Registry.build files).sites,
      (Registry.build files).joins e.callerId handler s = true
    · -- a site joins the two already, and the run of bridges leaves its edge alone
      obtain ⟨s, hfind⟩ := exists_find?_eq_some hsite
      refine ⟨.ofSite s, mem_assemble_edges.mpr (Or.inl (mem_called_edges.mpr ⟨s, hfind, rfl⟩)), ?_⟩
      exact ⟨(nomatch ·), fun hnone => absurd hsite hnone⟩
    · -- several requests of the caller may have this handler, and the first one gives the edge
      obtain ⟨first, hfind⟩ : ∃ first, (assemble files).externals.find?
          (fun x => x.callerId = e.callerId ∧ x.matchedHandler = some handler) = some first :=
        exists_find?_eq_some ⟨e, he, decide_eq_true ⟨rfl, hhandler⟩⟩
      refine ⟨_, mem_assemble_edges.mpr (Or.inr ⟨hsite, first, hfind, rfl⟩), ?_⟩
      exact ⟨fun _ => hsite, fun _ => rfl⟩
  edge_cases edge hedge := by
    rcases mem_assemble_edges.mp hedge with hcalled | ⟨-, e, hfind, hdata⟩
    · obtain ⟨s, -, hdata⟩ := mem_called_edges.mp hcalled
      exact Or.inl (by rw [hdata]; rfl)
    · have hhandler : e.callerId = edge.source ∧ e.matchedHandler = some edge.target := by
        simpa using List.find?_some hfind
      exact Or.inr ⟨e, hfind,
        kind_of_matchedHandler (List.mem_of_find?_eq_some hfind) hhandler.2, hdata⟩

/-- **Every call site is accounted for.** Whatever files are assembled, they are taken in the order
of their paths, those with the same path in the given order, and calls, external edges and requests
are then exactly those that the sites of registered callers and the routes of the files ask for. -/
theorem assemble_exact (files : List FileAnalysis) :
    (Registry.build files).files.Perm files ∧
      (Registry.build files).files.Pairwise (fun a b => a.filePath ≤ b.filePath) ∧
      (∀ path, (Registry.build files).files.filter (·.filePath = path)
        = files.filter (·.filePath = path)) ∧
      (assemble files).Accounts (Registry.build files) :=
  ⟨Registry.build_perm files, Registry.build_pairwise files, Registry.filter_build files,
    accounts_assemble files⟩

end CallGraph

end CallAtlas
