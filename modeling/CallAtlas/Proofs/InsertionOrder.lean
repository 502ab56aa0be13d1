import Mathlib.Data.List.Find
import CallAtlas.ErrorFlow.Profile
import CallAtlas.Impact.EntryPaths
import CallAtlas.Impact.Reach
import CallAtlas.Journey.Walk
import CallAtlas.Proofs.Descendants
import CallAtlas.Proofs.EditRun
import CallAtlas.Proofs.GraphRepresentation

/-!
# Proofs.InsertionOrder — no answer tells in which order a graph was built

A graph keeps everything in the order of its insertion, and its queries read it through views:
look-ups by a key that is unique, counts, and lists sorted by keys that differ. None of them changes
with the order, and all else that is asked of a graph is computed from them.

* `CallGraph.Alike` — two graphs hold the same in some order. `CallGraph.Unambiguous` — the keys of
  all views differ.
* `CallGraph.SameViews` — the views agree. `CallGraph.Alike.sameViews` is the only place where
  orders are compared.
* `Reach.walk_congr`, `EntryPaths.search_congr`, `Journey.run_congr`, `ErrorTrace.walk_congr` — a
  walk reads the graph through its views in each round, hence in all. Induction on the rounds.
* `CallGraph.extended` — a run of edits that are all accepted appends what they stand for, and no
  more. Runs of the same edits in two orders therefore end in graphs that are alike.
* `CallGraph.sameAnswers_of_perm` — so they give the same answers.
-/

namespace CallAtlas

/-- Caller, line and target: what external edges are listed by. -/
def ExternalEdge.site (e : ExternalEdge) : String × Nat × String := (e.callerId, e.line, e.target)

/-! ## Look-ups by a unique key -/

section UniqueKey

variable {α κ : Type} [DecidableEq κ]

/-- **A look-up by a unique key forgets the order.** -/
theorem find?_eq_of_perm (key : α → κ) {xs ys : List α} (hperm : xs.Perm ys)
    (hkeys : (xs.map key).Nodup) (k : κ) :
    xs.find? (fun x => key x = k) = ys.find? (fun x => key x = k) := by
  refine List.find?_eq_find?_of_perm hperm ?_
  rintro x ⟨hx, hxk⟩ y ⟨hy, hyk⟩
  have hxy : key x = key y := (of_decide_eq_true hxk).trans (of_decide_eq_true hyk).symm
  exact List.inj_on_of_nodup_map hkeys hx hy hxy

end UniqueKey

namespace CallGraph

variable {g g' : CallGraph}

/-! ## Graphs that hold the same -/

/-- Two graphs hold the same, each in its own order. -/
structure Alike (g g' : CallGraph) : Prop where
  nodes : g.nodes.Perm g'.nodes
  edges : g.edges.Perm g'.edges
  externals : g.externals.Perm g'.externals
  files : g.files.Perm g'.files
  entries : g.entries.Perm g'.entries

namespace Alike

protected theorem refl (g : CallGraph) : g.Alike g := ⟨.refl _, .refl _, .refl _, .refl _, .refl _⟩

protected theorem symm (h : g.Alike g') : g'.Alike g :=
  ⟨h.nodes.symm, h.edges.symm, h.externals.symm, h.files.symm, h.entries.symm⟩

protected theorem trans {g'' : CallGraph} (h : g.Alike g') (h' : g'.Alike g'') : g.Alike g'' :=
  ⟨h.nodes.trans h'.nodes, h.edges.trans h'.edges, h.externals.trans h'.externals,
    h.files.trans h'.files, h.entries.trans h'.entries⟩

end Alike

/-- No two entries of a list of the graph agree in the key that the list is read by. -/
structure Unambiguous (g : CallGraph) : Prop extends WellFormed g where
  paths_nodup : (g.files.map (·.filePath)).Nodup
  sites_nodup : (g.externals.map ExternalEdge.site).Nodup

/-- Being unambiguous does not depend on the order of the lists. -/
theorem Unambiguous.of_alike (hg : g.Unambiguous) (h : g.Alike g') : g'.Unambiguous := by
  -- all conditions are about membership and repetition, which permutations keep
  have hids : ∀ {id}, id ∈ g.nodeIds ↔ id ∈ g'.nodeIds := (h.nodes.map (·.id)).mem_iff
  constructor
  · constructor
    · exact (h.nodes.map _).nodup_iff.mp hg.nodes_nodup
    · exact (h.edges.map _).nodup_iff.mp hg.edges_nodup
    · intro e he
      obtain ⟨hsource, htarget⟩ := hg.ends_known e (h.edges.mem_iff.mpr he)
      exact ⟨hids.mp hsource, hids.mp htarget⟩
    · exact (h.externals.map _).nodup_iff.mp hg.externals_nodup
    · exact h.entries.nodup_iff.mp hg.entries_nodup
    · exact fun id hid => hids.mp (hg.entries_known id (h.entries.mem_iff.mpr hid))
  · exact (h.files.map _).nodup_iff.mp hg.paths_nodup
  · exact (h.externals.map _).nodup_iff.mp hg.sites_nodup

/-! ## The views -/

/-- Whatever a query reads of the one graph it reads of the other. -/
structure SameViews (g g' : CallGraph) : Prop where
  size : g.nodes.length = g'.nodes.length
  contains : ∀ id, g.contains id = g'.contains id
  node? : ∀ id, g.node? id = g'.node? id
  file? : ∀ path, g.file? path = g'.file? path
  isEntryPoint : ∀ id, g.isEntryPoint id = g'.isEntryPoint id
  declarations : g.declarations = g'.declarations
  callerEdges : ∀ id, g.callerEdges id = g'.callerEdges id
  calleeEdges : ∀ id, g.calleeEdges id = g'.calleeEdges id
  externalsFrom : ∀ id, g.externalsFrom id = g'.externalsFrom id
  reaches : ∀ x y, g.reaches x y = g'.reaches x y

namespace Alike

theorem node?_eq (h : g.Alike g') (hg : g.Unambiguous) (id : String) : g.node? id = g'.node? id :=
  find?_eq_of_perm Declaration.id h.nodes hg.nodes_nodup id

/-- Alike graphs list the same declarations, since sorting by distinct ids has one result. -/
theorem declarations_eq (h : g.Alike g') (hg : g.Unambiguous) : g.declarations = g'.declarations :=
  Order.sortOn_eq_of_perm Order.text_linear Declaration.id h.nodes hg.nodes_nodup

/-- Edges listed with the node at one of their ends, up to order: `pick` says which end. -/
theorem perm_filterMap_node? (h : g.Alike g') (hg : g.Unambiguous) (pick : Edge → String)
    (p : Edge → Bool) :
    ((g.edges.filter p).filterMap fun e => (g.node? (pick e)).map (·, e.data)).Perm
      ((g'.edges.filter p).filterMap fun e => (g'.node? (pick e)).map (·, e.data)) := by
  simp only [h.node?_eq hg]
  exact (h.edges.filter p).filterMap _

/-- Alike graphs list the same callers. -/
theorem callerEdges_eq (h : g.Alike g') (hg : g.Unambiguous) (id : String) :
    g.callerEdges id = g'.callerEdges id := by
  refine Order.sortOn_eq_of_perm Order.text_linear _ (h.perm_filterMap_node? hg Edge.source _) ?_
  rw [map_id_filterMap_node? fun e he => (hg.ends_known e (List.mem_filter.mp he).1).1]
  exact nodup_map_of_ends (fun _ _ htarget hsource => Prod.ext hsource htarget) hg.edges_nodup

/-- Alike graphs list the same callees, by line and then by id. -/
theorem calleeEdges_eq (h : g.Alike g') (hg : g.Unambiguous) (id : String) :
    g.calleeEdges id = g'.calleeEdges id := by
  refine Order.sortOn_eq_of_perm (Order.lex_linear Order.count_linear Order.text_linear) _
    (h.perm_filterMap_node? hg Edge.target _) ?_
  -- the callees of one caller differ, whatever their lines
  refine List.Nodup.of_map Prod.snd ?_
  rw [List.map_map]
  have hknown : ∀ e ∈ g.edges.filter (·.source = id), e.target ∈ g.nodeIds :=
    fun e he => (hg.ends_known e (List.mem_filter.mp he).1).2
  refine Eq.subst (map_id_filterMap_node? hknown).symm ?_
  exact nodup_map_of_ends (fun _ _ hsource htarget => Prod.ext hsource htarget) hg.edges_nodup

/-- Alike graphs list the same external edges of a node. -/
theorem externalsFrom_eq (h : g.Alike g') (hg : g.Unambiguous) (id : String) :
    g.externalsFrom id = g'.externalsFrom id := by
  refine Order.sortOn_eq_of_perm (Order.lex_linear Order.count_linear Order.text_linear) _
    (h.externals.filter _) ?_
  -- with the caller before them, the keys are the sites of the edges of that caller
  refine List.Nodup.of_map (fun key => (id, key)) ?_
  have hsites : ((g.externals.filter (·.callerId = id)).map ExternalEdge.site).Nodup :=
    hg.sites_nodup.sublist (List.filter_sublist.map _)
  rw [List.map_map]
  refine Eq.subst (List.map_congr_left fun e he => ?_) hsites
  rw [ExternalEdge.site, of_decide_eq_true (List.mem_filter.mp he).2]
  rfl

theorem calls_eq (h : g.Alike g') : g.Calls = g'.Calls := by
  funext x y
  exact propext (exists_congr fun _ => h.edges.mem_iff)

/-- Alike graphs have the same reachability. -/
theorem reaches_eq (h : g.Alike g') (hg : g.Unambiguous) (x y : String) :
    g.reaches x y = g'.reaches x y := by
  rw [Bool.eq_iff_iff, reaches_iff hg.toWellFormed, reaches_iff (hg.of_alike h).toWellFormed,
    Reaches, Reaches, h.calls_eq]

/-- **Graphs that hold the same look the same.** -/
theorem sameViews (h : g.Alike g') (hg : g.Unambiguous) : g.SameViews g' where
  size := h.nodes.length_eq
  contains _ := h.nodes.any_eq
  node? := h.node?_eq hg
  file? := find?_eq_of_perm FileSummary.filePath h.files hg.paths_nodup
  isEntryPoint _ := h.entries.contains_eq
  declarations := h.declarations_eq hg
  callerEdges := h.callerEdges_eq hg
  calleeEdges := h.calleeEdges_eq hg
  externalsFrom := h.externalsFrom_eq hg
  reaches := h.reaches_eq hg

theorem stats_eq (h : g.Alike g') : g.stats = g'.stats := by
  simp only [stats, h.files.length_eq, h.nodes.length_eq, h.entries.length_eq, h.edges.countP_eq,
    h.externals.countP_eq]

/-- Alike graphs have the same snapshot. -/
theorem snapshot_eq (h : g.Alike g') (hg : g.Unambiguous) : g.snapshot = g'.snapshot := by
  have hedges := Order.sortOn_eq_of_perm (Order.lex_linear Order.text_linear Order.text_linear)
    (fun e => (e.source, e.target)) h.edges hg.edges_nodup
  have hentries :=
    Order.sortOn_eq_of_perm Order.text_linear id h.entries (by simpa using hg.entries_nodup)
  have hexternals := Order.sortOn_eq_of_perm
    (Order.lex_linear Order.text_linear (Order.lex_linear Order.count_linear Order.text_linear))
    (fun e => (e.callerId, e.line, e.target)) h.externals hg.sites_nodup
  simp only [snapshot, entryPoints, h.declarations_eq hg, hedges, hentries, hexternals]

end Alike

/-! ## Answers from the views -/

namespace SameViews

theorem callerIds (h : g.SameViews g') (id : String) : g.callerIds id = g'.callerIds id := by
  rw [CallGraph.callerIds, CallGraph.callerIds, callers, callers, h.callerEdges]

theorem resolveTarget (h : g.SameViews g') (query : String) :
    g.resolveTarget query = g'.resolveTarget query := by
  simp only [CallGraph.resolveTarget, candidates, findByName, h.node?, h.declarations]

/-- The cycles are read off the views. -/
theorem cycles (h : g.SameViews g') : g.cycles = g'.cycles := by
  have hreaches : g.reaches = g'.reaches := funext₂ h.reaches
  have hids : g.cyclicIds = g'.cyclicIds := by rw [cyclicIds, cyclicIds, h.declarations, hreaches]
  have hgroups : g.cycleOf = g'.cycleOf := by
    funext id
    rw [cycleOf, cycleOf, hids, hreaches]
  rw [cycles_eq, cycles_eq, hids, hgroups]

end SameViews

end CallGraph

section Walks

variable {g g' : CallGraph}

/-- The caller search sees the graph through its views only. -/
theorem Reach.walk_congr (h : g.SameViews g') (limits : TraversalLimits) (start : String)
    (fuel : Nat) (queue : List (String × Nat)) (r : Reach) :
    walk g limits start fuel queue r = walk g' limits start fuel queue r := by
  induction fuel generalizing queue r with
  | zero => rfl
  | succ fuel ih =>
    cases queue with
    | nil => rfl
    | cons head queue => simp only [walk, h.callerIds, ih]

/-- The path search sees the graph through its views only. -/
theorem EntryPaths.search_congr (h : g.SameViews g') (limits : TraversalLimits) (fuel visits : Nat)
    (todo : List (List String)) (found : EntryPaths) :
    search g limits fuel visits todo found = search g' limits fuel visits todo found := by
  induction fuel generalizing visits todo found with
  | zero => rfl
  | succ fuel ih =>
    match todo with
    | [] => rfl
    | [] :: todo => exact ih visits todo found
    | (current :: before) :: todo => simp only [search, h.isEntryPoint, h.callerIds, ih]

theorem Journey.children_congr (h : g.SameViews g') (settings : JourneySettings) (d : Declaration)
    (depth : Nat) : children g settings d depth = children g' settings d depth := by
  rw [children, children, h.calleeEdges, h.externalsFrom]

/-- One task of a journey sees the graph through its views only. -/
theorem Journey.perform_congr (h : g.SameViews g') (settings : JourneySettings) (p : Progress)
    (task : Task) : p.perform g settings task = p.perform g' settings task := by
  have hrecord : p.record g task = p.record g' task := by
    cases task with
    | visit d depth kind line flags => simp only [Progress.record, Task.step?, h.file?]
    | leaveCode e depth => rfl
    | finish id => rfl
  unfold Progress.perform
  simp only [hrecord, children_congr h]

theorem Journey.run_congr (h : g.SameViews g') (settings : JourneySettings) (fuel : Nat)
    (p : Progress) : p.run g settings fuel = p.run g' settings fuel := by
  induction fuel generalizing p with
  | zero => rfl
  | succ fuel ih =>
    simp only [Progress.run, perform_congr h, ih]

theorem Journey.start_congr (h : g.SameViews g') (settings : JourneySettings) (d : Declaration) :
    start g settings d = start g' settings d := by
  simp only [start, h.file?, run_congr h]

/-- The error trace sees the graph through its views only. -/
theorem ErrorTrace.walk_congr (h : g.SameViews g') (limits : TraversalLimits) (origin : String)
    (fuel : Nat) (queue : List (String × Nat)) (p : Progress) :
    p.walk g limits origin fuel queue = p.walk g' limits origin fuel queue := by
  induction fuel generalizing queue p with
  | zero => rfl
  | succ fuel ih =>
    cases queue with
    | nil => rfl
    | cons head queue => simp only [Progress.walk, h.callerEdges, ih]

theorem ErrorTrace.start_congr (h : g.SameViews g') (limits : TraversalLimits)
    (origin : Declaration) : start g limits origin = start g' limits origin := by
  have hentry : g.isEntryPoint = g'.isEntryPoint := funext h.isEntryPoint
  simp only [start, h.size, hentry, walk_congr h]

theorem ErrorProfile.make_congr (h : g.SameViews g') (d : Declaration)
    (raises receivesFrom : List String) :
    make g d raises receivesFrom = make g' d raises receivesFrom := by
  have hcaller : g.hasUnguardedCaller d.id = g'.hasUnguardedCaller d.id := by
    rw [CallGraph.hasUnguardedCaller, CallGraph.hasUnguardedCaller, h.callerEdges]
  simp only [make, hcaller, h.isEntryPoint]

/-- The error profiles see the graph through its views only. -/
theorem ErrorProfile.all_congr (h : g.SameViews g') (settings : ErrorSettings) :
    all g settings = all g' settings := by
  have hraises : g.raiseSources = g'.raiseSources := by
    funext d
    rw [CallGraph.raiseSources, CallGraph.raiseSources, h.externalsFrom]
  simp only [all, hraises, h.declarations, make_congr h, ErrorTrace.start_congr h]

end Walks

namespace CallGraph

variable {g g' : CallGraph}

/-- Every question has the same answer for both graphs. -/
structure SameAnswers (g g' : CallGraph) : Prop where
  stats : g.stats = g'.stats
  snapshot : g.snapshot = g'.snapshot
  declarations : g.declarations = g'.declarations
  callers : ∀ id, g.callers id = g'.callers id
  callees : ∀ id, g.callees id = g'.callees id
  callerEdges : ∀ id, g.callerEdges id = g'.callerEdges id
  calleeEdges : ∀ id, g.calleeEdges id = g'.calleeEdges id
  findByName : ∀ name, g.findByName name = g'.findByName name
  resolveTarget : ∀ query, g.resolveTarget query = g'.resolveTarget query
  externalsFrom : ∀ id, g.externalsFrom id = g'.externalsFrom id
  cycles : g.cycles = g'.cycles
  callersOf : ∀ limits id, Reach.callersOf g limits id = Reach.callersOf g' limits id
  entryPaths : ∀ limits query, EntryPaths.find g limits query = EntryPaths.find g' limits query
  journey : ∀ settings query, Journey.synthesize g settings query
    = Journey.synthesize g' settings query
  errorTrace : ∀ limits query, ErrorTrace.find g limits query = ErrorTrace.find g' limits query
  errorProfiles : ∀ settings, ErrorProfile.all g settings = ErrorProfile.all g' settings

/-- **Alike graphs answer every question alike.** -/
theorem Alike.sameAnswers (halike : g.Alike g') (hg : g.Unambiguous) : g.SameAnswers g' := by
  have h := halike.sameViews hg
  -- the queries in the order of the record; each looks at the views alone
  constructor
  · exact halike.stats_eq
  · exact halike.snapshot_eq hg
  · exact h.declarations
  · exact fun id => congrArg (List.map Prod.fst) (h.callerEdges id)
  · intro id
    rw [callees, callees, h.calleeEdges]
  · exact h.callerEdges
  · exact h.calleeEdges
  · intro name
    rw [findByName, findByName, h.declarations]
  · exact h.resolveTarget
  · exact h.externalsFrom
  · exact h.cycles
  · intro limits id
    rw [Reach.callersOf, Reach.callersOf, h.contains, h.size, Reach.walk_congr h]
  · intro limits query
    simp only [EntryPaths.find, h.resolveTarget, h.size, EntryPaths.search_congr h]
  · intro settings query
    rw [Journey.synthesize, Journey.synthesize, h.resolveTarget,
      funext (Journey.start_congr h settings)]
  · intro limits query
    rw [ErrorTrace.find, ErrorTrace.find, h.resolveTarget, funext (ErrorTrace.start_congr h limits)]
  · exact ErrorProfile.all_congr h

end CallGraph

/-! ## Runs in which every edit is accepted -/

namespace GraphEdit

def file? : GraphEdit → Option FileSummary
  | file f => some f
  | declaration _ | call .. | external _ | bridge .. | entry _ => none

/-- The edit adds something that is not there yet. A bridge changes what is there. -/
def accepted (g : CallGraph) : GraphEdit → Bool
  | file f => !g.files.any (·.filePath = f.filePath)
  | declaration d => !g.contains d.id
  | call source target _ => g.admitsCall source target
  | external e => g.admitsExternal e
  | entry id => g.contains id && !g.entries.contains id
  | bridge .. => false

end GraphEdit

namespace CallGraph

variable {g : CallGraph} {edit : GraphEdit} {edits edits' : List GraphEdit}

/-- Every edit of a run is accepted when its turn comes. -/
def acceptsAll (g : CallGraph) : List GraphEdit → Bool
  | [] => true
  | edit :: rest => edit.accepted g && (edit.apply g).acceptsAll rest

/-- A graph with all that some edits stand for appended. -/
def extended (g : CallGraph) (edits : List GraphEdit) : CallGraph where
  nodes := g.nodes ++ edits.filterMap GraphEdit.declaration?
  edges := g.edges ++ edits.filterMap GraphEdit.edge?
  externals := g.externals ++ edits.filterMap GraphEdit.external?
  files := g.files ++ edits.filterMap GraphEdit.file?
  entries := g.entries ++ edits.filterMap GraphEdit.entry?

/-- Extending by two lists is extending by one after the other. -/
theorem extended_append (g : CallGraph) (first second : List GraphEdit) :
    g.extended (first ++ second) = (g.extended first).extended second := by
  simp only [extended, List.filterMap_append, List.append_assoc]

/-- A file with a new path replaces none. -/
theorem addFile_of_new {f : FileSummary} (h : g.files.any (·.filePath = f.filePath) = false) :
    g.addFile f = { g with files := g.files ++ [f] } := by
  have hkept : g.files.filter (·.filePath != f.filePath) = g.files := by
    rw [List.filter_eq_self]
    intro f' hf'
    have hne := List.any_eq_false.mp h f' hf'
    simpa using hne
  rw [addFile, hkept]

/-- **One accepted edit appends what it stands for.** -/
theorem apply_of_accepted (h : edit.accepted g = true) : edit.apply g = g.extended [edit] := by
  -- an accepted edit appends to one of the lists and touches no other
  cases edit with
  | file f =>
    rw [GraphEdit.apply, addFile_of_new (by simpa [GraphEdit.accepted] using h)]
    simp [extended, GraphEdit.declaration?, GraphEdit.edge?, GraphEdit.external?, GraphEdit.file?,
      GraphEdit.entry?]
  | declaration d =>
    have hnew : g.contains d.id = false := by simpa [GraphEdit.accepted] using h
    simp [GraphEdit.apply, addDeclaration, hnew, extended, GraphEdit.declaration?, GraphEdit.edge?,
      GraphEdit.external?, GraphEdit.file?, GraphEdit.entry?]
  | call source target data =>
    have hadmits : g.admitsCall source target = true := h
    simp [GraphEdit.apply, addCall, hadmits, extended, GraphEdit.declaration?, GraphEdit.edge?,
      GraphEdit.external?, GraphEdit.file?, GraphEdit.entry?]
  | external e =>
    have hadmits : g.admitsExternal e = true := h
    simp [GraphEdit.apply, addExternal, hadmits, extended, GraphEdit.declaration?, GraphEdit.edge?,
      GraphEdit.external?, GraphEdit.file?, GraphEdit.entry?]
  | bridge e handler => cases h
  | entry id =>
    have hadmits : (g.contains id && !g.entries.contains id) = true := h
    simp only [GraphEdit.apply, markEntry, hadmits, if_true]
    simp [extended, GraphEdit.declaration?, GraphEdit.edge?, GraphEdit.external?, GraphEdit.file?,
      GraphEdit.entry?]

/-- **A run of accepted edits appends what they stand for.** Induction on the edits. -/
theorem applyAll_of_acceptsAll (h : g.acceptsAll edits = true) :
    g.applyAll edits = g.extended edits := by
  induction edits generalizing g with
  | nil => simp [applyAll, extended]
  | cons edit rest ih =>
    obtain ⟨hedit, hrest⟩ := Bool.and_eq_true_iff.mp h
    rw [applyAll_cons, ih hrest, apply_of_accepted hedit, ← extended_append, List.singleton_append]

/-- Accepted files have different paths. -/
theorem paths_nodup_of_acceptsAll (hg : (g.files.map (·.filePath)).Nodup)
    (h : g.acceptsAll edits = true) : ((g.applyAll edits).files.map (·.filePath)).Nodup := by
  induction edits generalizing g with
  | nil => exact hg
  | cons edit rest ih =>
    obtain ⟨hedit, hrest⟩ := Bool.and_eq_true_iff.mp h
    refine ih ?_ hrest
    cases edit with
    | file f =>
      -- the accepted file has a path that is not taken
      have hnew : g.files.any (·.filePath = f.filePath) = false := by
        simpa [GraphEdit.accepted] using hedit
      have hadd := nodup_addByKey f hg
      rw [addByKey, hnew] at hadd
      rw [GraphEdit.apply, addFile_of_new hnew]
      exact hadd
    | declaration _ | call _ _ _ | external _ | bridge _ _ | entry _ =>
      rw [apply_of_accepted hedit]
      simpa [extended, List.filterMap_cons, GraphEdit.file?] using hg

/-- Accepted edits with distinct sites build a graph in which all keys differ. -/
theorem unambiguous_of_acceptsAll (h : ({} : CallGraph).acceptsAll edits = true)
    (hsites : ((edits.filterMap GraphEdit.external?).map ExternalEdge.site).Nodup) :
    (({} : CallGraph).applyAll edits).Unambiguous where
  toWellFormed := wellFormed_applyAll edits
  paths_nodup := paths_nodup_of_acceptsAll List.nodup_nil h
  sites_nodup := by
    rw [applyAll_of_acceptsAll h]
    exact hsites

/-- Two runs of the same accepted edits end in graphs that hold the same. -/
theorem alike_of_acceptsAll (hperm : edits.Perm edits') (h : g.acceptsAll edits = true)
    (h' : g.acceptsAll edits' = true) : (g.applyAll edits).Alike (g.applyAll edits') := by
  rw [applyAll_of_acceptsAll h, applyAll_of_acceptsAll h']
  constructor
  · exact (hperm.filterMap _).append_left _
  · exact (hperm.filterMap _).append_left _
  · exact (hperm.filterMap _).append_left _
  · exact (hperm.filterMap _).append_left _
  · exact (hperm.filterMap _).append_left _

/-- **No answer depends on the order of insertion.** Let two runs of the same edits be accepted
throughout, no two external edges being of one caller, line and target. Then all answers agree, and
they do so even if each of the two graphs enumerates what it holds in an order of its own. -/
theorem sameAnswers_of_perm (hperm : edits.Perm edits')
    (haccepted : ({} : CallGraph).acceptsAll edits = true)
    (haccepted' : ({} : CallGraph).acceptsAll edits' = true)
    (hsites : ((edits.filterMap GraphEdit.external?).map ExternalEdge.site).Nodup)
    {g g' : CallGraph} (hg : (({} : CallGraph).applyAll edits).Alike g)
    (hg' : (({} : CallGraph).applyAll edits').Alike g') : g.SameAnswers g' := by
  have hclear := unambiguous_of_acceptsAll haccepted hsites
  have hruns := alike_of_acceptsAll hperm haccepted haccepted'
  exact (hg.symm.trans (hruns.trans hg')).sameAnswers (hclear.of_alike hg)

/-- The small graph with its file and an entry point. -/
def wholeSample : List GraphEdit :=
  .file { filePath := "m.ts", layer := .utility, isComponent := false, isHook := false,
          isRouteHandler := false } ::
    sample ++ [.entry "page"]

/-- The same from behind, as far as ends come before edges. -/
def shuffledSample : List GraphEdit :=
  (wholeSample.take 6).reverse ++ (wholeSample.drop 6).reverse

theorem perm_shuffledSample : wholeSample.Perm shuffledSample := by
  have hback : shuffledSample.Perm (wholeSample.take 6 ++ wholeSample.drop 6) :=
    (List.reverse_perm _).append (List.reverse_perm _)
  rw [List.take_append_drop] at hback
  exact hback.symm

/-- Two different graphs, and no answer tells them apart. -/
theorem sameAnswers_of_perm_sample :
    ({} : CallGraph).applyAll wholeSample ≠ ({} : CallGraph).applyAll shuffledSample ∧
      (({} : CallGraph).applyAll wholeSample).SameAnswers
        (({} : CallGraph).applyAll shuffledSample) :=
  ⟨by decide,
    sameAnswers_of_perm perm_shuffledSample (by decide) (by decide) (by decide) (.refl _) (.refl _)⟩

end CallGraph

end CallAtlas
