import CallAtlas.Proofs.AssemblyExact
import CallAtlas.Proofs.EntryRoutes
import CallAtlas.Proofs.ImpactExact

/-!
# Proofs.EntryAgreement — when the paths and the report name the same entry points

Both queries look for the entry points from which calls lead to a declaration. The report goes on
behind an entry point, a path ends there. So they differ about the entry points that come to the
declaration through another one only.

* `CallGraph.kind_of_entry_called` — in the graph of some files an entry point is called by nothing
  but itself. What leads to one from elsewhere is a request.
* `EntryPaths.ends_eq_affected_iff` — what the paths end at, and exactly when that is what the
  report lists.
* `EntryPaths.screen_behind_handler_unlisted` — a screen whose request is served by an entry point
  is in the report, and no path ends there.
-/

namespace CallAtlas

/-! ## Entry points of assembled graphs -/

namespace CallGraph

variable {files : List FileAnalysis}

/-- Before bridging no declaration is marked as an entry point. -/
theorem called_entries (r : Registry) {id : String} : id ∉ (called r).entries := by
  intro hid
  rcases mem_entries_applyAll hid with hid | ⟨edit, hedit, hmarked⟩
  · cases hid
  · -- neither the edits of a file nor those of its calls mark an entry
    rcases List.mem_append.mp hedit with hedit | hedit
    · obtain ⟨f, -, hedit⟩ := List.mem_flatMap.mp hedit
      rcases List.mem_cons.mp hedit with rfl | hedit
      · cases hmarked
      · obtain ⟨d, -, rfl⟩ := List.mem_map.mp hedit
        cases hmarked
    · rcases Registry.mem_callEdits_cases hedit
        with ⟨source, target, data, rfl⟩ | ⟨e, rfl⟩ <;> cases hmarked

/-- Entry points are marked at the end, among what has no direct callers. -/
theorem hasDirectCallers_of_isEntryPoint {id : String}
    (h : (assemble files).isEntryPoint id = true) :
    (assemble files).hasDirectCallers id = false := by
  let bridged :=
    (called (.build files)).applyAll (bridgeEdits (.build files) (called (.build files)))
  have hedges : (assemble files).edges = bridged.edges :=
    edges_applyAll_of_none fun edit he => (entryEdits_plain bridged edit he).1
  rw [hasDirectCallers, hedges]
  rw [isEntryPoint, List.contains_iff_mem] at h
  rcases mem_entries_applyAll h with hbridged | ⟨edit, hedit, hmarked⟩
  · -- no edit before marks anything
    rcases mem_entries_applyAll hbridged with hcalled | ⟨edit, hedit, hmarked⟩
    · exact absurd hcalled (called_entries _)
    · rw [bridgeEdits_eq] at hedit
      obtain ⟨e, -, he⟩ := List.mem_filterMap.mp hedit
      obtain ⟨handler, -, rfl⟩ := Option.map_eq_some_iff.mp he
      cases hmarked
  · -- the test was made on the graph before the marks, which has the same edges
    obtain ⟨d, hd, rfl⟩ := List.mem_map.mp hedit
    obtain rfl : d.id = id := Option.some.inj hmarked
    have hcandidate := (List.mem_filter.mp hd).2
    rw [Bool.and_eq_true, Bool.not_eq_true'] at hcandidate
    exact hcandidate.2

/-- **What leads to an entry point.** An edge from another declaration is a request. -/
theorem kind_of_entry_called {e : Edge} (he : e ∈ (assemble files).edges)
    (hentry : (assemble files).isEntryPoint e.target = true) (hother : e.source ≠ e.target) :
    e.data.kind = .apiRequest := by
  have hnone := List.any_eq_false.mp (hasDirectCallers_of_isEntryPoint hentry) e he
  cases hkind : e.data.kind with
  | apiRequest => rfl
  | calls => exact absurd (by simp [hkind, hother]) hnone

/-- A chain on which an entry point is called by itself only goes without these calls. -/
theorem exists_inside_chain {g : CallGraph} {target : String}
    (hinside : ∀ caller callee, g.Calls caller callee →
      caller = callee ∨ g.isEntryPoint callee = false)
    {n : Nat} {id : String} (h : Chain g.Calls n id target) :
    ∃ m, Chain g.CallsInside m id target := by
  induction h with
  | refl target => exact ⟨0, .refl target⟩
  | step hcall _ ih =>
    obtain ⟨m, hchain⟩ := ih
    rcases hinside _ _ hcall with rfl | hopen
    · -- the rest of the chain starts where this call does
      exact ⟨m, hchain⟩
    · exact ⟨m + 1, .step ⟨hcall, hopen⟩ hchain⟩

/-- **Without requests to entry points every chain stays inside.** -/
theorem exists_inside_chain_of_no_request
    (hrequests : ∀ e ∈ (assemble files).edges, e.data.kind = .apiRequest →
      (assemble files).isEntryPoint e.target = false)
    {n : Nat} {id target : String} (h : Chain (assemble files).Calls n id target) :
    ∃ m, Chain (assemble files).CallsInside m id target := by
  refine exists_inside_chain ?_ h
  rintro caller callee ⟨data, he⟩
  by_cases hentry : (assemble files).isEntryPoint callee = true
  · by_cases hself : caller = callee
    · exact Or.inl hself
    · exact Or.inr (hrequests _ he (kind_of_entry_called he hentry hself))
  · exact Or.inr (Bool.eq_false_iff.mpr hentry)

end CallGraph

/-! ## The two queries -/

namespace EntryPaths

/-- One of the paths ends at an id. -/
def EndsAt (p : EntryPaths) (id : String) : Prop := ∃ path ∈ p.paths, path.getLast? = some id

/-- **What the paths end at.** If no limit cut the search short: the entry points from which a chain
of calls leads to the target without passing another one. -/
theorem exists_find {g : CallGraph} (hg : g.WellFormed) (limits : TraversalLimits) {query : String}
    {target : Declaration} (hfound : g.resolveTarget query = .ok target) :
    ∃ p, find g limits query = .ok p ∧ (p.truncated = false →
      ∀ id, p.EndsAt id ↔ g.isEntryPoint id = true ∧ ∃ n, Chain g.CallsInside n id target.id) := by
  obtain ⟨p, hp, hsound, hcomplete⟩ := find_traced hg limits hfound
  refine ⟨p, hp, fun hwhole id => ?_⟩
  rw [← exists_arrives_iff]
  constructor
  · rintro ⟨path, hpath, hlast⟩
    exact ⟨path.reverse, hsound path hpath, by rw [List.head?_reverse, hlast]⟩
  · rintro ⟨route, harrives, hhead⟩
    exact ⟨route.reverse, hcomplete hwhole route harrives, by rw [List.getLast?_reverse, hhead]⟩

/-- **When paths and report name the same entry points.** Every query that means a declaration of an
assembled graph is answered by both. If neither was cut short, the paths end at those of the entry
points in the report from which a chain of calls leads to the declaration without passing another
entry point. So all of them are named by both exactly if each entry point that comes to the
declaration at all does so without passing another one, and this is so if no request ends at an
entry point. -/
theorem ends_eq_affected_iff (files : List FileAnalysis) (limits : TraversalLimits)
    (settings : ImpactSettings) (featuresOf : Declaration → List Feature) (query : String)
    (target : Declaration) (hfound : (CallGraph.assemble files).resolveTarget query = .ok target) :
    let g := CallGraph.assemble files
    ∃ p r, find g limits query = .ok p ∧ ImpactReport.compute g settings featuresOf query = .ok r ∧
      (p.truncated = false → r.truncated = false →
        (∀ id, p.EndsAt id ↔ id ∈ r.affectedEntryPoints ∧ ∃ n, Chain g.CallsInside n id target.id) ∧
        ((∀ id, p.EndsAt id ↔ id ∈ r.affectedEntryPoints) ↔
          ∀ id, g.isEntryPoint id = true → (∃ n, Chain g.Calls n id target.id) →
            ∃ n, Chain g.CallsInside n id target.id) ∧
        ((∀ e ∈ g.edges, e.data.kind = .apiRequest → g.isEntryPoint e.target = false) →
          ∀ id, p.EndsAt id ↔ id ∈ r.affectedEntryPoints)) := by
  intro g
  have hg : g.WellFormed := CallGraph.wellFormed_assemble files
  have htarget : target ∈ g.nodes := CallGraph.mem_nodes_of_resolveTarget hfound
  obtain ⟨p, hp, hends⟩ := exists_find hg limits hfound
  refine ⟨p, _, hp, ImpactReport.compute_of_found settings featuresOf hfound,
    fun hpaths hreport => ?_⟩
  have hlisted (id : String) :=
    @ImpactReport.mem_affectedEntryPoints_of_whole _ _ _ _ hg htarget hreport id
  -- the report counts all chains of calls, the paths only those inside, which are among them
  have hboth : ∀ id, p.EndsAt id ↔
      id ∈ (ImpactReport.ofTarget g settings featuresOf target).affectedEntryPoints ∧
        ∃ n, Chain g.CallsInside n id target.id := by
    intro id
    rw [hends hpaths, hlisted]
    constructor
    · rintro ⟨hentry, n, hchain⟩
      exact ⟨⟨hentry, n, hchain.mono fun _ _ hcall => hcall.1⟩, n, hchain⟩
    · rintro ⟨⟨hentry, -⟩, hchain⟩
      exact ⟨hentry, hchain⟩
  have hagree : (∀ id, p.EndsAt id ↔
        id ∈ (ImpactReport.ofTarget g settings featuresOf target).affectedEntryPoints) ↔
      ∀ id, g.isEntryPoint id = true → (∃ n, Chain g.Calls n id target.id) →
        ∃ n, Chain g.CallsInside n id target.id := by
    constructor
    · intro hsame id hentry hchain
      exact ((hboth id).mp ((hsame id).mpr ((hlisted id).mpr ⟨hentry, hchain⟩))).2
    · intro hinside id
      rw [hboth]
      refine and_iff_left_of_imp fun hmem => ?_
      obtain ⟨hentry, hchain⟩ := (hlisted id).mp hmem
      exact hinside id hentry hchain
  refine ⟨hboth, hagree, fun hrequests => hagree.mpr ?_⟩
  rintro id - ⟨n, hchain⟩
  exact CallGraph.exists_inside_chain_of_no_request hrequests hchain

/-! A screen asks for the stock. The request is served by a handler that counts. -/

def stockScreen : Declaration :=
  { id := "app/Stock.tsx:Stock", name := "Stock", kind := .function, exported := true,
    signature := "()"
    span := ⟨1, 1⟩, filePath := "app/Stock.tsx", returnsUi := true }

def stockHandler : Declaration :=
  { id := "app/api/stock/route.ts:GET", name := "GET", kind := .function, exported := true,
    signature := "()"
    span := ⟨1, 1⟩, filePath := "app/api/stock/route.ts" }

def stockCount : Declaration :=
  { id := "app/api/stock/route.ts:count", name := "count", kind := .function, exported := false,
    signature := "()"
    span := ⟨2, 2⟩, filePath := "app/api/stock/route.ts" }

def stockFiles : List FileAnalysis :=
  [{ filePath := "app/Stock.tsx", layer := .component, isComponent := true, hasJsx := true
     declarations := [stockScreen]
     calls := [{ callerId := "app/Stock.tsx:Stock", target := .http .get "/api/stock",
                 line := 1 }] },
    { filePath := "app/api/stock/route.ts", layer := .routeHandler, isRouteHandler := true
      declarations := [stockHandler, stockCount]
      calls := [{ callerId := "app/api/stock/route.ts:GET", target := .named "count" none,
                  line := 1 }] }]

def stockGraph : CallGraph where
  nodes := [stockScreen, stockHandler, stockCount]
  edges :=
    [⟨"app/api/stock/route.ts:GET", "app/api/stock/route.ts:count", ⟨.calls, .direct, 1, {}⟩⟩,
      ⟨"app/Stock.tsx:Stock", "app/api/stock/route.ts:GET", ⟨.apiRequest, .direct, 1, {}⟩⟩]
  externals := [⟨"app/Stock.tsx:Stock", .http, "GET /api/stock", .http .get "/api/stock", 1, {},
    some "app/api/stock/route.ts:GET"⟩]
  files := stockFiles.map .ofAnalysis
  entries := ["app/Stock.tsx:Stock", "app/api/stock/route.ts:GET"]

/-- The sample files assemble to the sample graph, stage by stage. -/
theorem assemble_stockFiles : CallGraph.assemble stockFiles = stockGraph := by
  have hbuild : Registry.build stockFiles = ⟨stockFiles⟩ :=
    congrArg Registry.mk (List.mergeSort_of_pairwise (by decide))
  have hbridged : (CallGraph.called ⟨stockFiles⟩).applyAll
      (CallGraph.bridgeEdits ⟨stockFiles⟩ (CallGraph.called ⟨stockFiles⟩))
        = { stockGraph with entries := [] } := by
    decide +kernel
  have hdeclarations : ({ stockGraph with entries := [] } : CallGraph).declarations
      = stockGraph.nodes :=
    List.mergeSort_of_pairwise (by decide)
  have hentries : CallGraph.entryEdits { stockGraph with entries := [] }
      = stockGraph.entries.map .entry := by
    rw [CallGraph.entryEdits, hdeclarations]
    decide +kernel
  rw [CallGraph.assemble_eq, hbuild, hbridged, hentries]
  rfl

/-- The sample has a single path to an entry point. -/
theorem find_stock : find (CallGraph.assemble stockFiles) {} "app/api/stock/route.ts:count"
    = .ok ⟨[["app/api/stock/route.ts:count", "app/api/stock/route.ts:GET"]], false⟩ := by
  rw [assemble_stockFiles]
  decide +kernel

theorem resolveTarget_stock :
    (CallGraph.assemble stockFiles).resolveTarget "app/api/stock/route.ts:count"
      = .ok stockCount := by
  rw [assemble_stockFiles]
  exact CallGraph.resolveTarget_of_node? (by decide)

theorem report_stock_whole :
    (ImpactReport.ofTarget (CallGraph.assemble stockFiles) {} (fun _ => []) stockCount).truncated
      = false := by
  rw [assemble_stockFiles]
  decide +kernel

/-- The handler counts, without an entry point on the way. From the screen there is no such way,
since its only call is the request to the handler. -/
theorem ends_eq_affected_iff_stock :
    (CallGraph.assemble stockFiles).resolveTarget "app/api/stock/route.ts:count" = .ok stockCount ∧
      ∃ p r, find (CallGraph.assemble stockFiles) {} "app/api/stock/route.ts:count" = .ok p ∧
        ImpactReport.compute (CallGraph.assemble stockFiles) {}
          (fun _ => []) "app/api/stock/route.ts:count" = .ok r ∧
        p.truncated = false ∧ r.truncated = false ∧
        "app/api/stock/route.ts:GET" ∈ r.affectedEntryPoints ∧
        p.EndsAt "app/api/stock/route.ts:GET" ∧
        ¬ p.EndsAt "app/Stock.tsx:Stock" := by
  obtain ⟨p, r, hp, hr, hboth⟩ :=
    ends_eq_affected_iff stockFiles {} {} (fun _ => []) _ _ resolveTarget_stock
  obtain rfl : _ = p := Except.ok.inj (find_stock.symm.trans hp)
  have hreport := ImpactReport.compute_of_found {} (fun _ => []) resolveTarget_stock
  obtain rfl : _ = r := Except.ok.inj (hreport.symm.trans hr)
  have hends := (hboth rfl report_stock_whole).1
  have hhandler : EndsAt ⟨[["app/api/stock/route.ts:count", "app/api/stock/route.ts:GET"]], false⟩
      "app/api/stock/route.ts:GET" := ⟨_, List.mem_singleton_self _, rfl⟩
  refine ⟨resolveTarget_stock, _, _, hp, hr, rfl, report_stock_whole,
    ((hends _).mp hhandler).1, hhandler, ?_⟩
  -- the screen calls entry points only, so no chain of inner calls starts at it
  intro hscreen
  obtain ⟨n, hchain⟩ := ((hends _).mp hscreen).2
  rw [assemble_stockFiles] at hchain
  have hleaves : ∀ e ∈ stockGraph.edges, e.source = "app/Stock.tsx:Stock" →
      stockGraph.isEntryPoint e.target = true := by decide
  cases n with
  | zero => exact absurd hchain.eq_of_zero (by decide)
  | succ n =>
    obtain _ | ⟨⟨⟨data, he⟩, hinside⟩, -⟩ := hchain
    rw [hleaves _ he rfl] at hinside
    cases hinside

/-- **A screen behind a handler.** The request of the screen leads to the counting, and the report
on it names the screen. The paths end at the handler, which is an entry point itself. -/
theorem screen_behind_handler_unlisted :
    ∃ p r, find (CallGraph.assemble stockFiles) {} "app/api/stock/route.ts:count" = .ok p ∧
      ImpactReport.compute (CallGraph.assemble stockFiles) {}
        (fun _ => []) "app/api/stock/route.ts:count" = .ok r ∧
      p.truncated = false ∧ r.truncated = false ∧
      "app/Stock.tsx:Stock" ∈ r.affectedEntryPoints ∧ ¬ p.EndsAt "app/Stock.tsx:Stock" := by
  have hg : (CallGraph.assemble stockFiles).WellFormed := CallGraph.wellFormed_assemble stockFiles
  have htarget := CallGraph.mem_nodes_of_resolveTarget resolveTarget_stock
  refine ⟨_, _, find_stock, ImpactReport.compute_of_found {} _ resolveTarget_stock, rfl,
    report_stock_whole, ?_, ?_⟩
  · rw [ImpactReport.mem_affectedEntryPoints_of_whole hg htarget report_stock_whole,
      assemble_stockFiles]
    -- the screen requests the handler, which calls the target
    have hrequest : stockGraph.Calls "app/Stock.tsx:Stock" "app/api/stock/route.ts:GET" :=
      ⟨⟨.apiRequest, .direct, 1, {}⟩, by decide⟩
    have hcall : stockGraph.Calls "app/api/stock/route.ts:GET" stockCount.id :=
      ⟨⟨.calls, .direct, 1, {}⟩, by decide⟩
    exact ⟨by decide, 2, .step hrequest (.step hcall (.refl _))⟩
  · rintro ⟨path, hpath, hlast⟩
    obtain rfl := List.mem_singleton.mp hpath
    exact absurd hlast (by decide)

end EntryPaths

end CallAtlas
