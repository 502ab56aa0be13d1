import CallAtlas.ErrorFlow.Profile
import CallAtlas.Proofs.AssemblyExact
import CallAtlas.Proofs.ErrorTraceExact

/-!
# Proofs.FirstSite — the first site of a target speaks for all of them

Several sites of one caller with one target become one edge, and the edge keeps the flags of the
first of them. What the error analysis sees of an assembled graph is therefore decided by first
sites alone.

* `Registry.FirstOpen` — the first of some sites is not guarded.
* `CallGraph.mem_raiseSources_assemble` — a request or database call is a source of errors by its
  first site.
* `CallGraph.letsThrough_assemble` — an error passes from callee to caller by the first site that
  joins them.
* `CallGraph.site_seen_iff` — hence exactly which failures of a site are seen.
* `CallGraph.guarded_site_hides_open_site` — a guarded site hides the failures of every later site
  with its target, also of one that is not guarded.
-/

namespace CallAtlas

namespace Registry

variable {r : Registry}

/-- The first of the sites that satisfy `p` is not guarded. -/
def FirstOpen (r : Registry) (p : CallSite → Bool) : Prop :=
  ∃ s, r.sites.find? p = some s ∧ s.flags.guarded = false

/-- The first site with this caller, kind and shown target is not guarded. -/
def Raises (r : Registry) (caller : String) (kind : ExternalKind) (name : String) : Prop :=
  r.FirstOpen fun s => r.leavingKey? s = some (caller, kind, name)

/-- The first site that joins two declarations is not guarded. -/
def PassesOn (r : Registry) (caller callee : String) : Prop := r.FirstOpen (r.joins caller callee)

end Registry

/-- No request and no database call is shown as the word for a thrown error. -/
theorem CallSite.displayName_ne_throw {s : CallSite} (h : s.isExternal = true) :
    s.target.displayName ≠ "throw" := by
  intro hname
  have hchars := congrArg String.toList hname
  unfold isExternal at h
  cases htarget : s.target with
  | named name receiver => simp [htarget, CallTarget.isNamed] at h
  | http method path =>
    have hblank : ' ' ∈ "throw".toList := by
      rw [← hchars, htarget]
      simp [CallTarget.displayName]
    exact absurd hblank (by decide)
  | database client operation table =>
    have hdot : '.' ∈ "throw".toList := by
      rw [← hchars, htarget]
      cases table <;> simp [CallTarget.displayName]
    exact absurd hdot (by decide)

namespace CallGraph

/-! ## What is seen of the sites -/

/-- The sources of errors in a body: its own `throw`, and the calls that leave the code at a first
site without guard. -/
theorem mem_raiseSources_assemble {files : List FileAnalysis} {d : Declaration} {name : String} :
    name ∈ (assemble files).raiseSources d ↔
      d.errors.throws = true ∧ name = "throw" ∨
        ∃ kind, kind ≠ .unresolved ∧ (Registry.build files).Raises d.id kind name := by
  have hsources : name ∈ (assemble files).raiseSources d ↔
      d.errors.throws = true ∧ name = "throw" ∨
        ∃ e ∈ (assemble files).externals, e.callerId = d.id ∧ e.kind ≠ .unresolved ∧
          e.flags.guarded = false ∧
          e.target = name := by
    unfold raiseSources externalsFrom
    simp only [List.mem_append, List.mem_map, List.mem_filter, Order.mem_sortOn]
    refine or_congr ?_ ?_
    · cases d.errors.throws <;> simp
    · simp [and_assoc]
  rw [hsources]
  refine or_congr Iff.rfl ⟨?_, ?_⟩
  · rintro ⟨e, he, hcaller, hkind, hopen, rfl⟩
    obtain ⟨s, hfirst, -, -, -, hflags⟩ := first_site_of_mem_externals he
    refine ⟨e.kind, hkind, s, ?_, hflags ▸ hopen⟩
    rw [← hcaller]
    exact hfirst
  · rintro ⟨kind, hkind, s, hfirst, hopen⟩
    -- a first site has a key, and the edge with that key carries its flags
    have hkey : (Registry.build files).leavingKey? s = some (d.id, kind, name) := by
      simpa using List.find?_some hfirst
    have hmem := mem_assemble_keys.mpr ⟨s, List.mem_of_find?_eq_some hfirst, hkey⟩
    obtain ⟨e, he, hekey⟩ := List.mem_map.mp hmem
    obtain ⟨s', hfirst', -, -, -, hflags⟩ := first_site_of_mem_externals he
    rw [hekey, hfirst] at hfirst'
    obtain rfl : s = s' := Option.some.inj hfirst'
    obtain ⟨hcaller, hkind', htarget⟩ : e.callerId = d.id ∧ e.kind = kind ∧ e.target = name := by
      simpa [ExternalEdge.key] using hekey
    exact ⟨e, he, hcaller, hkind' ▸ hkind, hflags ▸ hopen, htarget⟩

/-- An error passes from callee to caller if the first site that joins them is not guarded. -/
theorem letsThrough_assemble {files : List FileAnalysis} :
    (assemble files).LetsThrough = (Registry.build files).PassesOn := by
  funext caller callee
  have hcalls := (accounts_assemble files).calls_iff caller callee
  refine propext ⟨?_, ?_⟩
  · rintro ⟨data, hedge, hkind, hopen⟩
    obtain ⟨s, hfirst, rfl⟩ := (hcalls data).mp ⟨hedge, hkind⟩
    exact ⟨s, hfirst, hopen⟩
  · rintro ⟨s, hfirst, hopen⟩
    obtain ⟨hedge, hkind⟩ := (hcalls (.ofSite s)).mpr ⟨s, hfirst, rfl⟩
    exact ⟨.ofSite s, hedge, hkind, hopen⟩

/-- A declaration of the registry is a node of the assembled graph. -/
theorem mem_nodes_assemble {files : List FileAnalysis} {d : Declaration}
    (h : d ∈ (Registry.build files).declarations) : d.id ∈ (assemble files).nodeIds := by
  rw [assemble_eq]
  exact mem_nodeIds_applyAll.mpr (Or.inl (mem_nodeIds_applyAll.mpr (Or.inl (mem_nodeIds_called h))))

/-- A trace can start from every registered id. Unless a limit cut it short, it reaches all callers
to which first sites without guard lead back. -/
theorem find_assemble {files : List FileAnalysis} {origin : Declaration}
    (h : origin ∈ (Registry.build files).declarations) (limits : TraversalLimits) :
    ∃ t, ErrorTrace.find (assemble files) limits origin.id = .ok t ∧
      (t.truncated = false → ∀ id, id ∈ recordedIds t.reached ↔
        id ≠ origin.id ∧ ∃ n, Chain (Registry.build files).PassesOn n id origin.id) := by
  obtain ⟨node, hnode, hid⟩ := exists_node?_of_mem (mem_nodes_assemble h)
  have hresult :=
    ErrorTrace.start_searchResult (wellFormed_assemble files) limits
      (List.mem_of_find?_eq_some hnode)
  refine ⟨ErrorTrace.start (assemble files) limits node, ?_, fun hcomplete id => ?_⟩
  · rw [ErrorTrace.find, resolveTarget_of_node? hnode]
    rfl
  · rw [hresult.mem_iff hcomplete, hid, letsThrough_assemble]

/-- **Which failures of a site are seen.** A request or a database call is among the sources of
errors of its caller exactly if the first site with its target is not guarded. A call that refers to
another declaration lets the errors of that one through to its caller exactly if first sites without
guard lead there, from the caller to the declaration, directly or by way of others. Whether the site
itself is guarded plays no part. -/
theorem site_seen_iff (files : List FileAnalysis) (s : CallSite) :
    (s.isExternal = true → ∀ d, d.id = s.callerId →
      (s.target.displayName ∈ (assemble files).raiseSources d ↔
        ∃ kind, kind ≠ .unresolved ∧
          (Registry.build files).Raises s.callerId kind s.target.displayName)) ∧
    (∀ callee, (Registry.build files).calleeId? s = some callee → callee ≠ s.callerId → ∀ limits,
      ∃ t, ErrorTrace.find (assemble files) limits callee = .ok t ∧
        (t.truncated = false → (s.callerId ∈ recordedIds t.reached ↔
          ∃ n, Chain (Registry.build files).PassesOn n s.callerId callee))) := by
  constructor
  · -- an external name is never the text that stands for a throw
    intro hexternal d hid
    rw [mem_raiseSources_assemble, hid]
    refine ⟨fun h => h.resolve_left ?_, Or.inr⟩
    exact fun hthrow => CallSite.displayName_ne_throw hexternal hthrow.2
  · intro callee hcallee hne limits
    obtain ⟨caller, -, hresolve⟩ := Option.bind_eq_some_iff.mp hcallee
    obtain ⟨d, hd, rfl⟩ := Option.map_eq_some_iff.mp hresolve
    obtain ⟨t, hfind, hreached⟩ :=
      find_assemble (Registry.mem_declarations_of_resolveCall? hd) limits
    refine ⟨t, hfind, fun hcomplete => ?_⟩
    rw [hreached hcomplete]
    exact and_iff_right hne.symm

/-! ## A file whose guarded sites come first

A page holds `load`, and `load` holds `save`. The body of `load` asks for the users twice and saves
twice, the first time inside a `try` and then without. -/

def maskedSite (caller : String) (target : CallTarget) (line : Nat) (guarded : Bool) : CallSite :=
  { callerId := "m.ts:" ++ caller, target, line, flags := { guarded } }

def maskedNode (name : String) (enclosing : Option String) : Declaration :=
  { id := "m.ts:" ++ name, name, kind := .function, exported := false, signature := "()",
    span := ⟨1, 9⟩, filePath := "m.ts", enclosing }

def maskedNodes : List Declaration :=
  [maskedNode "page" none, maskedNode "load" (some "m.ts:page"),
    maskedNode "save" (some "m.ts:load")]

def maskedSites : List CallSite :=
  [maskedSite "load" (.http .get "/api/users") 2 true,
    maskedSite "load" (.http .get "/api/users") 3 false, maskedSite "load" (.plain "save") 4 true,
      maskedSite "load" (.plain "save") 5 false,
    maskedSite "load" (.database "db" .insert (some "users")) 6 false,
      maskedSite "page" (.plain "load") 7 false]

def maskedFile : FileAnalysis :=
  { filePath := "m.ts", declarations := maskedNodes, calls := maskedSites }

/-- The graph of the file: two of its six sites are gone. -/
def maskedGraph : CallGraph where
  nodes := maskedFile.declarations
  edges := [⟨"m.ts:load", "m.ts:save", ⟨.calls, .direct, 4, { guarded := true }⟩⟩,
    ⟨"m.ts:page", "m.ts:load", ⟨.calls, .direct, 7, {}⟩⟩]
  externals :=
    [⟨"m.ts:load", .http, "GET /api/users", .http .get "/api/users", 2, { guarded := true }, none⟩,
      ⟨"m.ts:load", .database, "db.insert(users)",
        .database "db" .insert (some "users"), 6, {}, none⟩]
  files := [.ofAnalysis maskedFile]

theorem entryEdits_maskedGraph : entryEdits maskedGraph = [] := by
  -- only exported declarations are marked
  have hlocal : ∀ d ∈ maskedGraph.declarations, d.exported = false := by
    intro d hd
    have hall : ∀ d ∈ maskedNodes, d.exported = false := by decide
    exact hall d (Order.mem_sortOn.mp hd)
  rw [entryEdits, List.map_eq_nil_iff, List.filter_eq_nil_iff]
  intro d hd
  simp [isEntryCandidate, hlocal d hd]

/-- The sample file assembles to the sample graph: no bridge and no entry point. -/
theorem assemble_maskedFile : assemble [maskedFile] = maskedGraph := by
  have hcalled : called (Registry.build [maskedFile]) = maskedGraph := by cbv
  have hbridges : bridgeEdits (Registry.build [maskedFile]) maskedGraph = [] := by cbv
  have hnone : maskedGraph.applyAll [] = maskedGraph := rfl
  rw [assemble_eq, hcalled, hbridges, hnone, entryEdits_maskedGraph, hnone]

theorem raiseSources_maskedFile :
    (assemble [maskedFile]).raiseSources (maskedNode "load" (some "m.ts:page"))
      = ["db.insert(users)"] := by
  rw [assemble_maskedFile]
  cbv

/-- The database call of `load` is seen, and so is what it lets through to the page. -/
theorem site_seen_sample :
    "db.insert(users)" ∈ (assemble [maskedFile]).raiseSources
      (maskedNode "load" (some "m.ts:page")) ∧
      (∃ kind, kind ≠ .unresolved ∧
        (Registry.build [maskedFile]).Raises "m.ts:load" kind "db.insert(users)") ∧
      ErrorTrace.find (assemble [maskedFile]) ⟨9, 9⟩ "m.ts:load"
        = .ok ⟨"m.ts:load", [("m.ts:page", 1)], [], [], false⟩ ∧
      ∃ n, Chain (Registry.build [maskedFile]).PassesOn n "m.ts:page" "m.ts:load" := by
  have hraised : "db.insert(users)"
      ∈ (assemble [maskedFile]).raiseSources (maskedNode "load" (some "m.ts:page")) := by
    rw [raiseSources_maskedFile]
    exact List.mem_singleton_self _
  have hrun : ErrorTrace.find (assemble [maskedFile]) ⟨9, 9⟩ "m.ts:load"
      = .ok ⟨"m.ts:load", [("m.ts:page", 1)], [], [], false⟩ := by
    rw [assemble_maskedFile]
    cbv
  have hcallee : (Registry.build [maskedFile]).calleeId? (maskedSite "page" (.plain "load") 7 false)
      = some "m.ts:load" := by cbv
  -- one half at the database call, the other at the call of `load`
  obtain ⟨hsources, -⟩ :=
    site_seen_iff [maskedFile] (maskedSite "load" (.database "db" .insert (some "users")) 6 false)
  obtain ⟨-, htraces⟩ := site_seen_iff [maskedFile] (maskedSite "page" (.plain "load") 7 false)
  obtain ⟨t, hfind, hreached⟩ := htraces "m.ts:load" hcallee (by decide) ⟨9, 9⟩
  rw [hrun] at hfind
  cases hfind
  exact ⟨hraised, (hsources rfl (maskedNode "load" (some "m.ts:page")) rfl).mp hraised, hrun,
    (hreached rfl).mp (List.mem_singleton_self "m.ts:page")⟩

/-- **A guarded site hides the open sites behind it.** The second request of `load` is not guarded,
and `load` does not count as a source of its failure. The second call of `save` is not guarded
either, and a failure of `save` is said to end at `load`. -/
theorem guarded_site_hides_open_site :
    (∃ s ∈ (Registry.build [maskedFile]).sites, s.flags.guarded = false ∧ s.isExternal = true ∧
      s.callerId = (maskedNode "load" (some "m.ts:page")).id ∧
      s.target.displayName ∉ (assemble [maskedFile]).raiseSources
        (maskedNode "load" (some "m.ts:page"))) ∧
    (∃ s ∈ (Registry.build [maskedFile]).sites, s.flags.guarded = false ∧ s.callerId = "m.ts:load" ∧
      (Registry.build [maskedFile]).calleeId? s = some "m.ts:save" ∧
      ErrorTrace.find (assemble [maskedFile]) ⟨9, 9⟩ "m.ts:save"
        = .ok ⟨"m.ts:save", [], ["m.ts:load"], [], false⟩) := by
  have hsites : (Registry.build [maskedFile]).sites = maskedSites := by cbv
  have hrun : ErrorTrace.find (assemble [maskedFile]) ⟨9, 9⟩ "m.ts:save"
      = .ok ⟨"m.ts:save", [], ["m.ts:load"], [], false⟩ := by
    rw [assemble_maskedFile]
    cbv
  rw [hsites, raiseSources_maskedFile]
  constructor
  · exact ⟨maskedSite "load" (.http .get "/api/users") 3 false,
      by simp [maskedSites], rfl, rfl, rfl, by decide⟩
  · exact ⟨maskedSite "load" (.plain "save") 5 false, by simp [maskedSites], rfl, rfl, by cbv, hrun⟩

end CallGraph

end CallAtlas
