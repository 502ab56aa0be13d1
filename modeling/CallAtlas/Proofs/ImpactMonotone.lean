import CallAtlas.Proofs.GraphRepresentation
import CallAtlas.Proofs.ImpactExact

/-!
# Proofs.ImpactMonotone — more calls never make a change less dangerous

One graph has more calls than another if it has the same declarations and entry points, and all the
edges of the other. Every chain of calls of the smaller graph is one of the larger graph, so
distances can only shrink, callers can only be added, and the risk, which looks at nothing else, can
only rise. A new edge may shorten many distances at once and may close cycles; none of this matters,
since distances are compared as least lengths of chains and not by the walks.

* `CallGraph.MoreCalls` — the relation between the two graphs, which `addCall` satisfies.
* `RiskPolicy.rank_assess_mono` — the policy, for any thresholds.
* `ImpactReport.compute_mono` — the reports.
-/

namespace CallAtlas

/-! ## Graphs with more calls -/

namespace CallGraph

/-- The second graph has all the calls of the first, between the same declarations. -/
structure MoreCalls (g g' : CallGraph) : Prop where
  nodes : g'.nodes = g.nodes
  entries : g'.entries = g.entries
  edges : g.edges.Sublist g'.edges

/-- Adding a call only adds calls, whether or not it is admitted. -/
theorem moreCalls_addCall (g : CallGraph) (source target : String) (data : EdgeData) :
    g.MoreCalls (g.addCall source target data) where
  nodes := addCall_nodes g source target data
  entries := addCall_entries g source target data
  edges := by
    unfold addCall
    split
    · exact List.sublist_append_left _ _
    · exact List.Sublist.refl _

namespace MoreCalls

variable {g g' : CallGraph}

theorem calls (h : g.MoreCalls g') {x y : String} (hcall : g.Calls x y) : g'.Calls x y := by
  obtain ⟨data, he⟩ := hcall
  exact ⟨data, h.edges.subset he⟩

/-- Chains of calls survive. -/
theorem chain (h : g.MoreCalls g') {n : Nat} {x y : String}
    (hchain : Chain g.Calls n x y) : Chain g'.Calls n x y :=
  hchain.mono fun _ _ => h.calls

theorem node? (h : g.MoreCalls g') : g'.node? = g.node? := by
  funext id
  rw [CallGraph.node?, CallGraph.node?, h.nodes]

/-- The entry points are unchanged. -/
theorem isEntryPoint (h : g.MoreCalls g') : g'.isEntryPoint = g.isEntryPoint := by
  funext id
  rw [CallGraph.isEntryPoint, CallGraph.isEntryPoint, h.entries]

/-- What a query means is a matter of the declarations. -/
theorem resolveTarget (h : g.MoreCalls g') (query : String) :
    g'.resolveTarget query = g.resolveTarget query := by
  simp only [CallGraph.resolveTarget, h.node?, candidates, findByName, declarations, h.nodes]

/-- Every edge into a declaration is still there. -/
theorem fanIn_le (h : g.MoreCalls g') (hg : g.WellFormed) (hg' : g'.WellFormed) (id : String) :
    g.fanIn id ≤ g'.fanIn id := by
  rw [fanIn_eq_countP hg, fanIn_eq_countP hg']
  exact h.edges.countP_le

end MoreCalls

end CallGraph

/-! ## The policy -/

/-- **Nearer and with more callers is no safer.** For every policy, whatever its thresholds are. -/
theorem RiskPolicy.rank_assess_mono (p : RiskPolicy) {distance distance' fanIn fanIn' : Nat}
    (hdistance : distance' ≤ distance) (hfanIn : fanIn ≤ fanIn') :
    (p.assess distance fanIn).rank ≤ (p.assess distance' fanIn').rank := by
  unfold assess
  by_cases hhigh : distance ≤ p.highDistance ∧ p.highFanIn ≤ fanIn
  · have hhigh' : distance' ≤ p.highDistance ∧ p.highFanIn ≤ fanIn' :=
      ⟨Nat.le_trans hdistance hhigh.1, Nat.le_trans hhigh.2 hfanIn⟩
    rw [if_pos hhigh, if_pos hhigh']
  · rw [if_neg hhigh]
    by_cases hmedium : distance ≤ p.mediumDistance
    · rw [if_pos hmedium, if_pos (Nat.le_trans hdistance hmedium)]
      split <;> decide
    · rw [if_neg hmedium]
      exact Nat.zero_le _

/-! ## Reports -/

namespace ImpactReport

variable {g g' : CallGraph} {settings : ImpactSettings} {featuresOf : Declaration → List Feature}
  {target : Declaration}

/-- The second is no farther away, has no fewer callers and is no safer. -/
structure NoSafer (a a' : AffectedNode) : Prop where
  distance : a'.distance ≤ a.distance
  fanIn : a.fanIn ≤ a'.fanIn
  risk : a.risk.rank ≤ a'.risk.rank

/-- A node that is no further away and has no fewer callers is assessed no safer. -/
theorem noSafer_affectedNode (hg : g.WellFormed) (hg' : g'.WellFormed) (hmore : g.MoreCalls g')
    (policy : RiskPolicy) {d d' : Declaration} (hid : d'.id = d.id) {n n' : Nat} (hn : n' ≤ n) :
    NoSafer (affectedNode g policy d n) (affectedNode g' policy d' n') := by
  have hfanIn : g.fanIn d.id ≤ g'.fanIn d'.id := by
    rw [hid]
    exact hmore.fanIn_le hg hg' d.id
  exact ⟨hn, hfanIn, policy.rank_assess_mono hn hfanIn⟩

/-- **What is affected stays affected, and is no safer.** -/
theorem affected_mono (hg : g.WellFormed) (hg' : g'.WellFormed) (hmore : g.MoreCalls g')
    (htarget : target ∈ g.nodes) (hvisits : g.nodes.length ≤ settings.limits.maxVisits)
    {a : AffectedNode} (ha : a ∈ (ofTarget g settings featuresOf target).affected) :
    (∃ a' ∈ (ofTarget g' settings featuresOf target).affected, a'.id = a.id) ∧
      ∀ a' ∈ (ofTarget g' settings featuresOf target).affected, a'.id = a.id → NoSafer a a' := by
  have hvisits' : g'.nodes.length ≤ settings.limits.maxVisits := by rw [hmore.nodes]; exact hvisits
  have htarget' : target ∈ g'.nodes := by rw [hmore.nodes]; exact htarget
  obtain ⟨d, hd, hne, n, hn, hleast, rfl⟩ := (mem_affected_of_room hg htarget hvisits).mp ha
  -- the old shortest chain is still there, so the new distance is no greater
  have hchain : Chain g'.Calls n d.id target.id := hmore.chain hleast.1
  constructor
  · obtain ⟨m, hm⟩ := Chain.exists_isLeast ⟨n, hchain⟩
    have hle : m ≤ n := hm.2 hchain
    have hd' : d ∈ g'.nodes := by rw [hmore.nodes]; exact hd
    exact ⟨_, (mem_affected_of_room hg' htarget' hvisits').mpr ⟨d, hd', hne, m, Nat.le_trans hle hn,
      hm, rfl⟩, rfl⟩
  · intro a' ha' hid
    obtain ⟨d', -, -, m, -, hm, rfl⟩ := (mem_affected_of_room hg' htarget' hvisits').mp ha'
    have hsame : d'.id = d.id := hid
    rw [hsame] at hm
    exact noSafer_affectedNode hg hg' hmore _ hsame (hm.2 hchain)

/-- The highest risk belongs to some affected declaration, which is still affected and no safer. -/
theorem highestRisk_mono (hg : g.WellFormed) (hg' : g'.WellFormed) (hmore : g.MoreCalls g')
    (htarget : target ∈ g.nodes) (hvisits : g.nodes.length ≤ settings.limits.maxVisits)
    {level : RiskLevel} (h : (ofTarget g settings featuresOf target).highestRisk = some level) :
    ∃ level', (ofTarget g' settings featuresOf target).highestRisk = some level' ∧
      level.rank ≤ level'.rank := by
  have hlevel : level ∈ (ofTarget g settings featuresOf target).affected.map (·.risk) :=
    RiskLevel.mem_of_highest? h
  obtain ⟨a, ha, rfl⟩ := List.mem_map.mp hlevel
  obtain ⟨⟨a', ha', hid⟩, hsafer⟩ := affected_mono hg hg' hmore htarget hvisits ha
  have hlevel' : a'.risk ∈ (ofTarget g' settings featuresOf target).affected.map (·.risk) :=
    List.mem_map_of_mem ha'
  obtain ⟨top, htop, hle⟩ := RiskLevel.exists_highest?_of_mem hlevel'
  exact ⟨top, htop, Nat.le_trans (hsafer a' ha' hid).risk hle⟩

/-- An affected entry point is the target or is affected, and either holds with more calls too. -/
theorem affectedEntryPoints_mono (hg : g.WellFormed) (hg' : g'.WellFormed) (hmore : g.MoreCalls g')
    (htarget : target ∈ g.nodes) (hvisits : g.nodes.length ≤ settings.limits.maxVisits) :
    (ofTarget g settings featuresOf target).affectedEntryPoints ⊆
      (ofTarget g' settings featuresOf target).affectedEntryPoints := by
  intro id hid
  obtain ⟨hentry, hwhere⟩ := mem_affectedEntryPoints.mp hid
  refine mem_affectedEntryPoints.mpr ⟨by rw [hmore.isEntryPoint]; exact hentry, ?_⟩
  rcases hwhere with rfl | ⟨a, ha, rfl⟩
  · exact Or.inl rfl
  · exact Or.inr (affected_mono hg hg' hmore htarget hvisits ha).1

/-- **More calls never make a change less dangerous.** On every graph that edits can build, for
every source of features, every query that means a declaration of it, and all settings that allow a
visit of each declaration: with a call added there still is a report on the same target. Whatever
was affected is so, no farther away, with no fewer callers and at no lower risk; the highest risk is
no lower; and no affected entry point is missing. -/
theorem compute_mono (edits : List GraphEdit) (settings : ImpactSettings)
    (featuresOf : Declaration → List Feature) (query : String) (target : Declaration)
    (source callee : String) (data : EdgeData)
    (hfound : (({} : CallGraph).applyAll edits).resolveTarget query = .ok target)
    (hvisits : (({} : CallGraph).applyAll edits).nodes.length ≤ settings.limits.maxVisits) :
    let g := ({} : CallGraph).applyAll edits
    ∃ r r', compute g settings featuresOf query = .ok r ∧
      compute (g.addCall source callee data) settings featuresOf query = .ok r' ∧
      r.targetId = target.id ∧ r'.targetId = target.id ∧
      (∀ a ∈ r.affected, (∃ a' ∈ r'.affected, a'.id = a.id) ∧
        ∀ a' ∈ r'.affected, a'.id = a.id →
          a'.distance ≤ a.distance ∧ a.fanIn ≤ a'.fanIn ∧ a.risk.rank ≤ a'.risk.rank) ∧
      (∀ level, r.highestRisk = some level →
        ∃ level', r'.highestRisk = some level' ∧ level.rank ≤ level'.rank) ∧
      r.affectedEntryPoints ⊆ r'.affectedEntryPoints := by
  intro g
  have hg : g.WellFormed := CallGraph.wellFormed_applyAll edits
  have hg' : (g.addCall source callee data).WellFormed := hg.addCall source callee data
  have hmore : g.MoreCalls (g.addCall source callee data) :=
    CallGraph.moreCalls_addCall g source callee data
  have htarget : target ∈ g.nodes := CallGraph.mem_nodes_of_resolveTarget hfound
  -- the query finds the same target, since names and ids are unchanged
  have hfound' : (g.addCall source callee data).resolveTarget query = .ok target := by
    rw [hmore.resolveTarget]
    exact hfound
  refine ⟨_, _, compute_of_found settings featuresOf hfound,
    compute_of_found settings featuresOf hfound', rfl, rfl, ?_, ?_, ?_⟩
  · intro a ha
    obtain ⟨hstill, hsafer⟩ := affected_mono hg hg' hmore htarget hvisits ha
    refine ⟨hstill, fun a' ha' hid => ?_⟩
    have h := hsafer a' ha' hid
    exact ⟨h.distance, h.fanIn, h.risk⟩
  · exact fun level => highestRisk_mono hg hg' hmore htarget hvisits
  · exact affectedEntryPoints_mono hg hg' hmore htarget hvisits

/-- Four functions in a row, each called by the next one. -/
def rowSample : List GraphEdit :=
  (["save", "retry", "page", "form"].map fun id => .declaration (CallGraph.sampleNode id)) ++
    [CallGraph.sampleCall "retry" "save" 2 false, CallGraph.sampleCall "page" "retry" 3 false,
      CallGraph.sampleCall "form" "page" 4 false]

/-- The last function of the row comes to `save` by three calls, and the highest risk of a change to
`save` is medium. With a call of `retry` added to it, it takes two, and `retry`, which then has two
callers, is at high risk. -/
theorem compute_mono_row :
    (({} : CallGraph).applyAll rowSample).resolveTarget "save" = .ok (CallGraph.sampleNode "save") ∧
      (({} : CallGraph).applyAll rowSample).nodes.length ≤ ({} : ImpactSettings).limits.maxVisits ∧
      ∃ r r', compute (({} : CallGraph).applyAll rowSample) {} (fun _ => []) "save" = .ok r ∧
        compute ((({} : CallGraph).applyAll rowSample).addCall "form" "retry"
          ⟨.calls, .direct, 9, {}⟩) {} (fun _ => []) "save" = .ok r' ∧
        r.affected.map (fun a => (a.id, a.distance, a.risk))
          = [("retry", 1, .medium), ("page", 2, .medium), ("form", 3, .low)] ∧
        (∃ a' ∈ r'.affected, a'.id = "form" ∧ a'.distance ≤ 3) ∧
        r.highestRisk = some .medium ∧ r'.highestRisk = some .high := by
  have hfound : (({} : CallGraph).applyAll rowSample).resolveTarget "save"
      = .ok (CallGraph.sampleNode "save") := by rfl
  have hvisits : (({} : CallGraph).applyAll rowSample).nodes.length
      ≤ ({} : ImpactSettings).limits.maxVisits := by
    decide
  obtain ⟨r, r', hr, hr', -, -, hmono, -, -⟩ :=
    compute_mono rowSample {} (fun _ => []) "save" _ "form" "retry" ⟨.calls, .direct, 9, {}⟩
      hfound hvisits
  have hrun : (compute (({} : CallGraph).applyAll rowSample) {} (fun _ => []) "save").map
      (fun r => (r.affected.map fun a => (a.id, a.distance, a.risk), r.highestRisk))
      = .ok ([("retry", 1, .medium), ("page", 2, .medium), ("form", 3, .low)], some .medium) := by
    cbv
  have hrun' : (compute ((({} : CallGraph).applyAll rowSample).addCall "form" "retry"
      ⟨.calls, .direct, 9, {}⟩) {} (fun _ => []) "save").map (·.highestRisk)
      = .ok (some .high) := by cbv
  rw [hr] at hrun
  rw [hr'] at hrun'
  obtain ⟨haffected, hhighest⟩ := Prod.mk.inj (Except.ok.inj hrun)
  -- the node that was furthest away before the call was added
  have hform : ("form", 3, RiskLevel.low) ∈ r.affected.map fun a => (a.id, a.distance, a.risk) := by
    rw [haffected]
    simp
  obtain ⟨a, ha, hentry⟩ := List.mem_map.mp hform
  obtain ⟨hid, hdistance, -⟩ : a.id = "form" ∧ a.distance = 3 ∧ a.risk = .low := by
    simpa using hentry
  obtain ⟨⟨a', ha', hsame⟩, hsafer⟩ := hmono a ha
  have hnear : a'.distance ≤ 3 := hdistance ▸ (hsafer a' ha' hsame).1
  exact ⟨hfound, hvisits, r, r', hr, hr', haffected, ⟨a', ha', hsame.trans hid, hnear⟩, hhighest,
    Except.ok.inj hrun'⟩

end ImpactReport

end CallAtlas
