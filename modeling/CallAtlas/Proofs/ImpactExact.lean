import CallAtlas.Impact.Report
import CallAtlas.Proofs.ReachExact

/-!
# Proofs.ImpactExact — what an impact report lists

A report is put together from the callers that the bounded walk found. Here its parts are said in
terms of the graph, so that what is proved about reports need not look at the walk or at the
sorting.

* `RiskLevel.mem_of_highest?`, `RiskLevel.exists_highest?_of_mem` — the highest of some levels is
  one of them, and no lower than any.
* `mem_affected_of_room` — with visits for every declaration, the affected ones are those within the
  depth limit, each at its least distance.
* `mem_affectedEntryPoints_of_whole` — if no limit cut the walk short, the affected entry points are
  all that lead to the target.
-/

namespace CallAtlas

/-! ## Levels -/

namespace RiskLevel

/-- The greater of two levels has the greater of the two ranks. -/
theorem rank_max (a b : RiskLevel) : (max a b).rank = Nat.max a.rank b.rank := by
  cases a <;> cases b <;> rfl

theorem max_eq_or (a b : RiskLevel) : max a b = a ∨ max a b = b := by
  unfold max
  split
  · exact Or.inr rfl
  · exact Or.inl rfl

/-- The highest of some levels is one of them. -/
theorem foldl_max_mem (a : RiskLevel) (rest : List RiskLevel) : rest.foldl max a ∈ a :: rest := by
  induction rest generalizing a with
  | nil => exact List.mem_singleton_self a
  | cons b rest ih =>
    rw [List.foldl_cons]
    rcases List.mem_cons.mp (ih (max a b)) with htop | htop
    · rw [htop]
      rcases max_eq_or a b with h | h
      · rw [h]
        exact List.mem_cons_self
      · rw [h]
        exact List.mem_cons_of_mem a List.mem_cons_self
    · exact List.mem_cons_of_mem a (List.mem_cons_of_mem b htop)

/-- No level is above the highest. -/
theorem rank_le_foldl_max {a level : RiskLevel} {rest : List RiskLevel} (h : level ∈ a :: rest) :
    level.rank ≤ (rest.foldl max a).rank := by
  induction rest generalizing a level with
  | nil =>
    obtain rfl := List.mem_singleton.mp h
    exact Nat.le_refl _
  | cons b rest ih =>
    have hmax : (max a b).rank ≤ (rest.foldl max (max a b)).rank := ih List.mem_cons_self
    rw [rank_max] at hmax
    rw [List.foldl_cons]
    rcases List.mem_cons.mp h with rfl | h
    · exact Nat.le_trans (Nat.le_max_left _ _) hmax
    · rcases List.mem_cons.mp h with rfl | h
      · exact Nat.le_trans (Nat.le_max_right _ _) hmax
      · exact ih (List.mem_cons_of_mem _ h)

theorem mem_of_highest? {levels : List RiskLevel} {top : RiskLevel}
    (h : highest? levels = some top) : top ∈ levels := by
  cases levels with
  | nil => cases h
  | cons a rest =>
    obtain rfl := Option.some.inj h
    exact foldl_max_mem a rest

/-- Where there is a level there is a highest one. -/
theorem exists_highest?_of_mem {levels : List RiskLevel} {level : RiskLevel} (h : level ∈ levels) :
    ∃ top, highest? levels = some top ∧ level.rank ≤ top.rank := by
  cases levels with
  | nil => cases h
  | cons a rest => exact ⟨_, rfl, rank_le_foldl_max h⟩

end RiskLevel

/-! ## Reports -/

namespace ImpactReport

variable {g : CallGraph} {settings : ImpactSettings} {featuresOf : Declaration → List Feature}
  {target : Declaration}

theorem compute_of_found (settings : ImpactSettings) (featuresOf : Declaration → List Feature)
    {query : String} (h : g.resolveTarget query = .ok target) :
    compute g settings featuresOf query = .ok (ofTarget g settings featuresOf target) := by
  rw [compute, h]
  rfl

/-- The affected declarations are the nodes that the walk has reached. -/
theorem mem_affected (hg : g.WellFormed) {a : AffectedNode} :
    a ∈ (ofTarget g settings featuresOf target).affected ↔
      ∃ d ∈ g.nodes, ∃ n, (d.id, n) ∈ (Reach.callersOf g settings.limits target.id).reached ∧
        a = affectedNode g settings.toRiskPolicy d n := by
  simp only [ofTarget, List.mem_map, Order.mem_sortOn, List.mem_filterMap,
    Option.map_eq_some_iff, Prod.exists, Prod.mk.injEq]
  constructor
  · rintro ⟨d, n, ⟨id, n', hreached, d', hnode, rfl, rfl⟩, rfl⟩
    obtain ⟨hd, rfl⟩ := (CallGraph.node?_eq_some_iff hg).mp hnode
    exact ⟨d', hd, n', hreached, rfl⟩
  · rintro ⟨d, hd, n, hreached, rfl⟩
    exact ⟨d, n,
      ⟨d.id, n, hreached, d, (CallGraph.node?_eq_some_iff hg).mpr ⟨hd, rfl⟩, rfl, rfl⟩, rfl⟩

/-- The affected nodes come from a breadth first search along the callers. -/
theorem searchResult_of_mem (hg : g.WellFormed) (limits : TraversalLimits)
    (htarget : target ∈ g.nodes) :
    SearchResult g.Calls limits target.id (Reach.callersOf g limits target.id).reached
      (Reach.callersOf g limits target.id).truncated :=
  Reach.callersOf_searchResult hg limits (CallGraph.contains_iff.mpr (List.mem_map_of_mem htarget))

/-- What leads to a node by calls is a node. -/
theorem exists_node_of_chain (hg : g.WellFormed) (htarget : target ∈ g.nodes) {n : Nat}
    {id : String} (h : Chain g.Calls n id target.id) : ∃ d ∈ g.nodes, d.id = id := by
  refine List.mem_map.mp (h.mem_of_closed (S := (· ∈ g.nodeIds)) ?_ (List.mem_map_of_mem htarget))
  rintro _ _ _ ⟨_, he⟩
  exact (hg.ends_known _ he).1

/-- **With visits for every declaration only the depth limit counts.** The affected declarations are
those other than the target that lead to it within the limit, each at its least distance. -/
theorem mem_affected_of_room (hg : g.WellFormed) (htarget : target ∈ g.nodes)
    (hvisits : g.nodes.length ≤ settings.limits.maxVisits) {a : AffectedNode} :
    a ∈ (ofTarget g settings featuresOf target).affected ↔
      ∃ d ∈ g.nodes, d.id ≠ target.id ∧ ∃ n ≤ settings.limits.maxDepth,
        IsLeast {k | Chain g.Calls k d.id target.id} n ∧
          a = affectedNode g settings.toRiskPolicy d n := by
  have hr := searchResult_of_mem hg settings.limits htarget
  have hroom : (Reach.callersOf g settings.limits target.id).reached.length
      < settings.limits.maxVisits := by
    have hlt : (Reach.callersOf g settings.limits target.id).reached.length < g.nodeIds.length :=
      hr.length_lt (List.mem_map_of_mem htarget) fun _ _ ⟨_, he⟩ => (hg.ends_known _ he).1
    rw [CallGraph.nodeIds, List.length_map] at hlt
    exact Nat.lt_of_lt_of_le hlt hvisits
  rw [mem_affected hg]
  refine exists_congr fun d => and_congr_right fun hd => ?_
  constructor
  · rintro ⟨n, hreached, rfl⟩
    have hne := ((hr.mem_iff_of_room hroom).mp (mem_recordedIds.mpr ⟨n, hreached⟩)).1
    exact ⟨hne, n, hr.depth_le _ hreached, hr.isLeast _ hreached, rfl⟩
  · rintro ⟨hne, n, hn, hleast, rfl⟩
    -- the distance that was recorded is the least one too
    obtain ⟨m, hm⟩ := mem_recordedIds.mp ((hr.mem_iff_of_room hroom).mpr ⟨hne, n, hn, hleast⟩)
    obtain rfl : m = n :=
      Nat.le_antisymm ((hr.isLeast _ hm).2 hleast.1) (hleast.2 (hr.isLeast _ hm).1)
    exact ⟨m, hm, rfl⟩

/-- Every id that the walk has reached is that of a node, so it is affected. -/
theorem mem_affected_ids (hg : g.WellFormed) (htarget : target ∈ g.nodes) {id : String} :
    (∃ a ∈ (ofTarget g settings featuresOf target).affected, a.id = id) ↔
      id ∈ recordedIds (Reach.callersOf g settings.limits target.id).reached := by
  rw [mem_recordedIds]
  constructor
  · rintro ⟨a, ha, rfl⟩
    obtain ⟨d, -, n, hreached, rfl⟩ := (mem_affected hg).mp ha
    exact ⟨n, hreached⟩
  · rintro ⟨n, hreached⟩
    have hchain := ((searchResult_of_mem hg settings.limits htarget).isLeast _ hreached).1
    obtain ⟨d, hd, rfl⟩ := exists_node_of_chain hg htarget hchain
    exact ⟨_, (mem_affected hg).mpr ⟨d, hd, n, hreached, rfl⟩, rfl⟩

/-- The affected entry points are the target and the affected nodes, as far as they are entries. -/
theorem mem_affectedEntryPoints {id : String} :
    id ∈ (ofTarget g settings featuresOf target).affectedEntryPoints ↔
      g.isEntryPoint id = true ∧
        (id = target.id ∨ ∃ a ∈ (ofTarget g settings featuresOf target).affected, a.id = id) := by
  have hlisted : (ofTarget g settings featuresOf target).affectedEntryPoints
      = Text.sort ((target.id :: (ofTarget g settings featuresOf target).affected.map (·.id)).filter
          g.isEntryPoint) := rfl
  rw [hlisted, Text.mem_sort, List.mem_filter, List.mem_cons, List.mem_map, and_comm]

/-- **A report that no limit cut short names every entry point that leads to the target.** -/
theorem mem_affectedEntryPoints_of_whole (hg : g.WellFormed) (htarget : target ∈ g.nodes)
    (hwhole : (ofTarget g settings featuresOf target).truncated = false) {id : String} :
    id ∈ (ofTarget g settings featuresOf target).affectedEntryPoints ↔
      g.isEntryPoint id = true ∧ ∃ n, Chain g.Calls n id target.id := by
  rw [mem_affectedEntryPoints, mem_affected_ids hg htarget,
    (searchResult_of_mem hg settings.limits htarget).mem_iff hwhole]
  refine and_congr_right fun _ => ?_
  by_cases hid : id = target.id
  · rw [hid]
    exact iff_of_true (Or.inl rfl) ⟨0, .refl target.id⟩
  · simp [hid]

end ImpactReport

end CallAtlas
