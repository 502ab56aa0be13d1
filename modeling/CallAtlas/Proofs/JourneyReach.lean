import CallAtlas.Proofs.JourneyListing
import CallAtlas.Proofs.ReachExact

/-!
# Proofs.JourneyReach — a journey meets what is reached backwards

A journey lists the paths from an entry on that do not close a loop, depth first and with a path of
its own for each branch. The callers of a declaration are searched for breadth first, with one set
of what was seen. Both are compared with the chains of calls from the entry to the declaration.

* `chain_of_mem_listing` — a stop at some depth stands for a chain of that length.
* `mem_listing_of_isLeast` — a shortest chain is listed. No declaration on the path that leads to
  its start is as near to its end as the start is, so the chain never meets the path; and nothing is
  cut off below it.
* `visitsAt_iff_callersOf` — hence the journey and the search agree on what is reached and on the
  least depth.
-/

namespace CallAtlas

/-- The rest of a shortest chain is shortest too. -/
theorem Chain.isLeast_of_step {R : String → String → Prop} {n : Nat} {a b c : String}
    (hleast : IsLeast {k | Chain R k a c} (n + 1)) (hstep : R a b) (hrest : Chain R n b c) :
    IsLeast {k | Chain R k b c} n := by
  refine ⟨hrest, fun k hk => ?_⟩
  have hle : n + 1 ≤ k + 1 := hleast.2 (Chain.step hstep hk)
  omega

namespace Journey

variable {g : CallGraph} {settings : JourneySettings}

/-- The id of the declaration that an item stands for. -/
def Item.id? : Item → Option String
  | inner d _ _ _ => some d.id
  | outer _ => none

/-! ## What follows a declaration -/

/-- A journey follows the callees of a declaration, with what their edges tell. -/
theorem mem_follow_inner {x d : Declaration} {kind : StepKind} {line : Option Nat}
    {flags : CallFlags} :
    .inner d kind line flags ∈ follow g settings x ↔
      ∃ data, (d, data) ∈ g.calleeEdges x.id ∧ kind = .ofEdge data ∧ line = some data.line ∧
        flags = data.flags := by
  simp only [follow, Order.mem_sortOn, List.mem_append, List.mem_map, Prod.exists,
    Item.inner.injEq, reduceCtorEq, and_false, exists_false, or_false]
  constructor
  · rintro ⟨d', data, hmem, rfl, rfl, rfl, rfl⟩
    exact ⟨data, hmem, rfl, rfl, rfl⟩
  · rintro ⟨data, hmem, rfl, rfl, rfl⟩
    exact ⟨d, data, hmem, rfl, rfl, rfl, rfl⟩

/-- What is followed is called. -/
theorem calls_of_mem_follow (hg : g.WellFormed) {x : Declaration} {item : Item} {id : String}
    (hmem : item ∈ follow g settings x) (hid : item.id? = some id) : g.Calls x.id id := by
  cases item with
  | outer e => cases hid
  | inner d kind line flags =>
    obtain rfl : d.id = id := Option.some.inj hid
    obtain ⟨data, hedge, -⟩ := mem_follow_inner.mp hmem
    exact ⟨data, ((CallGraph.mem_calleeEdges hg).mp hedge).2⟩

/-- What is called is followed. -/
theorem exists_mem_follow (hg : g.WellFormed) (settings : JourneySettings) {x : Declaration}
    {id : String} (h : g.Calls x.id id) :
    ∃ d kind line flags, .inner d kind line flags ∈ follow g settings x ∧ d.id = id := by
  obtain ⟨data, hedge⟩ := h
  obtain ⟨d, hmem, hid⟩ := CallGraph.exists_mem_calleeEdges hg hedge
  exact ⟨d, _, _, _, mem_follow_inner.mpr ⟨data, hmem, rfl, rfl, rfl⟩, hid⟩

/-! ## Stops and chains -/

/-- **A stop stands for a chain.** Its length is the number of levels between the item that was
listed and the stop. Induction on the levels. -/
theorem chain_of_mem_listing (hg : g.WellFormed) {left depth : Nat} {path : List String}
    {item : Item} {s : Stop} {id target : String} (h : s ∈ listing g settings left depth path item)
    (hid : item.id? = some id) (htarget : s.item.id? = some target) :
    ∃ n, s.depth = depth + n ∧ Chain g.Calls n id target := by
  rcases mem_listing_cases h with ⟨hitem, hdepth, -⟩ | ⟨below, d, kind, line, flags, next, rfl,
    rfl, hnext, hs⟩
  · rw [hitem] at htarget
    obtain rfl : id = target := Option.some.inj (hid.symm.trans htarget)
    exact ⟨0, hdepth, .refl id⟩
  · cases hnextId : next.id? with
    | none =>
      -- an external call lists only itself
      cases next with
      | inner _ _ _ _ => cases hnextId
      | outer e =>
        obtain rfl : s = _ := by simpa [listing_outer] using hs
        cases htarget
    | some nextId =>
      obtain ⟨n, hdepth, hchain⟩ := chain_of_mem_listing hg hs hnextId htarget
      obtain rfl : d.id = id := Option.some.inj hid
      exact ⟨n + 1, by omega, .step (calls_of_mem_follow hg hnext hnextId) hchain⟩
  termination_by left

/-- **A shortest chain is listed.** Induction on its length. The invariant is that every declaration
on the path is farther from the target than the item, so the item is not looped; and since nothing
is cut off, it is not at the depth limit either as long as the chain goes on. -/
theorem mem_listing_of_isLeast (hg : g.WellFormed) {n : Nat} (depth : Nat) (path : List String)
    {d : Declaration}
    {kind : StepKind} {line : Option Nat} {flags : CallFlags} {target : String}
    (hleast : IsLeast {k | Chain g.Calls k d.id target} n)
    (hpath : ∀ id ∈ path, ∀ k, Chain g.Calls k id target → n < k)
    (hcut : ∀ s
      ∈ listing g settings (settings.limits.maxDepth - depth) depth path (.inner d kind line flags),
        ¬ s.CutOff g settings) :
    ∃ s
      ∈ listing g settings (settings.limits.maxDepth - depth) depth path (.inner d kind line flags),
        s.item.id? = some target ∧ s.depth = depth + n := by
  induction n generalizing depth path d kind line flags with
  | zero =>
    obtain hid : d.id = target := by
      cases hleast.1
      rfl
    rw [listing_inner]
    exact ⟨_, List.mem_cons_self, congrArg some hid, rfl⟩
  | succ n ih =>
    have hopen : path.contains d.id = false := by
      rw [Bool.eq_false_iff]
      intro hlooped
      exact absurd (hpath d.id (by simpa using hlooped) (n + 1) hleast.1) (Nat.lt_irrefl _)
    obtain ⟨next, hcall, hrest⟩ : ∃ next, g.Calls d.id next ∧ Chain g.Calls n next target := by
      cases hleast.1 with
      | step hstep rest => exact ⟨_, hstep, rest⟩
    obtain ⟨d', kind', line', flags', hfollow, rfl⟩ := exists_mem_follow hg settings hcall
    rw [listing_inner] at hcut ⊢
    have hdeep : ¬ settings.limits.maxDepth ≤ depth := fun hdeep =>
      hcut _ List.mem_cons_self ⟨hopen, hdeep, d, kind, line, flags, rfl,
        List.ne_nil_of_mem hfollow⟩
    have hgo : ¬ (path.contains d.id = true ∨ settings.limits.maxDepth ≤ depth) := by
      rw [hopen]
      simpa using hdeep
    rw [if_neg hgo] at hcut ⊢
    -- what was on the path stays farther away than the next item, and so is the item itself
    have hpath' : ∀ id ∈ d.id :: path, ∀ k, Chain g.Calls k id target → n < k := by
      intro id hid k hk
      rcases List.mem_cons.mp hid with rfl | hid
      · exact hleast.2 hk
      · exact Nat.lt_of_succ_lt (hpath id hid k hk)
    obtain ⟨s, hs, hsid, hdepth⟩ :=
      ih _ _ (Chain.isLeast_of_step hleast hcall hrest) hpath' fun s hs =>
      hcut s (List.mem_cons_of_mem _ (List.mem_flatMap.mpr ⟨_, hfollow, hs⟩))
    exact ⟨s, List.mem_cons_of_mem _ (List.mem_flatMap.mpr ⟨_, hfollow, hs⟩), hsid, by omega⟩

/-! ## Steps -/

/-- A step of the journey is the visit of a declaration at some depth. -/
def VisitsAt (j : Journey) (id : String) (depth : Nat) : Prop :=
  ∃ s ∈ j.steps, s.isExternalCall = false ∧ s.declarationId = id ∧ s.depth = depth

theorem step_depth (g : CallGraph) (s : Stop) (order : Nat) : (s.step g order).depth = s.depth := by
  unfold Stop.step
  split <;> rfl

/-- A step visits a declaration exactly when its stop is that declaration. -/
theorem step_visits_iff (g : CallGraph) (s : Stop) (order : Nat) {id : String} :
    (s.step g order).isExternalCall = false ∧ (s.step g order).declarationId = id ↔
      s.item.id? = some id := by
  unfold Stop.step
  split
  · next hitem => simp [hitem, Item.id?]
  · next hitem => simp [hitem, Item.id?]

/-- A journey that no limit cut short has all of the listing, and nothing of it is cut off. -/
theorem start_complete {entry : Declaration} (h : (start g settings entry).truncated = false) :
    (start g settings entry).steps = numbered g 1 (fullListing g settings entry) ∧
      ∀ s ∈ fullListing g settings entry, ¬ s.CutOff g settings := by
  obtain ⟨hsteps, hraised⟩ := start_ran g settings entry
  obtain ⟨hroom, hcut⟩ := not_or.mp ((not_congr hraised).mp (Bool.eq_false_iff.mp h))
  rw [hsteps, List.take_of_length_le (Nat.le_of_not_lt hroom)]
  exact ⟨rfl, fun s hs hcutOff => hcut ⟨s, hs, hcutOff⟩⟩

/-- The visits of a whole journey are the stops of the listing. -/
theorem visitsAt_iff_mem_listing {entry : Declaration}
    (h : (start g settings entry).truncated = false) {id : String} {depth : Nat} :
    (start g settings entry).VisitsAt id depth ↔
      ∃ s ∈ fullListing g settings entry, s.item.id? = some id ∧ s.depth = depth := by
  unfold VisitsAt
  rw [(start_complete h).1]
  constructor
  · rintro ⟨step, hstep, hinner, hid, hdepth⟩
    obtain ⟨⟨s, order⟩, hs, rfl⟩ := List.mem_map.mp hstep
    refine ⟨s, List.fst_mem_of_mem_zipIdx hs, (step_visits_iff g s order).mp ⟨hinner, hid⟩, ?_⟩
    rw [← hdepth, step_depth]
  · rintro ⟨s, hs, hid, hdepth⟩
    obtain ⟨i, hi, hget⟩ := List.mem_iff_getElem.mp hs
    have hmem : (s, 1 + i) ∈ (fullListing g settings entry).zipIdx 1 := by
      rw [List.mem_iff_getElem]
      exact ⟨i, by simpa using hi, by simp [hget]⟩
    obtain ⟨hinner, hname⟩ := (step_visits_iff g s (1 + i)).mpr hid
    exact ⟨s.step g (1 + i), List.mem_map.mpr ⟨_, hmem, rfl⟩, hinner, hname,
      by rw [step_depth, hdepth]⟩

/-- **A journey that no limit cut short visits a declaration at the length of a chain, and at the
least length if there is any.** -/
theorem visitsAt_chain (hg : g.WellFormed) {entry : Declaration}
    (h : (start g settings entry).truncated = false) (id : String) :
    (∀ depth, (start g settings entry).VisitsAt id depth → Chain g.Calls depth entry.id id) ∧
      ∀ n, IsLeast {k | Chain g.Calls k entry.id id} n →
        (start g settings entry).VisitsAt id n := by
  constructor
  · intro depth hvisit
    obtain ⟨s, hs, hid, rfl⟩ := (visitsAt_iff_mem_listing h).mp hvisit
    obtain ⟨n, hdepth, hchain⟩ := chain_of_mem_listing hg hs rfl hid
    rw [hdepth, Nat.zero_add]
    exact hchain
  · intro n hleast
    obtain ⟨s, hs, hid, hdepth⟩ : ∃ s ∈ fullListing g settings entry, s.item.id? = some id ∧
        s.depth = 0 + n :=
      mem_listing_of_isLeast hg 0 [] hleast (by simp) (start_complete h).2
    rw [Nat.zero_add] at hdepth
    exact (visitsAt_iff_mem_listing h).mpr ⟨s, hs, hid, hdepth⟩

/-- The least depth of the visits is the least length of the chains. -/
theorem isLeast_visitsAt (hg : g.WellFormed) {entry : Declaration}
    (h : (start g settings entry).truncated = false) {id : String} {n : Nat}
    (hleast : IsLeast {k | Chain g.Calls k entry.id id} n) :
    IsLeast {k | (start g settings entry).VisitsAt id k} n := by
  obtain ⟨hsound, hfound⟩ := visitsAt_chain hg h id
  exact ⟨hfound n hleast, fun k hk => hleast.2 (hsound k hk)⟩

/-- A whole journey visits exactly what its entry reaches. -/
theorem exists_visitsAt_iff (hg : g.WellFormed) {entry : Declaration}
    (h : (start g settings entry).truncated = false) {id : String} :
    (∃ k, (start g settings entry).VisitsAt id k) ↔ ∃ n, Chain g.Calls n entry.id id := by
  obtain ⟨hsound, hfound⟩ := visitsAt_chain hg h id
  constructor
  · rintro ⟨k, hk⟩
    exact ⟨k, hsound k hk⟩
  · intro hchain
    obtain ⟨n, hn⟩ := Chain.exists_isLeast hchain
    exact ⟨n, hfound n hn⟩

/-! ## The result -/

/-- **Forward and backward agree.** On every graph that edits can build, for any two declarations of
it, an entry and another or the same: the id of the entry means the entry; and for every query that
means it and all limits under which neither walk is cut short, the journey from the entry visits the
declaration exactly if it is the entry, or the entry is among the callers that are found for it; and
the least depth of a visit is zero for the entry itself and else the distance at which the entry is
found. -/
theorem visitsAt_iff_callersOf (edits : List GraphEdit) (settings : JourneySettings)
    (limits : TraversalLimits) (e d : Declaration)
    (he : e ∈ (({} : CallGraph).applyAll edits).nodes)
    (hd : d ∈ (({} : CallGraph).applyAll edits).nodes) :
    let g := ({} : CallGraph).applyAll edits
    let r := Reach.callersOf g limits d.id
    g.resolveTarget e.id = .ok e ∧
    ∀ query, g.resolveTarget query = .ok e → ∃ j, synthesize g settings query = .ok j ∧
      (j.truncated = false → r.truncated = false →
        ((∃ k, j.VisitsAt d.id k) ↔ d = e ∨ e.id ∈ recordedIds r.reached) ∧
        (d = e → IsLeast {k | j.VisitsAt d.id k} 0) ∧
        ∀ n, (e.id, n) ∈ r.reached → IsLeast {k | j.VisitsAt d.id k} n) := by
  intro g r
  have hg : g.WellFormed := CallGraph.wellFormed_applyAll edits
  have hknown : g.contains d.id = true := CallGraph.contains_iff.mpr (List.mem_map_of_mem hd)
  have hr := Reach.callersOf_searchResult hg limits hknown
  -- ids are distinct among the nodes
  have hsame : d = e ↔ e.id = d.id :=
    ⟨fun h => congrArg Declaration.id h.symm,
      fun h => List.inj_on_of_nodup_map hg.nodes_nodup hd he h.symm⟩
  refine ⟨CallGraph.resolveTarget_of_node? ((CallGraph.node?_eq_some_iff hg).mpr ⟨he, rfl⟩),
    fun query hquery => ?_⟩
  refine ⟨start g settings e, by rw [synthesize, hquery]; rfl, fun hjourney hreach => ⟨?_, ?_, ?_⟩⟩
  · -- both sides ask for a chain of calls from `e` to `d`
    rw [exists_visitsAt_iff hg hjourney, hr.mem_iff hreach, hsame]
    by_cases hid : e.id = d.id
    · rw [hid]
      exact iff_of_true ⟨0, .refl d.id⟩ (Or.inl rfl)
    · simp [hid]
  · rintro rfl
    exact isLeast_visitsAt hg hjourney ⟨.refl d.id, fun k _ => Nat.zero_le k⟩
  · exact fun n hn => isLeast_visitsAt hg hjourney (hr.isLeast (e.id, n) hn)

/-- In the small graph `submit` comes to `save` by two calls. The journey from `submit` meets `save`
again one level deeper, and the first visit is as deep as the distance at which `submit` is found
from `save`. -/
theorem visitsAt_sample :
    let g := ({} : CallGraph).applyAll CallGraph.sample
    let r := Reach.callersOf g ⟨9, 9⟩ "save"
    ∃ j, synthesize g { limits := ⟨3, 9⟩ } "submit" = .ok j ∧ j.truncated = false ∧
      r.truncated = false ∧
      ("submit", 2) ∈ r.reached ∧ j.VisitsAt "save" 3 ∧ IsLeast {k | j.VisitsAt "save" k} 2 := by
  have hreach : Reach.callersOf (({} : CallGraph).applyAll CallGraph.sample) ⟨9, 9⟩ "save"
      = ⟨[("page", 1), ("retry", 1), ("submit", 2), ("form", 3)], false⟩ := by cbv
  have hlisting : fullListing (({} : CallGraph).applyAll CallGraph.sample) { limits := ⟨3, 9⟩ }
      (CallGraph.sampleNode "submit") = sampleListing := by cbv
  obtain ⟨-, hagree⟩ := visitsAt_iff_callersOf CallGraph.sample { limits := ⟨3, 9⟩ } ⟨9, 9⟩
    (CallGraph.sampleNode "submit") (CallGraph.sampleNode "save") (by decide) (by decide)
  obtain ⟨j, hj, hboth⟩ := hagree "submit" (by rfl)
  obtain rfl : start _ _ (CallGraph.sampleNode "submit") = j := Except.ok.inj hj
  -- the listing is shorter than the visit limit and shallower than the depth limit
  have hcomplete : (start (({} : CallGraph).applyAll CallGraph.sample) { limits := ⟨3, 9⟩ }
      (CallGraph.sampleNode "submit")).truncated = false := by
    rw [Bool.eq_false_iff, ne_eq, (start_ran _ _ _).2, hlisting]
    rintro (hlong | ⟨s, hs, hopen, hdeep, -⟩)
    · exact absurd hlong (by decide)
    · have hshallow : ∀ s ∈ sampleListing, s.looped = false → s.depth < 3 := by decide
      exact absurd (hshallow s hs hopen) (Nat.not_lt.mpr hdeep)
  have hfound : ("submit", 2)
      ∈ (Reach.callersOf (({} : CallGraph).applyAll CallGraph.sample) ⟨9, 9⟩ "save").reached := by
    rw [hreach]
    simp
  have hwhole : (Reach.callersOf (({} : CallGraph).applyAll CallGraph.sample) ⟨9, 9⟩
      "save").truncated = false := by
    rw [hreach]
  refine ⟨_, hj, hcomplete, hwhole, hfound, ?_, (hboth hcomplete hwhole).2.2 2 hfound⟩
  rw [visitsAt_iff_mem_listing hcomplete, hlisting]
  decide

end Journey

end CallAtlas
