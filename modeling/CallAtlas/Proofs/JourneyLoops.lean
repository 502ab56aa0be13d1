import CallAtlas.Proofs.CyclesExact
import CallAtlas.Proofs.JourneyCoverage

/-!
# Proofs.JourneyLoops — a journey meets a loop exactly if it comes to a cycle

A journey marks a step as looped when the declaration is on the path that leads to it. The cycles of
a graph are found without any path, from what reaches what. The two are compared through the listing
of the journey.

* `reaches_of_looped` — no false loop: everything on the path reaches what is listed below it, so a
  declaration that is met on its own path reaches itself. A declaration that is met twice on
  different branches is on neither path.
* `exists_stop_of_chain` — no loop is missed: in a listing without loops and cuts every chain of
  calls is listed to its end. From a cycle there are chains of any length, and the listing has no
  room for them below the depth limit.
* `looped_iff_cycle` — hence both say the same of every entry.
-/

namespace CallAtlas

/-- Around a loop there are chains of any length. -/
theorem Chain.exists_longer {R : String → String → Prop} {n : Nat} {a b : String}
    (h : Chain R n a b) {m : Nat} (hloop : Chain R (m + 1) b b) (k : Nat) :
    ∃ length, k ≤ length ∧ Chain R length a b := by
  induction k with
  | zero => exact ⟨n, Nat.zero_le n, h⟩
  | succ k ih =>
    obtain ⟨length, hlength, hchain⟩ := ih
    exact ⟨length + (m + 1), by omega, hchain.trans hloop⟩

namespace Journey

variable {g : CallGraph} {settings : JourneySettings}

/-! ## No false loop -/

/-- **What is looped reaches itself.** The invariant is that everything on the path reaches the
item. Induction on the levels. -/
theorem reaches_of_looped (hg : g.WellFormed) {left depth : Nat} {path : List String} {item : Item}
    {s : Stop} (h : s ∈ listing g settings left depth path item) (hlooped : s.looped = true)
    (hpath : ∀ id, item.id? = some id → ∀ p ∈ path, g.Reaches p id) :
    ∃ x, s.item.id? = some x ∧ g.Reaches x x := by
  rcases mem_listing_cases h with ⟨hitem, -, hloop⟩ | ⟨below, d, kind, line, flags, next, rfl,
    rfl, hnext, hs⟩
  · obtain ⟨d, kind, line, flags, rfl, hmem⟩ := hloop hlooped
    exact ⟨d.id, hitem ▸ rfl, hpath d.id rfl d.id hmem⟩
  · -- the declaration joins the path, and what reached it reaches what follows it
    refine reaches_of_looped hg hs hlooped fun id hid p hp => ?_
    have hcall : g.Reaches d.id id := (calls_of_mem_follow hg hnext hid).reaches
    rcases List.mem_cons.mp hp with rfl | hp
    · exact hcall
    · exact (hpath d.id rfl p hp).trans hcall
  termination_by left

/-! ## No missed loop -/

/-- What a declaration calls is listed one level below it, unless the declaration is looped or cut
off. -/
theorem exists_stop_of_calls (hg : g.WellFormed) {entry : Declaration} {s : Stop} {x y : String}
    (hs : s ∈ fullListing g settings entry) (hopen : s.looped = false)
    (hcut : ¬ s.CutOff g settings) (hx : s.item.id? = some x) (hcall : g.Calls x y) :
    ∃ t ∈ fullListing g settings entry, t.item.id? = some y ∧ t.depth = s.depth + 1 := by
  obtain ⟨d, kind, line, flags, hitem, rfl⟩ :
      ∃ d kind line flags, s.item = .inner d kind line flags ∧ d.id = x := by
    cases hitem : s.item with
    | outer e =>
      rw [hitem] at hx
      cases hx
    | inner d kind line flags =>
      rw [hitem] at hx
      exact ⟨d, kind, line, flags, rfl, Option.some.inj hx⟩
  obtain ⟨before, after, hsplit⟩ := List.append_of_mem hs
  have hfollowed : s.FollowedBy g settings after :=
    listing_followedBy (Nat.sub_zero _) hsplit hopen hcut
  -- the callee is followed right below the stop
  obtain ⟨callee, kind', line', flags', hfollow, rfl⟩ := exists_mem_follow hg settings hcall
  obtain ⟨t, ht, htitem, hdepth⟩ := hfollowed d kind line flags hitem _ hfollow
  refine ⟨t, ?_, by rw [htitem]; rfl, hdepth⟩
  rw [hsplit]
  exact List.mem_append_right before (List.mem_cons_of_mem s ((List.takeWhile_sublist _).subset ht))

/-- **Without loops and cuts every chain is listed to its end.** Induction on the chain. -/
theorem exists_stop_of_chain (hg : g.WellFormed) {entry : Declaration}
    (hopen : ∀ s ∈ fullListing g settings entry, s.looped = false)
    (hcut : ∀ s ∈ fullListing g settings entry, ¬ s.CutOff g settings) {n : Nat} {x y : String}
    (hchain : Chain g.Calls n x y) {s : Stop} (hs : s ∈ fullListing g settings entry)
    (hx : s.item.id? = some x) :
    ∃ t ∈ fullListing g settings entry, t.item.id? = some y ∧ t.depth = s.depth + n := by
  induction hchain generalizing s with
  | refl a => exact ⟨s, hs, hx, rfl⟩
  | step hcall _ ih =>
    obtain ⟨t, ht, hid, hdepth⟩ := exists_stop_of_calls hg hs (hopen s hs) (hcut s hs) hx hcall
    obtain ⟨u, hu, huid, hudepth⟩ := ih ht hid
    exact ⟨u, hu, huid, by omega⟩

/-- A listing that is not cut off and leads to a declaration that reaches itself has a loop. -/
theorem exists_looped_of_reaches (hg : g.WellFormed) {entry : Declaration}
    (hcut : ∀ s ∈ fullListing g settings entry, ¬ s.CutOff g settings) {n : Nat} {x : String}
    (hchain : Chain g.Calls n entry.id x) (hself : g.Reaches x x) :
    ∃ s ∈ fullListing g settings entry, s.looped = true := by
  by_contra hnone
  have hopen : ∀ s ∈ fullListing g settings entry, s.looped = false := fun s hs =>
    Bool.eq_false_iff.mpr fun hlooped => hnone ⟨s, hs, hlooped⟩
  -- a chain that is too long to be listed
  obtain ⟨m, hloop⟩ := hself
  obtain ⟨length, hlength, hlong⟩ := hchain.exists_longer hloop (settings.limits.maxDepth + 1)
  obtain ⟨looped, rest, hlisting⟩ : ∃ looped rest,
      fullListing g settings entry = ⟨.inner entry .entry none {}, 0, looped⟩ :: rest :=
    listing_eq_cons settings.limits.maxDepth 0 [] _
  have hstart : ⟨.inner entry .entry none {}, 0, looped⟩ ∈ fullListing g settings entry := by
    rw [hlisting]
    exact List.mem_cons_self
  obtain ⟨t, ht, -, hdepth⟩ := exists_stop_of_chain hg hopen hcut hlong hstart rfl
  have hbound : t.depth ≤ 0 + settings.limits.maxDepth := depth_le_of_mem_listing ht
  have hdepth' : t.depth = 0 + length := hdepth
  omega

/-! ## Steps -/

/-- A step loops when its stop does. -/
theorem step_looped (g : CallGraph) (s : Stop) (order : Nat) :
    (s.step g order).looped = s.looped := by
  unfold Stop.step
  split <;> rfl

/-- A journey that no limit cut short has a looped step exactly if its listing has a looped stop. -/
theorem exists_looped_step_iff {entry : Declaration}
    (h : (start g settings entry).truncated = false) :
    (∃ s ∈ (start g settings entry).steps, s.looped = true) ↔
      ∃ s ∈ fullListing g settings entry, s.looped = true := by
  rw [(start_complete h).1]
  constructor
  · rintro ⟨step, hstep, hlooped⟩
    obtain ⟨⟨s, order⟩, hs, rfl⟩ := List.mem_map.mp hstep
    exact ⟨s, List.fst_mem_of_mem_zipIdx hs, by rw [← step_looped g s order]; exact hlooped⟩
  · rintro ⟨s, hs, hlooped⟩
    obtain ⟨order, hstep⟩ := exists_step_of_mem 1 hs
    exact ⟨s.step g order, hstep, by rw [step_looped, hlooped]⟩

/-! ## The result -/

/-- **Loops and cycles agree.** On every graph that edits can build, for every query that means a
declaration of it and all settings, there is a journey from the declaration; and if no limit cut it
short, then it has a looped step exactly if some reported cycle has a member that is the declaration
itself or is reached from it. -/
theorem looped_iff_cycle (edits : List GraphEdit) (settings : JourneySettings) (query : String)
    (entry : Declaration)
    (hfound : (({} : CallGraph).applyAll edits).resolveTarget query = .ok entry) :
    let g := ({} : CallGraph).applyAll edits
    ∃ j, synthesize g settings query = .ok j ∧
      (j.truncated = false →
        ((∃ s ∈ j.steps, s.looped = true) ↔
          ∃ c ∈ g.cycles, ∃ x ∈ c, x = entry.id ∨ g.Reaches entry.id x)) := by
  intro g
  have hg : g.WellFormed := CallGraph.wellFormed_applyAll edits
  refine ⟨start g settings entry, by rw [synthesize, hfound]; rfl, fun hwhole => ?_⟩
  rw [exists_looped_step_iff hwhole]
  constructor
  · -- a loop closes on the path that leads to it, and the path starts at the entry
    rintro ⟨s, hs, hlooped⟩
    obtain ⟨x, hx, hself⟩ := reaches_of_looped hg hs hlooped (by simp)
    obtain ⟨n, -, hchain⟩ := chain_of_mem_listing hg hs rfl hx
    obtain ⟨c, hc, hxc⟩ := (CallGraph.exists_mem_cycle_iff hg).mpr hself
    refine ⟨c, hc, x, hxc, ?_⟩
    cases n with
    | zero => exact Or.inl hchain.eq_of_zero.symm
    | succ n => exact Or.inr ⟨n, hchain⟩
  · rintro ⟨c, hc, x, hxc, hreached⟩
    have hself : g.Reaches x x := (CallGraph.exists_mem_cycle_iff hg).mp ⟨c, hc, hxc⟩
    -- a whole journey follows the chain into the cycle, until it comes round
    obtain ⟨n, hchain⟩ : ∃ n, Chain g.Calls n entry.id x := by
      rcases hreached with rfl | ⟨n, hchain⟩
      · exact ⟨0, .refl entry.id⟩
      · exact ⟨n + 1, hchain⟩
    exact exists_looped_of_reaches hg (start_complete hwhole).2 hchain hself

/-- In the small graph `submit` comes to the cycle of `save`, and the journey from it has a looped
step. -/
theorem looped_iff_cycle_sample :
    (({} : CallGraph).applyAll CallGraph.sample).resolveTarget "submit"
      = .ok (CallGraph.sampleNode "submit") ∧
      ["save"] ∈ (({} : CallGraph).applyAll CallGraph.sample).cycles ∧
      (({} : CallGraph).applyAll CallGraph.sample).Reaches "submit" "save" ∧
      ∃ j, synthesize (({} : CallGraph).applyAll CallGraph.sample) { limits := ⟨3, 9⟩ } "submit"
        = .ok j ∧
        j.truncated = false ∧ ∃ s ∈ j.steps, s.looped = true := by
  have hfound : (({} : CallGraph).applyAll CallGraph.sample).resolveTarget "submit"
      = .ok (CallGraph.sampleNode "submit") := by rfl
  have hcycles : (({} : CallGraph).applyAll CallGraph.sample).cycles
      = [["retry", "submit"], ["save"]] := by cbv
  have hmem : ["save"] ∈ (({} : CallGraph).applyAll CallGraph.sample).cycles := by
    rw [hcycles]
    simp
  have hreaches : (({} : CallGraph).applyAll CallGraph.sample).Reaches "submit" "save" :=
    ⟨1, .step (b := "retry") ⟨⟨.calls, .direct, 4, {}⟩, by decide⟩
      (.step ⟨⟨.calls, .direct, 3, {}⟩, by decide⟩ (.refl _))⟩
  obtain ⟨j, hj, hagree⟩ := looped_iff_cycle CallGraph.sample { limits := ⟨3, 9⟩ } "submit" _ hfound
  obtain rfl : start _ _ (CallGraph.sampleNode "submit") = j := Except.ok.inj hj
  -- the listing of the sample stays below both limits
  have hwhole : (start (({} : CallGraph).applyAll CallGraph.sample) { limits := ⟨3, 9⟩ }
      (CallGraph.sampleNode "submit")).truncated = false := by
    have hlisting : fullListing (({} : CallGraph).applyAll CallGraph.sample) { limits := ⟨3, 9⟩ }
        (CallGraph.sampleNode "submit") = sampleListing := by cbv
    rw [Bool.eq_false_iff, ne_eq, (start_ran _ _ _).2, hlisting]
    rintro (hlong | ⟨s, hs, hopen, hdeep, -⟩)
    · exact absurd hlong (by decide)
    · have hshallow : ∀ s ∈ sampleListing, s.looped = false → s.depth < 3 := by decide
      exact absurd (hshallow s hs hopen) (Nat.not_lt.mpr hdeep)
  exact ⟨hfound, hmem, hreaches, _, hj, hwhole,
    (hagree hwhole).mpr ⟨_, hmem, "save", by simp, Or.inr hreaches⟩⟩

end Journey

end CallAtlas
