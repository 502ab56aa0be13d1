import CallAtlas.Impact.Reach
import CallAtlas.Proofs.BreadthFirst
import CallAtlas.Proofs.GraphInvariant

/-!
# Proofs.ReachExact — the bounded walk to the callers of a declaration

`Reach.callersOf` records every caller once, at its true distance, and its flag is set exactly if a
limit left a caller out. The argument follows the two functions of the walk.

* `discover_spec` — one round of recording is a run of `Searching.push`, and says whether a caller
  was left out.
* `walk_searchResult` — the loop keeps the invariant and never runs out of rounds.
* `callersOf_exact` — the result for every graph that edits can build, every known target and all
  limits.
-/

namespace CallAtlas.Reach

variable {R : String → String → Prop} {start : String}

theorem isSeen_iff {reached : List (String × Nat)} {id : String} :
    isSeen start reached id = true ↔ id ∈ recordedIds ((start, 0) :: reached) := by
  simp [isSeen, recordedIds]

/-! ## One round -/

/-- **Recording the callers of the head.** The new records extend the queue and keep the invariant.
If the visit limit did not interfere all callers are recorded afterwards, otherwise it is used up
and one of them is not. -/
theorem discover_spec {limits : TraversalLimits} {n : Nat} {id : String} {callers : List String}
    {done queue reached : List (String × Nat)} {truncated : Bool} (hcallers : ∀ c ∈ callers, R c id)
    (hn : n < limits.maxDepth)
    (h : Searching R limits start done ((id, n) :: queue) reached truncated) :
    ∃ added, (discover start limits.maxVisits (n + 1) callers reached).1 = reached ++ added ∧
      Searching R limits start done ((id, n) :: (queue ++ added)) (reached ++ added) truncated ∧
      ((discover start limits.maxVisits (n + 1) callers reached).2 = false →
        ∀ c ∈ callers, c ∈ recordedIds ((start, 0) :: (reached ++ added))) ∧
      ((discover start limits.maxVisits (n + 1) callers reached).2 = true →
        limits.maxVisits ≤ (reached ++ added).length ∧
          ∃ c ∈ callers, c ∉ recordedIds ((start, 0) :: (reached ++ added))) := by
  induction callers generalizing queue reached with
  | nil => exact ⟨[], by simp [discover], by simpa using h, by simp, by simp [discover]⟩
  | cons c rest ih =>
    have hrest : ∀ x ∈ rest, R x id := fun x hx => hcallers x (List.mem_cons_of_mem _ hx)
    by_cases hseen : isSeen start reached c = true
    · -- a caller that is recorded already changes nothing
      have heq : discover start limits.maxVisits (n + 1) (c :: rest) reached
          = discover start limits.maxVisits (n + 1) rest reached := by simp [discover, hseen]
      rw [heq]
      obtain ⟨added, hreached, hsearching, hall, hsome⟩ := ih hrest h
      refine ⟨added, hreached, hsearching, ?_, ?_⟩
      · intro hfalse x hx
        rcases List.mem_cons.mp hx with rfl | hx
        · rw [← List.cons_append, recordedIds_append]
          exact List.mem_append_left _ (isSeen_iff.mp hseen)
        · exact hall hfalse x hx
      · intro htrue
        obtain ⟨hfull, x, hx, hnew⟩ := hsome htrue
        exact ⟨hfull, x, List.mem_cons_of_mem _ hx, hnew⟩
    · have hnew : c ∉ recordedIds ((start, 0) :: reached) := mt isSeen_iff.mpr hseen
      by_cases hfull : limits.maxVisits ≤ reached.length
      · -- the visit limit ends the round, and this caller stays out
        have heq : discover start limits.maxVisits (n + 1) (c :: rest) reached
            = (reached, true) := by
          simp [discover, hseen, hfull]
        rw [heq]
        refine ⟨[], by simp, by simpa using h, by simp, fun _ => ?_⟩
        exact ⟨by simpa using hfull, c, by simp, by simpa using hnew⟩
      · have heq : discover start limits.maxVisits (n + 1) (c :: rest) reached
            = discover start limits.maxVisits (n + 1) rest (reached ++ [(c, n + 1)]) := by
          simp [discover, hseen, hfull]
        rw [heq]
        have hpush := h.push hn (by omega) (hcallers c (by simp)) hnew
        obtain ⟨added, hreached, hsearching, hall, hsome⟩ := ih hrest hpush
        rw [List.append_assoc, List.append_assoc, List.singleton_append] at hsearching
        rw [List.append_assoc, List.singleton_append] at hreached hall hsome
        refine ⟨(c, n + 1) :: added, hreached, hsearching, ?_, ?_⟩
        · intro hfalse x hx
          rcases List.mem_cons.mp hx with rfl | hx
          · simp
          · exact hall hfalse x hx
        · intro htrue
          obtain ⟨hfull, x, hx, hmissing⟩ := hsome htrue
          exact ⟨hfull, x, List.mem_cons_of_mem _ hx, hmissing⟩

/-! ## The loop -/

/-- **The loop keeps the invariant to its end.** Every round moves one record to `done`, and there
are no more records than nodes, so `hfuel` keeps the rounds from running out. Induction on the
rounds. -/
theorem walk_searchResult {g : CallGraph} (hg : g.WellFormed) (hstart : start ∈ g.nodeIds)
    {limits : TraversalLimits} {fuel : Nat} {done queue : List (String × Nat)} {r : Reach}
    (h : Searching g.Calls limits start done queue r.reached r.truncated)
    (hfuel : g.nodes.length < done.length + fuel) :
    SearchResult g.Calls limits start (walk g limits start fuel queue r).reached
      (walk g limits start fuel queue r).truncated := by
  induction fuel generalizing done queue r with
  | zero =>
    have hle := h.frontier.length_le hstart fun x y ⟨_, he⟩ => (hg.ends_known _ he).1
    rw [List.length_append, CallGraph.nodeIds, List.length_map] at hle
    omega
  | succ fuel ih =>
    cases queue with
    | nil => exact h.finish
    | cons head queue =>
      obtain ⟨id, n⟩ := head
      have hlen : g.nodes.length < (done ++ [(id, n)]).length + fuel := by
        rw [List.length_append, List.length_singleton]
        omega
      by_cases hdeep : limits.maxDepth ≤ n
      · -- at the depth limit the callers are only looked at
        rw [walk, if_pos hdeep]
        refine ih (h.leave (fun hlt => absurd hdeep (by omega)) ?_) hlen
        rw [Bool.or_eq_true, List.any_eq_true]
        refine or_congr Iff.rfl (exists_congr fun c => ?_)
        rw [CallGraph.mem_callerIds hg, ← isSeen_iff]
        simp
      · have hlt : n < limits.maxDepth := by omega
        have hcallers : ∀ c ∈ g.callerIds id,
            g.Calls c id := fun c hc => (CallGraph.mem_callerIds hg).mp hc
        obtain ⟨added, hreached, hsearching, hall, hsome⟩ := discover_spec hcallers hlt h
        rw [walk, if_neg hdeep]
        rcases hround : discover start limits.maxVisits (n + 1) (g.callerIds id) r.reached
          with ⟨reached, full⟩
        rw [hround] at hreached hall hsome
        obtain rfl : reached = r.reached ++ added := hreached
        cases full with
        | true =>
          obtain ⟨hfull, c, hc, hmissing⟩ := hsome rfl
          exact hsearching.stop hfull (hcallers c hc) hmissing
        | false =>
          dsimp only
          rw [List.drop_left]
          have hrecorded : ∀ c, g.Calls c id →
              c ∈ recordedIds ((start, 0) :: (r.reached ++ added)) :=
            fun c hc => hall rfl c ((CallGraph.mem_callerIds hg).mpr hc)
          refine ih (hsearching.leave (fun _ => hrecorded) ⟨Or.inl, ?_⟩) hlen
          rintro (htruncated | ⟨c, hc, hmissing⟩)
          · exact htruncated
          · exact absurd (hrecorded c hc) hmissing

/-! ## The result -/

/-- The caller search has fuel for every node, so it is a whole breadth first search. -/
theorem callersOf_searchResult {g : CallGraph} (hg : g.WellFormed) (limits : TraversalLimits)
    {target : String} (hknown : g.contains target = true) :
    SearchResult g.Calls limits target (callersOf g limits target).reached
      (callersOf g limits target).truncated := by
  rw [callersOf, if_pos hknown]
  refine walk_searchResult hg (CallGraph.contains_iff.mp hknown)
    (Searching.initial g.Calls limits target) ?_
  rw [List.length_nil, Nat.zero_add]
  exact Nat.lt_succ_self _

/-- **The callers of a declaration, exactly.** On every graph that edits can build, for every known
target and all limits: no id is reported twice and never the target; each stands at its least number
of calls to the target, none beyond the depth limit, not more than the visit limit allows, near ones
first; and the flag is set exactly if some other declaration that leads to the target is not
reported. -/
theorem callersOf_exact (edits : List GraphEdit) (limits : TraversalLimits) (target : String)
    (hknown : (({} : CallGraph).applyAll edits).contains target = true) :
    let g := ({} : CallGraph).applyAll edits
    let r := callersOf g limits target
    (recordedIds r.reached).Nodup ∧ target ∉ recordedIds r.reached ∧
      (∀ id n, (id, n) ∈ r.reached → IsLeast {k | Chain g.Calls k id target} n) ∧
      (∀ id n, (id, n) ∈ r.reached → n ≤ limits.maxDepth) ∧ r.reached.length ≤ limits.maxVisits ∧
      (r.reached.map Prod.snd).Pairwise (· ≤ ·) ∧
      (r.truncated = true ↔
        ∃ d ∈ g.nodes, d.id ≠ target ∧ (∃ k, Chain g.Calls k d.id target) ∧
          d.id ∉ recordedIds r.reached) := by
  intro g r
  have hg : g.WellFormed := CallGraph.wellFormed_applyAll edits
  have hr := callersOf_searchResult hg limits hknown
  refine ⟨hr.nodup, hr.start_not_mem, fun id n => hr.isLeast (id, n),
    fun id n => hr.depth_le (id, n), hr.length_le, hr.ordered, hr.honest.trans ?_⟩
  constructor
  · rintro ⟨x, hne, ⟨k, hchain⟩, hmissing⟩
    -- what leads to a node by a call is a node itself
    have hnode : x ∈ g.nodeIds :=
      hchain.mem_of_closed (fun y z _ ⟨_, he⟩ => (hg.ends_known _ he).1)
        (CallGraph.contains_iff.mp hknown)
    obtain ⟨d, hd, rfl⟩ := List.mem_map.mp hnode
    exact ⟨d, hd, hne, ⟨k, hchain⟩, hmissing⟩
  · rintro ⟨d, -, hne, hchain, hmissing⟩
    exact ⟨d.id, hne, hchain, hmissing⟩

/-- Within two calls of `save` there are three callers, and the flag tells of a fourth. -/
theorem callersOf_sample :
    (({} : CallGraph).applyAll CallGraph.sample).contains "save" = true ∧
      callersOf (({} : CallGraph).applyAll CallGraph.sample) ⟨2, 9⟩ "save"
        = ⟨[("page", 1), ("retry", 1), ("submit", 2)], true⟩ ∧
      IsLeast {k | Chain (({} : CallGraph).applyAll CallGraph.sample).Calls k "submit" "save"} 2 ∧
      ∃ d ∈ (({} : CallGraph).applyAll CallGraph.sample).nodes, d.id ≠ "save" ∧
        (∃ k, Chain (({} : CallGraph).applyAll CallGraph.sample).Calls k d.id "save") ∧
          d.id ∉ ["page", "retry", "submit"] := by
  have hrun : callersOf (({} : CallGraph).applyAll CallGraph.sample) ⟨2, 9⟩ "save"
      = ⟨[("page", 1), ("retry", 1), ("submit", 2)], true⟩ := by cbv
  have hknown : (({} : CallGraph).applyAll CallGraph.sample).contains "save" = true := by decide
  obtain ⟨-, -, hleast, -, -, -, hhonest⟩ := callersOf_exact CallGraph.sample ⟨2, 9⟩ "save" hknown
  rw [hrun] at hleast hhonest
  exact ⟨hknown, hrun, hleast "submit" 2 (by simp), hhonest.mp rfl⟩

end CallAtlas.Reach
