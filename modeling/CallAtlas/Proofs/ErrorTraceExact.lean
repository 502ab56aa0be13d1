import CallAtlas.ErrorFlow.Trace
import CallAtlas.Proofs.BreadthFirst
import CallAtlas.Proofs.GraphInvariant

/-!
# Proofs.ErrorTraceExact — which callers an error reaches, and which ones catch it

An error passes a call whose site is not guarded (`CallGraph.LetsThrough`) and ends at one that is
(`CallGraph.Catches`). `ErrorTrace.start` is a bounded search along the first relation that notes
the second one on its way. A caller can catch the error of one callee and let that of another one
through, which the trace may find out later; so what is noted is compared with what is recorded only
at the end.

* `pass_spec` — one round: what it records, what it notes, and when it stops or raises the flag.
* `walk_traced` — the loop keeps `Tracing` and ends in `Traced`.
* `find_exact` — the result for every graph that edits can build, every origin that a query means
  and all limits.
-/

namespace CallAtlas

namespace CallGraph

/-- A call from one declaration to another whose site is not guarded. -/
def LetsThrough (g : CallGraph) (caller callee : String) : Prop :=
  ∃ data, ⟨caller, callee, data⟩ ∈ g.edges ∧ data.kind = .calls ∧ data.flags.guarded = false

/-- A call from one declaration to another whose site is guarded. -/
def Catches (g : CallGraph) (caller callee : String) : Prop :=
  ∃ data, ⟨caller, callee, data⟩ ∈ g.edges ∧ data.kind = .calls ∧ data.flags.guarded = true

end CallGraph

namespace ErrorTrace.Progress

variable {g : CallGraph} {limits : TraversalLimits} {origin id : String} {n : Nat}
variable {done queue : List (String × Nat)}

/-- The origin and all that was recorded. -/
def seen (p : Progress) (origin : String) : List String := recordedIds ((origin, 0) :: p.reached)

theorem isSeen_iff {p : Progress} {x : String} : p.isSeen origin x = true ↔ x ∈ p.seen origin := by
  simp [isSeen, seen, recordedIds]

/-! ## One round -/

/-- What a round over some callers of the head has done to a trace `p`. -/
structure Passed (g : CallGraph) (limits : TraversalLimits) (origin id : String) (n : Nat)
    (edges : List (Declaration × EdgeData)) (done queue : List (String × Nat)) (flag : Bool)
    (p : Progress) (after : Progress × Bool) (added : List (String × Nat)) : Prop where
  reached : after.1.reached = p.reached ++ added
  searching : Searching g.LetsThrough limits origin done ((id, n) ::
    (queue ++ added)) after.1.reached flag
  /-- At the depth limit nothing is recorded. -/
  atLimit : limits.maxDepth ≤ n → added = []
  kept : ∀ x ∈ p.handled, x ∈ after.1.handled
  caught : ∀ x ∈ after.1.handled, x ∈ p.handled ∨ g.Catches x id
  stopped : after.2 = true → after.1.truncated = true ∧ limits.maxVisits ≤ after.1.reached.length ∧
    ∃ x, g.LetsThrough x id ∧ x ∉ after.1.seen origin
  /-- A call that is not recorded was noted if it is guarded, and else lies beyond the depth
  limit. -/
  looked : after.2 = false → ∀ c data, (c, data) ∈ edges → data.kind = .calls →
    c.id ∉ after.1.seen origin →
    if data.flags.guarded then c.id ∈ after.1.handled else limits.maxDepth ≤ n
  raised : after.2 = false → (after.1.truncated = true ↔ p.truncated = true ∨
    ∃ c data, (c, data) ∈ edges ∧ data.kind = .calls ∧ data.flags.guarded = false ∧
      c.id ∉ after.1.seen origin)

namespace Passed

variable {edges : List (Declaration × EdgeData)} {flag : Bool} {p p' : Progress}
  {after : Progress × Bool}
variable {added : List (String × Nat)} {caller : Declaration} {data : EdgeData}

/-- A pass over the callers forgets nobody. -/
theorem seen_mono (h : Passed g limits origin id n edges done queue flag p after added) {x : String}
    (hx : x ∈ p.seen origin) : x ∈ after.1.seen origin := by
  rw [seen, h.reached, ← List.cons_append, recordedIds_append]
  exact List.mem_append_left _ hx

/-- Nothing to look at. -/
theorem nil (hs : Searching g.LetsThrough limits origin done ((id, n) :: queue) p.reached flag) :
    Passed g limits origin id n [] done queue flag p (p, false) [] where
  reached := by simp
  searching := by simpa using hs
  atLimit _ := rfl
  kept _ hx := hx
  caught _ hx := Or.inl hx
  stopped h := by simp at h
  looked _ := by simp
  raised _ := by simp

/-- **One caller more.** What the rest of the round did to the trace `p'` that the first caller
left, seen from the trace `p` before it. What the first caller did is said by the hypotheses. -/
theorem cons {queue' added' : List (String × Nat)}
    (h : Passed g limits origin id n edges done queue' flag p' after added')
    (hreached : p'.reached ++ added' = p.reached ++ added)
    (hqueue : queue' ++ added' = queue ++ added)
    (hlimit : limits.maxDepth ≤ n → added = []) (hkept : ∀ x ∈ p.handled, x ∈ p'.handled)
    (hcaught : ∀ x ∈ p'.handled, x ∈ p.handled ∨ g.Catches x id)
    (hlooked : data.kind = .calls → caller.id ∉ after.1.seen origin →
      if data.flags.guarded then caller.id ∈ after.1.handled else limits.maxDepth ≤ n)
    (hraised : p'.truncated = true ↔ p.truncated = true ∨
      data.kind = .calls ∧ data.flags.guarded = false ∧ caller.id ∉ after.1.seen origin) :
    Passed g limits origin id n ((caller, data) :: edges) done queue flag p after added := by
  refine ⟨h.reached.trans hreached, ?_, hlimit, fun x hx => h.kept x (hkept x hx), ?_,
    h.stopped, ?_, ?_⟩
  · rw [← hqueue]
    exact h.searching
  · intro x hx
    rcases h.caught x hx with hx | hx
    · exact hcaught x hx
    · exact Or.inr hx
  · -- the edge in front is looked at here, the others by the rest of the pass
    intro hgo c d hmem hcalls hnew
    rcases List.mem_cons.mp hmem with heq | hmem
    · obtain ⟨rfl, rfl⟩ := Prod.mk.inj heq
      exact hlooked hcalls hnew
    · exact h.looked hgo c d hmem hcalls hnew
  · intro hgo
    rw [h.raised hgo, hraised, or_assoc]
    refine or_congr Iff.rfl ⟨?_, ?_⟩
    · rintro (hhead | ⟨c, d, hmem, hrest⟩)
      · exact ⟨caller, data, by simp, hhead⟩
      · exact ⟨c, d, List.mem_cons_of_mem _ hmem, hrest⟩
    · rintro ⟨c, d, hmem, hrest⟩
      rcases List.mem_cons.mp hmem with heq | hmem
      · obtain ⟨rfl, rfl⟩ := Prod.mk.inj heq
        exact Or.inl hrest
      · exact Or.inr ⟨c, d, hmem, hrest⟩

/-- A caller that is recorded, or whose edge is no call, is passed over. -/
theorem skip (h : Passed g limits origin id n edges done queue flag p after added)
    (hskip : data.kind ≠ .calls ∨ caller.id ∈ p.seen origin) :
    Passed g limits origin id n ((caller, data) :: edges) done queue flag p after added := by
  have hhead : data.kind = .calls → caller.id ∈ after.1.seen origin := by
    intro hcalls
    rcases hskip with hkind | hseen
    · exact absurd hcalls hkind
    · exact h.seen_mono hseen
  refine h.cons rfl rfl h.atLimit (fun _ hx => hx) (fun _ hx => Or.inl hx) ?_ ?_
  · exact fun hcalls hnew => absurd (hhead hcalls) hnew
  · refine ⟨Or.inl, ?_⟩
    rintro (hup | ⟨hcalls, -, hnew⟩)
    · exact hup
    · exact absurd (hhead hcalls) hnew

/-- A guarded call is noted. -/
theorem note
    (h : Passed g limits origin id n edges done queue flag
      { p with handled := p.handled ++ [caller.id] } after added)
    (hedge : ⟨caller.id, id, data⟩ ∈ g.edges) (hcalls : data.kind = .calls)
    (hguard : data.flags.guarded = true) :
    Passed g limits origin id n ((caller, data) :: edges) done queue flag p after added := by
  refine h.cons rfl rfl h.atLimit (fun _ hx => List.mem_append_left _ hx) ?_ ?_ ?_
  · intro x hx
    rcases List.mem_append.mp hx with hx | hx
    · exact Or.inl hx
    · obtain rfl : x = caller.id := by simpa using hx
      exact Or.inr ⟨data, hedge, hcalls, hguard⟩
  · intro _ _
    rw [if_pos hguard]
    exact h.kept caller.id (List.mem_append_right _ (by simp))
  · simp [hguard]

/-- An unguarded call beyond the depth limit raises the flag. -/
theorem cut
    (h : Passed g limits origin id n edges done queue flag { p with truncated := true } after added)
    (hcalls : data.kind = .calls) (hopen : data.flags.guarded = false)
    (hnew : caller.id ∉ p.seen origin) (hdeep : limits.maxDepth ≤ n) :
    Passed g limits origin id n ((caller, data) :: edges) done queue flag p after added := by
  -- nothing is recorded at the limit, so the caller stays out for the rest of the round
  have hout : caller.id ∉ after.1.seen origin := by
    rw [seen, h.reached, h.atLimit hdeep, List.append_nil]
    exact hnew
  refine h.cons rfl rfl h.atLimit (fun _ hx => hx) (fun _ hx => Or.inl hx) ?_ ?_
  · intro _ _
    rw [hopen]
    exact hdeep
  · exact iff_of_true rfl (Or.inr ⟨hcalls, hopen, hout⟩)

/-- An unguarded call within both limits is recorded. -/
theorem record (h : Passed g limits origin id n edges done (queue ++ [(caller.id, n + 1)]) flag
      { p with reached := p.reached ++ [(caller.id, n + 1)] } after added)
    (hn : n < limits.maxDepth) :
    Passed g limits origin id n ((caller, data) ::
      edges) done queue flag p after ((caller.id, n + 1) :: added) := by
  have hin : caller.id ∈ after.1.seen origin := h.seen_mono (by simp [seen, recordedIds])
  refine h.cons (by simp) (by simp) (fun hdeep => absurd hdeep (by omega)) (fun _ hx => hx)
    (fun _ hx => Or.inl hx) (fun _ hnew => absurd hin hnew) ⟨Or.inl, ?_⟩
  rintro (hup | ⟨-, -, hnew⟩)
  · exact hup
  · exact absurd hin hnew

/-- An unguarded call that the visit limit does not admit ends the trace. -/
theorem stop (hs : Searching g.LetsThrough limits origin done ((id, n) :: queue) p.reached flag)
    (hfull : limits.maxVisits ≤ p.reached.length) (hedge : g.LetsThrough caller.id id)
    (hnew : caller.id ∉ p.seen origin) :
    Passed g limits origin id n ((caller, data) ::
      edges) done queue flag p ({ p with truncated := true }, true)
      [] where
  reached := by simp
  searching := by simpa using hs
  atLimit _ := rfl
  kept _ hx := hx
  caught _ hx := Or.inl hx
  stopped _ := ⟨rfl, hfull, caller.id, hedge, hnew⟩
  looked h := by simp at h
  raised h := by simp at h

end Passed

/-- **One round.** Induction on the callers, one lemma for each way in which a caller is dealt
with. -/
theorem pass_spec {edges : List (Declaration × EdgeData)} {p : Progress} {flag : Bool}
    (hedges : ∀ c data, (c, data) ∈ edges → ⟨c.id, id, data⟩ ∈ g.edges)
    (h : Searching g.LetsThrough limits origin done ((id, n) :: queue) p.reached flag) :
    ∃ added, Passed g limits origin id n edges done queue flag p
      (pass limits origin n edges p) added := by
  -- along the edges, with one lemma for each of the five things that happen to an edge
  induction edges generalizing queue p with
  | nil => exact ⟨[], .nil h⟩
  | cons head rest ih =>
    obtain ⟨caller, data⟩ := head
    have hrest : ∀ c d, (c, d) ∈ rest → ⟨c.id, id, d⟩ ∈ g.edges :=
      fun c d hmem => hedges c d (List.mem_cons_of_mem _ hmem)
    have hedge : ⟨caller.id, id, data⟩ ∈ g.edges := hedges caller data (by simp)
    rw [pass]
    split
    · next hskip =>
      obtain ⟨added, hpassed⟩ := ih hrest h
      refine ⟨added, hpassed.skip ?_⟩
      simpa [isSeen_iff] using hskip
    · next hgo =>
      obtain ⟨hcalls, hnew⟩ : data.kind = .calls ∧ caller.id ∉ p.seen origin := by
        simpa [isSeen_iff] using hgo
      split
      · next hguard =>
        obtain ⟨added, hpassed⟩ := ih (p := { p with handled := p.handled ++ [caller.id] }) hrest h
        exact ⟨added, hpassed.note hedge hcalls hguard⟩
      · next hopen =>
        have hopen : data.flags.guarded = false := by simpa using hopen
        split
        · next hdeep =>
          obtain ⟨added, hpassed⟩ := ih (p := { p with truncated := true }) hrest h
          exact ⟨added, hpassed.cut hcalls hopen hnew hdeep⟩
        · next hlt =>
          split
          · next hfull => exact ⟨[], .stop h hfull ⟨data, hedge, hcalls, hopen⟩ hnew⟩
          · next hroom =>
            have hpush := h.push (by omega) (by omega) ⟨data, hedge, hcalls, hopen⟩ hnew
            obtain ⟨added, hpassed⟩ :=
              ih (p := { p with reached := p.reached ++ [(caller.id, n + 1)] }) hrest hpush
            exact ⟨_, hpassed.record (by omega)⟩

/-! ## The loop -/

/-- A trace in progress: a bounded search along unguarded calls, and notes that are complete for
what is done. -/
structure Tracing (g : CallGraph) (limits : TraversalLimits) (origin : String)
    (done queue : List (String × Nat)) (p : Progress) : Prop where
  searching : Searching g.LetsThrough limits origin done queue p.reached p.truncated
  caught : ∀ x ∈ p.handled, ∃ y ∈ p.seen origin, g.Catches x y
  looked : ∀ r ∈ done, ∀ x, g.Catches x r.1 → x ∈ p.handled ∨ x ∈ p.seen origin

/-- A finished trace. Its notes are complete unless a limit cut it short. -/
structure Traced (g : CallGraph) (limits : TraversalLimits) (origin : String)
    (p : Progress) : Prop where
  result : SearchResult g.LetsThrough limits origin p.reached p.truncated
  caught : ∀ x ∈ p.handled, ∃ y ∈ p.seen origin, g.Catches x y
  looked : p.truncated = false → ∀ y ∈ p.seen origin, ∀ x, g.Catches x y →
    x ∈ p.handled ∨ x ∈ p.seen origin

/-- The invariant of the trace holds before the first round. -/
theorem Tracing.initial (g : CallGraph) (limits : TraversalLimits) (origin : String) :
    Tracing g limits origin [] [(origin, 0)] {} where
  searching := .initial g.LetsThrough limits origin
  caught := by simp
  looked := by simp

/-- When the queue is empty, everybody reached has had its callers looked at. -/
theorem Tracing.finish {p : Progress} (h : Tracing g limits origin done [] p) :
    Traced g limits origin p where
  result := h.searching.finish
  caught := h.caught
  looked := by
    intro _ y hy x hx
    have hall : done = (origin, 0) :: p.reached := by
      rw [← h.searching.split, List.append_nil]
    rw [seen, ← hall] at hy
    obtain ⟨m, hm⟩ := mem_recordedIds.mp hy
    exact h.looked _ hm x hx

/-- Notes taken at the head are about something recorded, like all notes before. -/
theorem Passed.caught_seen {edges : List (Declaration × EdgeData)} {p : Progress}
    {after : Progress × Bool} {added : List (String × Nat)}
    (hpassed : Passed g limits origin id n edges done queue p.truncated p after added)
    (h : Tracing g limits origin done ((id, n) :: queue) p) :
    ∀ x ∈ after.1.handled, ∃ y ∈ after.1.seen origin, g.Catches x y := by
  intro x hx
  rcases hpassed.caught x hx with hx | hx
  · obtain ⟨y, hy, hcatch⟩ := h.caught x hx
    exact ⟨y, hpassed.seen_mono hy, hcatch⟩
  · refine ⟨id, hpassed.seen_mono ?_, hx⟩
    rw [seen, ← h.searching.split]
    simp

/-- A round over all callers that ran to its end leaves the head. -/
theorem Passed.leave (hg : g.WellFormed) {p : Progress} {after : Progress × Bool}
    {added : List (String × Nat)}
    (hpassed : Passed g limits origin id n (g.callerEdges id) done queue p.truncated p after added)
    (h : Tracing g limits origin done ((id, n) :: queue) p) (hgo : after.2 = false) :
    Tracing g limits origin (done ++ [(id, n)]) (queue ++ added) after.1 := by
  -- below the depth limit an unguarded caller cannot be left out
  have hrecorded : n < limits.maxDepth → ∀ x, g.LetsThrough x id → x ∈ after.1.seen origin := by
    rintro hlt x ⟨data, hedge, hcalls, hopen⟩
    obtain ⟨d, hmem, rfl⟩ := CallGraph.exists_mem_callerEdges hg hedge
    by_contra hnew
    have hlooked := hpassed.looked hgo d data hmem hcalls hnew
    rw [hopen] at hlooked
    exact absurd hlt (Nat.not_lt.mpr hlooked)
  refine ⟨hpassed.searching.leave hrecorded ?_, hpassed.caught_seen h, ?_⟩
  · rw [hpassed.raised hgo]
    refine or_congr Iff.rfl ⟨?_, ?_⟩
    · rintro ⟨c, data, hmem, hcalls, hopen, hnew⟩
      exact ⟨c.id, ⟨data, ((CallGraph.mem_callerEdges hg).mp hmem).2, hcalls, hopen⟩, hnew⟩
    · rintro ⟨x, ⟨data, hedge, hcalls, hopen⟩, hnew⟩
      obtain ⟨d, hmem, rfl⟩ := CallGraph.exists_mem_callerEdges hg hedge
      exact ⟨d, data, hmem, hcalls, hopen, hnew⟩
  · -- a guarded caller of an earlier node was noted then; of this node, in this pass
    intro r hr x hx
    rcases List.mem_append.mp hr with hr | hr
    · rcases h.looked r hr x hx with hx | hx
      · exact Or.inl (hpassed.kept x hx)
      · exact Or.inr (hpassed.seen_mono hx)
    · obtain rfl : r = (id, n) := by simpa using hr
      obtain ⟨data, hedge, hcalls, hguard⟩ := hx
      obtain ⟨d, hmem, rfl⟩ := CallGraph.exists_mem_callerEdges hg hedge
      by_cases hseen : d.id ∈ after.1.seen origin
      · exact Or.inr hseen
      · have hlooked := hpassed.looked hgo d data hmem hcalls hseen
        rw [hguard] at hlooked
        exact Or.inl hlooked

/-- **The loop keeps the trace to its end.** The rounds suffice for the same reason as in any
bounded walk: each of them moves one record to `done`. -/
theorem walk_traced (hg : g.WellFormed) (horigin : origin ∈ g.nodeIds) {fuel : Nat} {p : Progress}
    (h : Tracing g limits origin done queue p) (hfuel : g.nodes.length < done.length + fuel) :
    Traced g limits origin (walk g limits origin fuel queue p) := by
  induction fuel generalizing done queue p with
  -- the fuel exceeds the number of nodes, and no node is expanded twice
  | zero =>
    have hle := h.searching.frontier.length_le horigin fun x y ⟨_, he, _⟩ => (hg.ends_known _ he).1
    rw [List.length_append, CallGraph.nodeIds, List.length_map] at hle
    omega
  | succ fuel ih =>
    cases queue with
    | nil => exact h.finish
    | cons head queue =>
      obtain ⟨id, n⟩ := head
      have hedges : ∀ c data, (c, data) ∈ g.callerEdges id → ⟨c.id, id, data⟩ ∈ g.edges :=
        fun c data hmem => ((CallGraph.mem_callerEdges hg).mp hmem).2
      obtain ⟨added, hpassed⟩ := pass_spec hedges h.searching
      rw [walk]
      rcases hround : pass limits origin n (g.callerEdges id) p with ⟨after, stopped⟩
      rw [hround] at hpassed
      cases stopped with
      | true =>
        -- the visit limit stopped the pass in the middle of the callers
        obtain ⟨hup, hfull, x, hx, hnew⟩ := hpassed.stopped rfl
        refine ⟨?_, hpassed.caught_seen h, fun hdown => absurd hup (by rw [hdown]; simp)⟩
        rw [show after.truncated = true from hup]
        exact hpassed.searching.stop hfull hx hnew
      | false =>
        dsimp only
        rw [show after.reached = p.reached ++ added from hpassed.reached, List.drop_left]
        refine ih (hpassed.leave hg h rfl) ?_
        rw [List.length_append, List.length_singleton]
        omega

end ErrorTrace.Progress

namespace ErrorTrace

/-! ## The result -/

/-- The trace from a declaration when its loop has ended, before anything is sorted. -/
def ended (g : CallGraph) (limits : TraversalLimits) (origin : Declaration) : Progress :=
  Progress.walk g limits origin.id (g.nodes.length + 1) [(origin.id, 0)] {}

/-- The walk has fuel for every node, so it ends by itself. -/
theorem ended_traced {g : CallGraph} (hg : g.WellFormed) (limits : TraversalLimits)
    {origin : Declaration} (horigin : origin ∈ g.nodes) :
    Progress.Traced g limits origin.id (ended g limits origin) := by
  refine Progress.walk_traced hg (List.mem_map_of_mem horigin) (.initial g limits origin.id) ?_
  rw [List.length_nil, Nat.zero_add]
  exact Nat.lt_succ_self _

/-- Near callers come first, and those at one distance by id. -/
def Before (a b : String × Nat) : Prop := a.2 < b.2 ∨ a.2 = b.2 ∧ a.1 < b.1

/-- The report lists what was reached by distance, and by id within one distance. -/
theorem pairwise_before {reached : List (String × Nat)} (hnodup : (recordedIds reached).Nodup) :
    (Order.sortOn (Order.lex Order.count Order.text) (fun h => (h.2, h.1)) reached).Pairwise
      Before := by
  have hperm :=
    Order.perm_sortOn (Order.lex Order.count Order.text)
      (fun h : String × Nat => (h.2, h.1)) reached
  have hsorted := Order.pairwise_sortOn (Order.lex_total Order.count_total Order.text_total)
    (fun h : String × Nat => (h.2, h.1)) reached
  have hdistinct := List.pairwise_map.mp ((hperm.map Prod.fst).nodup_iff.mpr hnodup)
  refine (hsorted.and hdistinct).imp ?_
  rintro a b ⟨hle, hne⟩
  rw [Order.lex_eq_true] at hle
  simp only [Order.count, Order.text, decide_eq_true_eq] at hle
  obtain ⟨hdistance, hid⟩ := hle
  rcases Nat.lt_or_eq_of_le hdistance with hlt | heq
  · exact Or.inl hlt
  · exact Or.inr ⟨heq, lt_of_le_of_ne (hid (Nat.le_of_eq heq.symm)) hne⟩

/-- What the report lists is the result of a breadth first search along the calls that let errors
through. -/
theorem start_searchResult {g : CallGraph} (hg : g.WellFormed) (limits : TraversalLimits)
    {origin : Declaration} (horigin : origin ∈ g.nodes) :
    SearchResult g.LetsThrough limits origin.id (start g limits origin).reached
      (start g limits origin).truncated := by
  have hresult := (ended_traced hg limits horigin).result
  refine hresult.of_perm (Order.perm_sortOn _ _ _) ?_
  refine List.pairwise_map.mpr ((pairwise_before hresult.nodup).imp ?_)
  rintro a b (hlt | ⟨heq, -⟩)
  · exact Nat.le_of_lt hlt
  · exact Nat.le_of_eq heq

/-- What is reached is the same before and after sorting. -/
theorem mem_seen_iff {g : CallGraph} {limits : TraversalLimits} {origin : Declaration}
    {x : String} :
    x ∈ (ended g limits origin).seen origin.id ↔
      x = origin.id ∨ x ∈ recordedIds (start g limits origin).reached := by
  rw [Progress.seen, recordedIds_cons, List.mem_cons]
  exact or_congr Iff.rfl ((Order.perm_sortOn _ _ _).map Prod.fst).mem_iff.symm

/-- The handlers are the guarded callers that no error reached another way. -/
theorem mem_handledBy {g : CallGraph} {limits : TraversalLimits} {origin : Declaration}
    {x : String} :
    x ∈ (start g limits origin).handledBy ↔
      x ∈ (ended g limits origin).handled ∧
        ¬ (x = origin.id ∨ x ∈ recordedIds (start g limits origin).reached) := by
  have hhandled : (start g limits origin).handledBy
      = Text.sortUnique ((ended g limits origin).handled.filter
        (!(ended g limits origin).isSeen origin.id ·)) := rfl
  rw [← mem_seen_iff, ← Progress.isSeen_iff, hhandled, Text.mem_sortUnique, List.mem_filter]
  simp

/-- **Where an error goes, exactly.** On every graph that edits can build, for every origin that a
query means and all limits. The error reaches, once each and sorted, only declarations other than
the origin, at their least number of unguarded calls; the flag is set exactly if one is missing; no
caller both catches the error and lets it through; and unless the flag is set, those that catch it
are exactly the callers with a guarded call to the origin or to something reached, that are not
reached themselves. -/
theorem find_exact (edits : List GraphEdit) (limits : TraversalLimits) (query : String)
    (origin : Declaration)
    (hfound : (({} : CallGraph).applyAll edits).resolveTarget query = .ok origin) :
    let g := ({} : CallGraph).applyAll edits
    ∃ t, find g limits query = .ok t ∧ t.originId = origin.id ∧
      (recordedIds t.reached).Nodup ∧ t.reached.Pairwise Before ∧
      (∀ id n, (id, n) ∈ t.reached → id ≠ origin.id ∧ id ∈ g.nodeIds ∧ n ≤ limits.maxDepth ∧
        IsLeast {k | Chain g.LetsThrough k id origin.id} n) ∧
      t.reached.length ≤ limits.maxVisits ∧
      (∀ id ∈ t.handledBy, id ≠ origin.id ∧ id ∉ recordedIds t.reached) ∧
      (t.truncated = true ↔
        ∃ d ∈ g.nodes, d.id ≠ origin.id ∧ (∃ k, Chain g.LetsThrough k d.id origin.id) ∧
          d.id ∉ recordedIds t.reached) ∧
      (t.truncated = false → t.handledBy.Pairwise (· < ·) ∧
        ∀ id, id ∈ t.handledBy ↔ id ∈ g.nodeIds ∧ id ≠ origin.id ∧ id ∉ recordedIds t.reached ∧
          ∃ callee, (callee = origin.id ∨ callee ∈ recordedIds t.reached) ∧
            g.Catches id callee) := by
  intro g
  have hg : g.WellFormed := CallGraph.wellFormed_applyAll edits
  have horigin : origin ∈ g.nodes := CallGraph.mem_nodes_of_resolveTarget hfound
  have htraced := ended_traced hg limits horigin
  have hresult := start_searchResult hg limits horigin
  -- what leads to a node by a call is a node itself
  have hnode : ∀ x k, Chain g.LetsThrough k x origin.id → x ∈ g.nodeIds := fun x k hchain =>
    hchain.mem_of_closed (fun y z _ ⟨_, he, _⟩ => (hg.ends_known _ he).1)
      (List.mem_map_of_mem horigin)
  refine ⟨start g limits origin, by rw [find, hfound]; rfl, rfl, hresult.nodup,
    pairwise_before htraced.result.nodup, ?_, hresult.length_le, ?_,
      hresult.honest.trans ⟨?_, ?_⟩, ?_⟩
  · intro id n hmem
    have hleast := hresult.isLeast (id, n) hmem
    refine ⟨?_, hnode id n hleast.1, hresult.depth_le (id, n) hmem, hleast⟩
    rintro rfl
    exact hresult.start_not_mem (mem_recordedIds.mpr ⟨n, hmem⟩)
  · exact fun id hid => not_or.mp (mem_handledBy.mp hid).2
  · rintro ⟨x, hne, ⟨k, hchain⟩, hmissing⟩
    obtain ⟨d, hd, rfl⟩ := List.mem_map.mp (hnode x k hchain)
    exact ⟨d, hd, hne, ⟨k, hchain⟩, hmissing⟩
  · rintro ⟨d, -, hne, hchain, hmissing⟩
    exact ⟨d.id, hne, hchain, hmissing⟩
  · intro hdown
    refine ⟨Text.pairwise_sortUnique _, fun id => ?_⟩
    rw [mem_handledBy, not_or]
    constructor
    · rintro ⟨hhandled, hne, hout⟩
      obtain ⟨callee, hcallee, hcatch⟩ := htraced.caught id hhandled
      obtain ⟨data, he, hcall⟩ := hcatch
      exact ⟨(hg.ends_known _ he).1, hne, hout, callee, mem_seen_iff.mp hcallee, data, he, hcall⟩
    · rintro ⟨-, hne, hout, callee, hcallee, hcatch⟩
      rcases htraced.looked hdown callee (mem_seen_iff.mpr hcallee) id hcatch with hhandled | hseen
      · exact ⟨hhandled, hne, hout⟩
      · exact absurd (mem_seen_iff.mp hseen) (not_or.mpr ⟨hne, hout⟩)

/-- The page catches what `save` throws at its own call, but not what comes by way of `submit`. -/
theorem find_sample :
    (({} : CallGraph).applyAll CallGraph.sample).resolveTarget "save"
      = .ok (CallGraph.sampleNode "save") ∧
      find (({} : CallGraph).applyAll CallGraph.sample) ⟨9, 9⟩ "save"
        = .ok ⟨"save", [("retry", 1), ("submit", 2), ("page", 3)], ["form"], [], false⟩ ∧
      IsLeast {k | Chain (({} : CallGraph).applyAll CallGraph.sample).LetsThrough k "page" "save"}
        3 ∧
      ∃ callee, (callee = "save" ∨ callee ∈ ["retry", "submit", "page"]) ∧
        (({} : CallGraph).applyAll CallGraph.sample).Catches "form" callee := by
  have hfound : (({} : CallGraph).applyAll CallGraph.sample).resolveTarget "save"
      = .ok (CallGraph.sampleNode "save") := by rfl
  have hrun : find (({} : CallGraph).applyAll CallGraph.sample) ⟨9, 9⟩ "save"
      = .ok ⟨"save", [("retry", 1), ("submit", 2), ("page", 3)], ["form"], [], false⟩ := by cbv
  obtain ⟨t, ht, -, -, -, hreached, -, -, -, hhandled⟩ :=
    find_exact CallGraph.sample ⟨9, 9⟩ "save" _ hfound
  rw [hrun] at ht
  cases ht
  refine ⟨hfound, hrun, (hreached "page" 3 (by simp)).2.2.2, ?_⟩
  exact (((hhandled rfl).2 "form").mp (by simp)).2.2.2

end ErrorTrace

end CallAtlas
