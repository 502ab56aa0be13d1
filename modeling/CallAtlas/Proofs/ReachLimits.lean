import CallAtlas.Proofs.ReachExact

/-!
# Proofs.ReachLimits — limits cut the end off the walk to the callers, and nothing else

Two walks from one target under different limits run in step until the tighter limits make
themselves felt. From there on the tighter walk records nothing more, and all that the other one
still records is either too far out or too much. No property of the graph is needed for that; only
the queue has to be in order.

* `discover_cases` — one round of recording under two visit limits.
* `Levelled` — the queue is in order of the distances, which spread over two levels at most.
* `walk_eq_cut` — the two loops in step. `callersOf_eq_cut` — what limits leave of the result under
  wider ones.
* `callersOf_cut_by_limits` — limits that are no limits at all, and that wider limits only append.
-/

namespace CallAtlas.Reach

variable {g : CallGraph} {limits wide : TraversalLimits} {start : String}

/-! ## What limits leave -/

/-- The records near enough, as many as there may be. -/
def cut (limits : TraversalLimits) (reached : List (String × Nat)) : List (String × Nat) :=
  (reached.filter fun p => p.2 ≤ limits.maxDepth).take limits.maxVisits

/-- Limits that leave room for everything cut nothing. -/
theorem cut_eq_self {near : List (String × Nat)} (hnear : ∀ p ∈ near, p.2 ≤ limits.maxDepth)
    (hroom : near.length ≤ limits.maxVisits) : cut limits near = near := by
  rw [cut, List.filter_eq_self.mpr (by simpa using hnear), List.take_of_length_le hroom]

/-- What is too far out behind some records does not count. -/
theorem cut_append_far {near far : List (String × Nat)} (hfar : ∀ p ∈ far, limits.maxDepth < p.2) :
    cut limits (near ++ far) = cut limits near := by
  have hnone : far.filter (fun p => p.2 ≤ limits.maxDepth) = [] :=
    List.filter_eq_nil_iff.mpr fun p hp => by simpa using hfar p hp
  rw [cut, cut, List.filter_append, hnone, List.append_nil]

/-- Nothing counts behind enough records. -/
theorem cut_append_full {near : List (String × Nat)} (more : List (String × Nat))
    (hnear : ∀ p ∈ near, p.2 ≤ limits.maxDepth) (hfull : limits.maxVisits ≤ near.length) :
    cut limits (near ++ more) = near.take limits.maxVisits := by
  rw [cut, List.filter_append, List.filter_eq_self.mpr (by simpa using hnear),
    List.take_append_of_le_length hfull]

/-- Of records in order, the near ones come first. -/
theorem cut_isBeginning {reached : List (String × Nat)}
    (hordered : reached.Pairwise fun a b => a.2 ≤ b.2) : cut limits reached <+: reached := by
  refine (List.take_prefix _ _).trans ?_
  induction reached with
  | nil => exact List.nil_prefix
  | cons p rest ih =>
    obtain ⟨hhead, htail⟩ := List.pairwise_cons.mp hordered
    by_cases hp : p.2 ≤ limits.maxDepth
    · rw [List.filter_cons_of_pos (by simpa using hp)]
      exact (List.prefix_cons_inj p).mpr (ih htail)
    · -- all that follows is at least as far out
      have hnone : (p :: rest).filter (fun p => p.2 ≤ limits.maxDepth) = [] := by
        refine List.filter_eq_nil_iff.mpr fun q hq => ?_
        have hle : p.2 ≤ q.2 := by
          rcases List.mem_cons.mp hq with rfl | hq
          · exact Nat.le_refl _
          · exact hhead q hq
        simpa using Nat.lt_of_lt_of_le (Nat.not_le.mp hp) hle
      rw [hnone]
      exact List.nil_prefix

/-! ## One round -/

/-- A round appends callers at one distance. -/
theorem discover_extends (start : String) (visits distance : Nat) (ids : List String)
    (reached : List (String × Nat)) :
    ∃ added, (discover start visits distance ids reached).1 = reached ++ added ∧
      ∀ p ∈ added, p.2 = distance := by
  induction ids generalizing reached with
  | nil => exact ⟨[], (List.append_nil _).symm, List.forall_mem_nil _⟩
  | cons id ids ih =>
    rw [discover]
    -- a seen caller is passed over, a full list ends the round
    split
    · exact ih reached
    · split
      · exact ⟨[], (List.append_nil _).symm, List.forall_mem_nil _⟩
      · obtain ⟨added, heq, hadded⟩ := ih (reached ++ [(id, distance)])
        refine ⟨(id, distance) :: added,
          by rw [heq, List.append_assoc, List.singleton_append], fun p hp => ?_⟩
        rcases List.mem_cons.mp hp with rfl | hp
        · rfl
        · exact hadded p hp

/-- **One round under two visit limits.** Either the tighter one does not interfere and the rounds
are the same, or it is used up, and what is recorded until then is the beginning of what the other
round records. -/
theorem discover_cases {few many : Nat} (hle : few ≤ many) (start : String) (distance : Nat)
    (ids : List String) {reached : List (String × Nat)} (hroom : reached.length ≤ few) :
    (∃ all, discover start few distance ids reached = (all, false) ∧
        discover start many distance ids reached = (all, false) ∧ all.length ≤ few) ∨
      (discover start few distance ids reached
        = ((discover start many distance ids reached).1.take few, true) ∧
        few ≤ (discover start many distance ids reached).1.length) := by
  induction ids generalizing reached with
  | nil => exact Or.inl ⟨reached, rfl, rfl, hroom⟩
  | cons id ids ih =>
    by_cases hseen : isSeen start reached id = true
    · simp only [discover, hseen, if_true]
      exact ih hroom
    · by_cases hfull : few ≤ reached.length
      · -- here the tighter round ends; the other one can only append
        obtain ⟨added, heq, -⟩ := discover_extends start many distance (id :: ids) reached
        have hlength : few = reached.length := Nat.le_antisymm hfull hroom
        right
        rw [heq, hlength, List.take_left, List.length_append]
        exact ⟨by simp [discover, hseen], Nat.le_add_right _ _⟩
      · have hmany : ¬ many ≤ reached.length := by omega
        simp only [discover, hseen, hfull, hmany, if_false]
        refine ih ?_
        rw [List.length_append, List.length_singleton]
        omega

/-! ## The queue -/

/-- The queue of a walk: near ids first, and no two of them more than one level apart. -/
structure Levelled (queue : List (String × Nat)) : Prop where
  ordered : queue.Pairwise fun a b => a.2 ≤ b.2
  span : ∀ p ∈ queue, ∀ q ∈ queue, p.2 ≤ q.2 + 1

/-- The head makes way for ids one level further out. -/
theorem Levelled.round {id : String} {n : Nat} {queue added : List (String × Nat)}
    (h : Levelled ((id, n) :: queue)) (hadded : ∀ p ∈ added, p.2 = n + 1) :
    Levelled (queue ++ added) := by
  obtain ⟨hhead, htail⟩ := List.pairwise_cons.mp h.ordered
  have hqueue : ∀ p ∈ queue ++ added, n ≤ p.2 ∧ p.2 ≤ n + 1 := by
    intro p hp
    rcases List.mem_append.mp hp with hp | hp
    · exact ⟨hhead p hp, h.span p (List.mem_cons_of_mem _ hp) (id, n) List.mem_cons_self⟩
    · rw [hadded p hp]
      exact ⟨Nat.le_succ n, Nat.le_refl _⟩
  constructor
  · refine List.pairwise_append.mpr ⟨htail, ?_, fun p hp q hq => ?_⟩
    · exact List.pairwise_of_forall_mem_list fun p hp q hq => by rw [hadded p hp, hadded q hq]
    · rw [hadded q hq]
      exact (hqueue p (List.mem_append_left _ hp)).2
  · intro p hp q hq
    exact Nat.le_trans (hqueue p hp).2 (Nat.succ_le_succ (hqueue q hq).1)

/-- The head is the nearest of the queue. -/
theorem Levelled.head_le {head : String × Nat} {queue : List (String × Nat)}
    (h : Levelled (head :: queue)) : ∀ p ∈ head :: queue, head.2 ≤ p.2 := by
  intro p hp
  rcases List.mem_cons.mp hp with rfl | hp
  · exact Nat.le_refl _
  · exact (List.pairwise_cons.mp h.ordered).1 p hp

/-! ## One walk -/

/-- A round under any limits only appends, one level further out than the head. The walk ends there
or goes on with the new records behind the queue. -/
theorem walk_cons (g : CallGraph) (limits : TraversalLimits) (start : String) (fuel : Nat)
    (id : String) (n : Nat) (queue : List (String × Nat)) (r : Reach) :
    ∃ added r', r'.reached = r.reached ++ added ∧ (∀ p ∈ added, p.2 = n + 1) ∧
      (walk g limits start (fuel + 1) ((id, n) :: queue) r = r' ∨
        walk g limits start (fuel + 1) ((id, n) :: queue) r
          = walk g limits start fuel (queue ++ added) r') := by
  rw [walk]
  -- at the depth limit nothing is added, only the flag may go up
  by_cases hdeep : limits.maxDepth ≤ n
  · rw [if_pos hdeep]
    let flagged : Reach :=
      { r with truncated := r.truncated || (g.callerIds id).any (!isSeen start r.reached ·) }
    refine ⟨[], flagged, (List.append_nil _).symm, List.forall_mem_nil _, Or.inr ?_⟩
    rw [List.append_nil]
  · rw [if_neg hdeep]
    obtain ⟨added, heq, hadded⟩ :=
      discover_extends start limits.maxVisits (n + 1) (g.callerIds id) r.reached
    rcases hround : discover start limits.maxVisits (n + 1) (g.callerIds id) r.reached
      with ⟨reached, full⟩
    rw [hround] at heq
    obtain rfl : reached = r.reached ++ added := heq
    cases full with
    | true => exact ⟨added, ⟨_, true⟩, rfl, hadded, Or.inl rfl⟩
    | false =>
      refine ⟨added, { r with reached := r.reached ++ added }, rfl, hadded, Or.inr ?_⟩
      dsimp only
      rw [List.drop_left]

/-- **A walk only appends**, and only what is further out than its queue. -/
theorem walk_extends (g : CallGraph) (limits : TraversalLimits) (start : String) (fuel : Nat)
    {k : Nat} {queue : List (String × Nat)} (r : Reach) (hqueue : ∀ p ∈ queue, k ≤ p.2) :
    ∃ added, (walk g limits start fuel queue r).reached = r.reached ++ added ∧
      ∀ p ∈ added, k < p.2 := by
  -- each round appends one step beyond its vertex, and vertices come in order of distance
  induction fuel generalizing queue r with
  | zero => exact ⟨[], (List.append_nil _).symm, List.forall_mem_nil _⟩
  | succ fuel ih =>
    cases queue with
    | nil => exact ⟨[], (List.append_nil _).symm, List.forall_mem_nil _⟩
    | cons head queue =>
      obtain ⟨id, n⟩ := head
      have hn : k ≤ n := hqueue (id, n) List.mem_cons_self
      obtain ⟨added, r', hr', hadded, hround⟩ := walk_cons g limits start fuel id n queue r
      have hfar : ∀ p ∈ added, k < p.2 := fun p hp => by
        rw [hadded p hp]; exact Nat.lt_succ_of_le hn
      rcases hround with hend | hon
      · exact ⟨added, by rw [hend, hr'], hfar⟩
      · have hrest : ∀ p ∈ queue ++ added, k ≤ p.2 := by
          intro p hp
          rcases List.mem_append.mp hp with hp | hp
          · exact hqueue p (List.mem_cons_of_mem _ hp)
          · exact Nat.le_of_lt (hfar p hp)
        obtain ⟨more, hmore, hfarther⟩ := ih r' hrest
        refine ⟨added ++ more, by rw [hon, hmore, hr', List.append_assoc], fun p hp => ?_⟩
        exact (List.mem_append.mp hp).elim (hfar p) (hfarther p)

/-- A record is no further out than there are records. -/
theorem walk_distance_le {fuel : Nat} {queue : List (String × Nat)} {r : Reach}
    (hqueue : ∀ p ∈ queue, p.2 ≤ r.reached.length)
    (hreached : ∀ p ∈ r.reached, p.2 ≤ r.reached.length) :
    ∀ p ∈ (walk g limits start fuel queue r).reached,
      p.2 ≤ (walk g limits start fuel queue r).reached.length := by
  induction fuel generalizing queue r with
  | zero => exact hreached
  | succ fuel ih =>
    cases queue with
    | nil => exact hreached
    | cons head queue =>
      obtain ⟨id, n⟩ := head
      have hn : n ≤ r.reached.length := hqueue (id, n) List.mem_cons_self
      obtain ⟨added, r', hr', hadded, hround⟩ := walk_cons g limits start fuel id n queue r
      have hgrown : r.reached.length ≤ r'.reached.length := by
        rw [hr', List.length_append]
        exact Nat.le_add_right _ _
      -- a new record is one further out than the head, and there is one record more
      have hnew : ∀ p ∈ added, p.2 ≤ r'.reached.length := by
        intro p hp
        have hpos : 0 < added.length := List.length_pos_of_mem hp
        rw [hadded p hp, hr', List.length_append]
        omega
      have hall : ∀ p ∈ r'.reached, p.2 ≤ r'.reached.length := by
        intro p hp
        rw [hr'] at hp
        exact (List.mem_append.mp hp).elim (fun hp => Nat.le_trans (hreached p hp) hgrown) (hnew p)
      rcases hround with hend | hon
      · rw [hend]
        exact hall
      · rw [hon]
        refine ih (fun p hp => ?_) hall
        rcases List.mem_append.mp hp with hp | hp
        · exact Nat.le_trans (hqueue p (List.mem_cons_of_mem _ hp)) hgrown
        · exact hnew p hp

/-- Nothing is recorded from the depth limit on. -/
theorem walk_deep {fuel : Nat} {queue : List (String × Nat)} {r : Reach}
    (hqueue : ∀ p ∈ queue, limits.maxDepth ≤ p.2) :
    (walk g limits start fuel queue r).reached = r.reached := by
  induction fuel generalizing queue r with
  | zero => rfl
  | succ fuel ih =>
    cases queue with
    | nil => rfl
    | cons head queue =>
      obtain ⟨id, n⟩ := head
      rw [walk, if_pos (hqueue (id, n) List.mem_cons_self)]
      exact ih fun p hp => hqueue p (List.mem_cons_of_mem _ hp)

/-! ## Two walks in step -/

/-- **Two walks in step.** They share their queue and their records. Induction on the rounds, of
which both have as many left: as long as the tighter limits do not interfere both do the same; at
its depth limit the tighter walk is through, and at its visit limit it stops. -/
theorem walk_eq_cut (hdepth : limits.maxDepth ≤ wide.maxDepth)
    (hvisits : limits.maxVisits ≤ wide.maxVisits) {fuel : Nat} {queue : List (String × Nat)}
    {r r' : Reach} (hqueue : Levelled queue) (hsame : r'.reached = r.reached)
    (hnear : ∀ p ∈ r.reached, p.2 ≤ limits.maxDepth) (hroom : r.reached.length ≤ limits.maxVisits) :
    (walk g limits start fuel queue r).reached
      = cut limits (walk g wide start fuel queue r').reached := by
  induction fuel generalizing queue r r' with
  | zero =>
    rw [walk, walk, hsame]
    exact (cut_eq_self hnear hroom).symm
  | succ fuel ih =>
    cases queue with
    | nil =>
      rw [walk, walk, hsame]
      exact (cut_eq_self hnear hroom).symm
    | cons head queue =>
      obtain ⟨id, n⟩ := head
      by_cases hdeep : limits.maxDepth ≤ n
      · have hall : ∀ p ∈ (id, n) :: queue, limits.maxDepth ≤ p.2 := fun p hp =>
          Nat.le_trans hdeep (hqueue.head_le p hp)
        obtain ⟨far, heq, hfar⟩ := walk_extends g wide start (fuel + 1) r' hall
        rw [walk_deep hall, heq, hsame, cut_append_far hfar, cut_eq_self hnear hroom]
      · have hlt : n < limits.maxDepth := Nat.not_le.mp hdeep
        rw [walk, walk, if_neg hdeep,
          if_neg (Nat.not_le.mpr (Nat.lt_of_lt_of_le hlt hdepth)), hsame]
        obtain ⟨added, hadded, hlevel⟩ :=
          discover_extends start wide.maxVisits (n + 1) (g.callerIds id) r.reached
        have hnear' : ∀ p ∈ r.reached ++ added, p.2 ≤ limits.maxDepth := by
          intro p hp
          rcases List.mem_append.mp hp with hp | hp
          · exact hnear p hp
          · rw [hlevel p hp]
            exact hlt
        rcases discover_cases hvisits start (n + 1) (g.callerIds id) hroom with
          ⟨all, hfew, hmany, hlength⟩ | ⟨hfew, hfull⟩
        · rw [hmany] at hadded
          obtain rfl : all = r.reached ++ added := hadded
          rw [hfew, hmany]
          dsimp only
          rw [List.drop_left]
          exact ih (hqueue.round hlevel) rfl hnear' hlength
        · -- whether or not the wider walk goes on, it has enough records already
          rw [hfew]
          rcases hmany : discover start wide.maxVisits (n + 1) (g.callerIds id) r.reached
            with ⟨all, full⟩
          rw [hmany] at hadded hfull
          obtain rfl : all = r.reached ++ added := hadded
          cases full with
          | true =>
            have hcut := cut_append_full [] hnear' hfull
            rw [List.append_nil] at hcut
            exact hcut.symm
          | false =>
            dsimp only
            obtain ⟨more, heq, -⟩ :=
              walk_extends g wide start fuel { r' with reached := r.reached ++ added }
              (fun p (_ : p ∈ queue ++ (r.reached ++ added).drop r.reached.length) =>
                Nat.zero_le p.2)
            rw [heq, cut_append_full more hnear' hfull]

/-! ## The result -/

/-- **What limits leave of the callers under wider limits.** -/
theorem callersOf_eq_cut (g : CallGraph) (target : String)
    (hdepth : limits.maxDepth ≤ wide.maxDepth) (hvisits : limits.maxVisits ≤ wide.maxVisits) :
    (callersOf g limits target).reached = cut limits (callersOf g wide target).reached := by
  rw [callersOf, callersOf]
  split
  · exact walk_eq_cut hdepth hvisits ⟨List.pairwise_singleton _ _,
      by simp⟩ rfl (List.forall_mem_nil _) (Nat.zero_le _)
  · exact (cut_eq_self (List.forall_mem_nil _) (Nat.zero_le _)).symm

/-- Every distance is filled, so a distance is at most the number of nodes reached. -/
theorem callersOf_distance_le (g : CallGraph) (limits : TraversalLimits) (target : String) :
    ∀ p ∈ (callersOf g limits target).reached,
      p.2 ≤ (callersOf g limits target).reached.length := by
  rw [callersOf]
  split
  · exact walk_distance_le (by simp) (List.forall_mem_nil _)
  · exact List.forall_mem_nil _

/-- Beyond the number of declarations a limit is none. -/
theorem callersOf_eq_of_wide (hg : g.WellFormed) {target : String}
    (hknown : g.contains target = true) {wider : TraversalLimits}
    (hdepth : g.nodes.length ≤ wide.maxDepth) (hvisits : g.nodes.length ≤ wide.maxVisits)
    (hdepth' : wide.maxDepth ≤ wider.maxDepth) (hvisits' : wide.maxVisits ≤ wider.maxVisits) :
    (callersOf g wide target).reached = (callersOf g wider target).reached := by
  have hlength : (callersOf g wider target).reached.length < g.nodes.length := by
    have hlt :=
      (callersOf_searchResult hg wider hknown).length_lt (CallGraph.contains_iff.mp hknown)
      fun x y ⟨_, he⟩ => (hg.ends_known _ he).1
    rwa [CallGraph.nodeIds, List.length_map] at hlt
  rw [callersOf_eq_cut g target hdepth' hvisits']
  refine cut_eq_self (fun p hp => ?_) (by omega)
  have hle := callersOf_distance_le g wider target p hp
  omega

/-- Narrower limits reach a beginning of what wider limits reach. -/
theorem callersOf_isBeginning (hg : g.WellFormed) {target : String}
    (hknown : g.contains target = true) (hdepth : limits.maxDepth ≤ wide.maxDepth)
    (hvisits : limits.maxVisits ≤ wide.maxVisits) :
    (callersOf g limits target).reached <+: (callersOf g wide target).reached := by
  rw [callersOf_eq_cut g target hdepth hvisits]
  exact cut_isBeginning (List.pairwise_map.mp (callersOf_searchResult hg wide hknown).ordered)

/-- **Limits only cut off the end.** On every graph that edits can build and for every known target:
take limits that are no smaller than the number of declarations. Under any limits are reported, of
all that is reported under those, the callers within the depth limit, the first ones, as many as the
visit limit allows. With wider limits more can only come behind that. -/
theorem callersOf_cut_by_limits (edits : List GraphEdit) (target : String)
    (limits wide : TraversalLimits)
    (hknown : (({} : CallGraph).applyAll edits).contains target = true)
    (hdepth : (({} : CallGraph).applyAll edits).nodes.length ≤ wide.maxDepth)
    (hvisits : (({} : CallGraph).applyAll edits).nodes.length ≤ wide.maxVisits) :
    let g := ({} : CallGraph).applyAll edits
    (callersOf g limits target).reached =
        ((callersOf g wide target).reached.filter fun p =>
          p.2 ≤ limits.maxDepth).take limits.maxVisits ∧
      ∀ wider : TraversalLimits, limits.maxDepth ≤ wider.maxDepth →
        limits.maxVisits ≤ wider.maxVisits →
        (callersOf g limits target).reached <+: (callersOf g wider target).reached := by
  intro g
  have hg : g.WellFormed := CallGraph.wellFormed_applyAll edits
  refine ⟨?_, fun wider hdepth' hvisits' => callersOf_isBeginning hg hknown hdepth' hvisits'⟩
  -- the two pairs of limits need not be comparable, but both are below this one
  let both : TraversalLimits :=
    ⟨max limits.maxDepth wide.maxDepth, max limits.maxVisits wide.maxVisits⟩
  have hwide : (callersOf g wide target).reached = (callersOf g both target).reached :=
    callersOf_eq_of_wide hg hknown hdepth hvisits (Nat.le_max_right _ _) (Nat.le_max_right _ _)
  rw [hwide]
  exact callersOf_eq_cut g target (Nat.le_max_left _ _) (Nat.le_max_left _ _)

/-- In the small graph, the tight limits leave two of the four callers of `save`: one is too far
out, and of the three others only two are taken. -/
theorem callersOf_cut_by_limits_sample :
    (({} : CallGraph).applyAll CallGraph.sample).contains "save" = true ∧
      (({} : CallGraph).applyAll CallGraph.sample).nodes.length ≤ 5 ∧
      (callersOf (({} : CallGraph).applyAll CallGraph.sample) ⟨5, 5⟩ "save").reached
        = [("page", 1), ("retry", 1), ("submit", 2), ("form", 3)] ∧
      (callersOf (({} : CallGraph).applyAll CallGraph.sample) ⟨2, 2⟩ "save").reached
        = [("page", 1), ("retry", 1)] ∧
      [("page", 1), ("retry", 1)] <+:
        (callersOf (({} : CallGraph).applyAll CallGraph.sample) ⟨2, 7⟩ "save").reached := by
  have hknown : (({} : CallGraph).applyAll CallGraph.sample).contains "save" = true := by decide
  have hsize : (({} : CallGraph).applyAll CallGraph.sample).nodes.length ≤ 5 := by decide
  have hall : (callersOf (({} : CallGraph).applyAll CallGraph.sample) ⟨5, 5⟩ "save").reached
      = [("page", 1), ("retry", 1), ("submit", 2), ("form", 3)] := by cbv
  obtain ⟨hcut, hmore⟩ :=
    callersOf_cut_by_limits CallGraph.sample "save" ⟨2, 2⟩ ⟨5, 5⟩ hknown hsize hsize
  rw [hall] at hcut
  have hmore := hmore ⟨2, 7⟩ (Nat.le_refl 2) (by decide)
  rw [hcut] at hmore
  exact ⟨hknown, hsize, hall, hcut, hmore⟩

end CallAtlas.Reach
