import CallAtlas.Impact.EntryPaths
import CallAtlas.Proofs.BreadthFirst
import CallAtlas.Proofs.GraphRepresentation

/-!
# Proofs.EntryRoutes — the paths to entry points are all the ways outwards that end at the first one

The search keeps a stack of unfinished paths. It finishes a path at an entry point and else puts
each continuation on the stack. What it is after is said here without a stack.

* `Route` — a way from the target against the calls, written from its end: no declaration twice, and
  no entry point before its end.
* `Tracing` — the invariant. Every route to an entry point is found already or continues an
  unfinished path, unless a limit has cut something off. There is one lemma for each thing that can
  happen to the path on top of the stack.
* `search_traced` — the search keeps the invariant and never runs out of rounds. `find_traced` — so
  it finds the routes to entry points, and without a cut all of them.
* `exists_arrives_iff` — a route arrives at an entry point exactly if a chain of calls leads from
  there to the target on which no other one is an entry point.
-/

namespace CallAtlas

namespace CallGraph

/-- An edge leads to something that is no entry point. -/
def CallsInside (g : CallGraph) (caller callee : String) : Prop :=
  g.Calls caller callee ∧ g.isEntryPoint callee = false

/-- A declaration has at most as many callers as there are nodes. -/
theorem length_callerIds_le {g : CallGraph} (hg : g.WellFormed) (id : String) :
    (g.callerIds id).length ≤ g.nodes.length := by
  have hnodup : (g.callerIds id).Nodup := (pairwise_callerIds hg id).imp fun h => ne_of_lt h
  have hsub : g.callerIds id ⊆ g.nodeIds := by
    intro caller hcaller
    obtain ⟨_, he⟩ := (mem_callerIds hg).mp hcaller
    exact (hg.ends_known _ he).1
  have hle : (g.callerIds id).length ≤ g.nodeIds.length :=
    (List.subperm_of_subset hnodup hsub).length_le
  rwa [nodeIds, List.length_map] at hle

end CallGraph

namespace EntryPaths

variable {g : CallGraph} {limits : TraversalLimits} {target : String}

/-! ## Routes -/

/-- A way from the target against the calls, written from its end. -/
inductive Route (g : CallGraph) (target : String) : List String → Prop where
  | start : Route g target [target]
  | step {caller current : String} {before : List String}
      (hroute : Route g target (current :: before))
      (hopen : g.isEntryPoint current = false) (hcall : g.Calls caller current)
      (hnew : caller ∉ current :: before) :
      Route g target (caller :: current :: before)

theorem not_route_nil : ¬ Route g target [] := nofun

/-- Every route begins at the target. -/
theorem Route.start_suffix {route : List String}
    (h : Route g target route) : [target] <:+ route := by
  induction h with
  | start => exact List.suffix_rfl
  | step _ _ _ _ ih => exact ih.trans (List.suffix_cons _ _)

/-- The beginning of a route is a route. -/
theorem Route.of_suffix {route part : List String} (h : Route g target route)
    (hpart : part <:+ route) (hne : part ≠ []) : Route g target part := by
  induction h with
  | start =>
    rcases List.suffix_cons_iff.mp hpart with rfl | hnil
    · exact .start
    · exact absurd (List.suffix_nil.mp hnil) hne
  | step hroute hopen hcall hnew ih =>
    rcases List.suffix_cons_iff.mp hpart with rfl | hpart
    · exact .step hroute hopen hcall hnew
    · exact ih hpart

/-- **A route ends with its beginning or goes on there.** If it goes on, it does so through a caller
that is not on it yet, and the beginning does not end at an entry point. -/
theorem Route.suffix_cases {route before : List String} {current : String}
    (h : Route g target route) (hpart : current :: before <:+ route) :
    route = current :: before ∨ g.isEntryPoint current = false ∧
      ∃ caller, g.Calls caller current ∧ caller ∉ current :: before ∧
        caller :: current :: before <:+ route := by
  induction h with
  | start =>
    rcases List.suffix_cons_iff.mp hpart with heq | hnil
    · exact Or.inl heq.symm
    · exact absurd (List.suffix_nil.mp hnil) (List.cons_ne_nil _ _)
  | step hroute hopen hcall hnew ih =>
    rcases List.suffix_cons_iff.mp hpart with heq | hpart
    · exact Or.inl heq.symm
    · rcases ih hpart with heq | ⟨hinside, caller, hcaller, hfresh, hlonger⟩
      · -- the last step of the route is the one right behind the beginning
        obtain ⟨rfl, rfl⟩ := List.cons.inj heq
        exact Or.inr ⟨hopen, _, hcall, hnew, List.suffix_rfl⟩
      · exact Or.inr ⟨hinside, caller, hcaller, hfresh, hlonger.trans (List.suffix_cons _ _)⟩

/-- A route that ends at an entry point. -/
def Arrives (g : CallGraph) (target : String) (route : List String) : Prop :=
  Route g target route ∧ ∃ id, route.head? = some id ∧ g.isEntryPoint id = true

/-! ## The invariant -/

/-- The callers of the end of a path that are not on it. -/
theorem mem_fresh (hg : g.WellFormed) {path : List String} {caller current : String} :
    caller ∈ (g.callerIds current).filter (!path.contains ·) ↔
      g.Calls caller current ∧ caller ∉ path := by
  rw [List.mem_filter, CallGraph.mem_callerIds hg, Bool.not_eq_true', Bool.eq_false_iff, ne_eq,
    List.contains_iff_mem]

/-- A search in progress. -/
structure Tracing (g : CallGraph) (target : String) (todo : List (List String))
    (found : EntryPaths) : Prop where
  routes : ∀ path ∈ todo, Route g target path
  sound : ∀ path ∈ found.paths, Arrives g target path.reverse
  complete : found.truncated = false → ∀ route, Arrives g target route →
    route.reverse ∈ found.paths ∨ ∃ path ∈ todo, path <:+ route

namespace Tracing

variable {todo : List (List String)} {found : EntryPaths} {current : String} {before : List String}

/-- At the start every route to come extends the one open path. -/
theorem initial (g : CallGraph) (target : String) : Tracing g target [[target]] {} where
  routes path hpath := by
    obtain rfl := List.mem_singleton.mp hpath
    exact .start
  sound path hpath := absurd hpath List.not_mem_nil
  complete _ route harrives := Or.inr ⟨[target], List.mem_singleton_self _, harrives.1.start_suffix⟩

/-- A path that ends at an entry point is found. No route goes on behind it. -/
theorem arrive (h : Tracing g target ((current :: before) :: todo) found)
    (hentry : g.isEntryPoint current = true) :
    Tracing g target todo { found with paths := found.paths ++ [(current :: before).reverse] } where
  routes path hpath := h.routes path (List.mem_cons_of_mem _ hpath)
  sound path hpath := by
    rcases List.mem_append.mp hpath with hpath | hpath
    · exact h.sound path hpath
    · rw [List.mem_singleton.mp hpath, List.reverse_reverse]
      exact ⟨h.routes _ List.mem_cons_self, current, rfl, hentry⟩
  complete hwhole route harrives := by
    rcases h.complete hwhole route harrives with hfound | ⟨path, hpath, hsuffix⟩
    · exact Or.inl (List.mem_append_left _ hfound)
    · rcases List.mem_cons.mp hpath with rfl | hpath
      · rcases harrives.1.suffix_cases hsuffix with rfl | ⟨hinside, -⟩
        · exact Or.inl (List.mem_append_right _ (List.mem_singleton_self _))
        · -- a route that goes on from here has passed an entry point
          rw [hentry] at hinside
          cases hinside
      · exact Or.inr ⟨path, hpath, hsuffix⟩

/-- A path that ends at no entry point is replaced by all its continuations. -/
theorem extend (hg : g.WellFormed) (h : Tracing g target ((current :: before) :: todo) found)
    (hinside : g.isEntryPoint current = false) :
    Tracing g target
      (((g.callerIds current).filter (!(current :: before).contains ·)).map (· :: current ::
        before) ++ todo)
      found where
  routes path hpath := by
    rcases List.mem_append.mp hpath with hpath | hpath
    · obtain ⟨caller, hcaller, rfl⟩ := List.mem_map.mp hpath
      obtain ⟨hcall, hnew⟩ := (mem_fresh hg).mp hcaller
      exact .step (h.routes _ List.mem_cons_self) hinside hcall hnew
    · exact h.routes path (List.mem_cons_of_mem _ hpath)
  sound := h.sound
  complete hwhole route harrives := by
    rcases h.complete hwhole route harrives with hfound | ⟨path, hpath, hsuffix⟩
    · exact Or.inl hfound
    · refine Or.inr ?_
      rcases List.mem_cons.mp hpath with rfl | hpath
      · rcases harrives.1.suffix_cases hsuffix with rfl | ⟨-, caller, hcall, hnew, hlonger⟩
        · -- a route that ends here does not arrive
          obtain ⟨id, hid, hentry⟩ := harrives.2
          obtain rfl : current = id := Option.some.inj hid
          rw [hinside] at hentry
          cases hentry
        · have hcaller := (mem_fresh hg).mpr ⟨hcall, hnew⟩
          exact ⟨_, List.mem_append_left _ (List.mem_map_of_mem hcaller), hlonger⟩
      · exact ⟨path, List.mem_append_right _ hpath, hsuffix⟩

/-- With the flag up, paths may be dropped. -/
theorem cut {path : List String} {rest : List (List String)}
    (h : Tracing g target (path :: todo) found) (hrest : rest ⊆ todo) :
    Tracing g target rest { found with truncated := true } where
  routes path hpath := h.routes path (List.mem_cons_of_mem _ (hrest hpath))
  sound := h.sound
  complete hwhole := nomatch hwhole

end Tracing

/-! ## The search -/

/-- **The search keeps the invariant to its end.** Every round takes one path off the stack, and
only a visit puts paths there, no more than there are nodes; `hfuel` sets aside that many rounds for
each visit that is left. Induction on the rounds. -/
theorem search_traced (hg : g.WellFormed) {fuel visits : Nat} {todo : List (List String)}
    {found : EntryPaths} (h : Tracing g target todo found)
    (hfuel : todo.length + (limits.maxVisits - visits) * (g.nodes.length + 1) < fuel) :
    Tracing g target [] (search g limits fuel visits todo found) := by
  induction fuel generalizing visits todo found with
  | zero => omega
  | succ fuel ih =>
    cases todo with
    | nil => exact h
    | cons path todo =>
      cases path with
      | nil => exact absurd (h.routes [] List.mem_cons_self) not_route_nil
      | cons current before =>
        rw [List.length_cons] at hfuel
        rw [search]
        by_cases hentry : g.isEntryPoint current = true
        · rw [if_pos hentry]
          exact ih (h.arrive hentry) (by omega)
        · rw [if_neg hentry]
          by_cases hfull : limits.maxVisits ≤ visits
          · -- the visit limit ends the search
            rw [if_pos hfull]
            exact h.cut (List.nil_subset _)
          · rw [if_neg hfull]
            have hinside : g.isEntryPoint current = false := Bool.eq_false_iff.mpr hentry
            have hextended := h.extend hg hinside
            -- one visit is used up, and with it the rounds that were set aside for it
            have hvisit : limits.maxVisits - visits = limits.maxVisits - (visits + 1) + 1 := by
              omega
            rw [hvisit, Nat.add_mul, Nat.one_mul] at hfuel
            have hfresh : ((g.callerIds current).filter (!(current :: before).contains ·)).length
                ≤ g.nodes.length :=
              Nat.le_trans (List.length_filter_le _ _) (CallGraph.length_callerIds_le hg current)
            split
            · next hnone =>
              rw [hnone] at hextended
              exact ih hextended (by omega)
            · next hsome =>
              split
              · exact ih (h.cut (List.Subset.refl _)) (by omega)
              · refine ih hextended ?_
                rw [List.length_append, List.length_map]
                omega

/-- **The paths to entry points, exactly.** On a well-formed graph there is an answer for every
query that means a declaration. Every path in it is a route to an entry point, and if no limit cut
the search short, every such route is in it. -/
theorem find_traced (hg : g.WellFormed) (limits : TraversalLimits) {query : String}
    {d : Declaration} (hfound : g.resolveTarget query = .ok d) :
    ∃ p, find g limits query = .ok p ∧ (∀ path ∈ p.paths, Arrives g d.id path.reverse) ∧
      (p.truncated = false → ∀ route, Arrives g d.id route → route.reverse ∈ p.paths) := by
  -- the search proper; only the order of its paths is changed afterwards
  let found := search g limits ((limits.maxVisits + 1) * (g.nodes.length + 1) + 1) 0 [[d.id]] {}
  have htraced : Tracing g d.id [] found := by
    refine search_traced hg (.initial g d.id) ?_
    rw [List.length_singleton, Nat.sub_zero, Nat.add_mul, Nat.one_mul]
    omega
  refine ⟨{ found with paths := Order.sortOn pathLe id found.paths },
    by rw [find, hfound]; rfl, ?_, ?_⟩
  · exact fun path hpath => htraced.sound path (Order.mem_sortOn.mp hpath)
  · intro hwhole route harrives
    rcases htraced.complete hwhole route harrives with hpath | ⟨path, hpath, -⟩
    · exact Order.mem_sortOn.mpr hpath
    · cases hpath

/-! ## Routes and chains -/

/-- A route is a chain of calls between its ends that passes no entry point inside. -/
theorem Route.exists_chain {route : List String} (h : Route g target route) {id : String}
    (hid : route.head? = some id) : ∃ n, Chain g.CallsInside n id target := by
  induction h generalizing id with
  | start =>
    obtain rfl := Option.some.inj hid
    exact ⟨0, .refl _⟩
  | step _ hopen hcall _ ih =>
    obtain rfl := Option.some.inj hid
    obtain ⟨n, hchain⟩ := ih rfl
    exact ⟨n + 1, .step ⟨hcall, hopen⟩ hchain⟩

/-- A chain becomes a route if its loops are left out. Induction on the chain. -/
theorem exists_route_of_chain {n : Nat} {id : String} (h : Chain g.CallsInside n id target) :
    ∃ before, Route g target (id :: before) := by
  induction h with
  | refl target => exact ⟨[], .start⟩
  | @step _ caller current _ hstep _ ih =>
    obtain ⟨before, hroute⟩ := ih
    by_cases hmem : caller ∈ current :: before
    · -- the route passes through the caller already, so its beginning up to there will do
      obtain ⟨after, rest, hsplit⟩ := List.append_of_mem hmem
      exact ⟨rest, hroute.of_suffix ⟨after, hsplit.symm⟩ (List.cons_ne_nil _ _)⟩
    · exact ⟨current :: before, .step hroute hstep.2 hstep.1 hmem⟩

/-- **Where routes arrive.** -/
theorem exists_arrives_iff {id : String} :
    (∃ route, Arrives g target route ∧ route.head? = some id) ↔
      g.isEntryPoint id = true ∧ ∃ n, Chain g.CallsInside n id target := by
  constructor
  · rintro ⟨route, ⟨hroute, id', hid', hentry⟩, hid⟩
    obtain rfl : id' = id := Option.some.inj (hid'.symm.trans hid)
    exact ⟨hentry, hroute.exists_chain hid⟩
  · rintro ⟨hentry, n, hchain⟩
    obtain ⟨before, hroute⟩ := exists_route_of_chain hchain
    exact ⟨id :: before, ⟨hroute, id, rfl, hentry⟩, rfl⟩

end EntryPaths

end CallAtlas
