import CallAtlas.ErrorFlow.Profile
import CallAtlas.Proofs.ErrorTraceExact
import CallAtlas.Proofs.GraphRepresentation

/-!
# Proofs.ErrorProfileExact — what a callable lets out, and what a cut trace hides

Profiles are put together from traces. One trace runs backwards from every callable that raises, and
a callable receives errors from the origins of those traces that recorded it. Seen from the callable
this is a question about chains of unguarded calls that lead forwards, down to something that
raises.

* `all_eq` — the profiles as one map over the callables, and `mem_origins` for what they receive.
* `make_ranked` — what decides the rank of a profile.
* `all_exact` — if the visit limit admits every declaration, profiles are exact up to the depth
  limit.
* `risk_eq_safe_iff_cut` — under any limits, a caller of something that fails is called safe exactly
  if all traces that lead to it were cut before they came to it.
* `relay_reported_safe` — which happens under the default limits.
-/

namespace CallAtlas

namespace CallGraph

variable {g : CallGraph}

/-- A callable of the graph whose own body lets errors out. -/
def Raising (g : CallGraph) (d : Declaration) : Prop :=
  d ∈ g.nodes ∧ d.kind.isCallable = true ∧ g.raiseSources d ≠ []

/-- The check for an unguarded caller finds another node that lets an error of this one through. -/
theorem hasUnguardedCaller_iff (hg : g.WellFormed) {id : String} :
    g.hasUnguardedCaller id = true ↔
      ∃ caller ∈ g.nodes, caller.id ≠ id ∧ g.LetsThrough caller.id id := by
  simp only [hasUnguardedCaller, List.any_eq_true, Prod.exists, Bool.and_eq_true,
    decide_eq_true_eq, bne_iff_ne, Bool.not_eq_true', LetsThrough]
  constructor
  · rintro ⟨caller, data, hmem, ⟨hcalls, hopen⟩, hne⟩
    obtain ⟨hcaller, hedge⟩ := (mem_callerEdges hg).mp hmem
    exact ⟨caller, hcaller, hne, data, hedge, hcalls, hopen⟩
  · rintro ⟨caller, hcaller, hne, data, hedge, hcalls, hopen⟩
    exact ⟨caller, data, (mem_callerEdges hg).mpr ⟨hcaller, hedge⟩, ⟨hcalls, hopen⟩, hne⟩

end CallGraph

namespace ErrorTrace

variable {g : CallGraph} {limits : TraversalLimits} {origin : Declaration} {id : String}

/-- Limits that admit as many visits as there are declarations are never used up. -/
theorem length_reached_lt (hg : g.WellFormed) (horigin : origin ∈ g.nodes)
    (hroom : g.nodes.length ≤ limits.maxVisits) :
    (start g limits origin).reached.length < limits.maxVisits := by
  have hlength : (start g limits origin).reached.length < g.nodeIds.length :=
    (start_searchResult hg limits horigin).length_lt (List.mem_map_of_mem horigin)
      fun x y ⟨_, he, _⟩ => (hg.ends_known _ he).1
  rw [CallGraph.nodeIds, List.length_map] at hlength
  exact Nat.lt_of_lt_of_le hlength hroom

/-- With room for all nodes, an error reaches exactly the nodes within the depth limit. -/
theorem mem_reached_iff (hg : g.WellFormed) (horigin : origin ∈ g.nodes)
    (hroom : g.nodes.length ≤ limits.maxVisits) :
    id ∈ recordedIds (start g limits origin).reached ↔
      id ≠ origin.id ∧ ∃ n ≤ limits.maxDepth, IsLeast {k | Chain g.LetsThrough k id origin.id} n :=
  (start_searchResult hg limits horigin).mem_iff_of_room (length_reached_lt hg horigin hroom)

end ErrorTrace

namespace ErrorProfile

variable {g : CallGraph} {settings : ErrorSettings} {limits : TraversalLimits} {d : Declaration}

/-! ## The list of profiles -/

/-- The callables whose errors come to an id: those whose trace recorded it. -/
def origins (g : CallGraph) (limits : TraversalLimits) (id : String) : List String :=
  let raising := g.declarations.filter fun o => !(g.raiseSources o).isEmpty && o.kind.isCallable
  (raising.filter fun o => (ErrorTrace.start g limits o).reached.any (·.1 = id)).map (·.id)

/-- The profiles are one per callable declaration, in the order of the declarations. -/
theorem all_eq (g : CallGraph) (settings : ErrorSettings) :
    all g settings = (g.declarations.filter (·.kind.isCallable)).map fun d =>
      make g d (g.raiseSources d) (origins g settings.limits d.id) := by
  simp only [all, origins, List.map_map, List.filter_map, List.filter_filter]
  rfl

/-- The origins of a node are the raising declarations whose errors reach it. -/
theorem mem_origins {id o : String} :
    o ∈ origins g limits id ↔
      ∃ e, g.Raising e ∧ e.id = o ∧ id ∈ recordedIds (ErrorTrace.start g limits e).reached := by
  simp only [origins, List.mem_map, List.mem_filter, CallGraph.declarations, Order.mem_sortOn,
    CallGraph.Raising, Bool.and_eq_true, Bool.not_eq_true', List.isEmpty_eq_false_iff,
    List.any_eq_true, decide_eq_true_eq, mem_recordedIds, Prod.exists]
  constructor
  · rintro ⟨e, ⟨⟨hnode, hraises, hcallable⟩, x, n, hreached, rfl⟩, rfl⟩
    exact ⟨e, ⟨hnode, hcallable, hraises⟩, rfl, n, hreached⟩
  · rintro ⟨e, ⟨hnode, hcallable, hraises⟩, rfl, n, hreached⟩
    exact ⟨e, ⟨⟨hnode, hraises, hcallable⟩, id, n, hreached, rfl⟩, rfl⟩

theorem pairwise_origins (hg : g.WellFormed) (id : String) :
    (origins g limits id).Pairwise (· < ·) :=
  (CallGraph.pairwise_declarations hg).sublist
    ((List.filter_sublist.trans List.filter_sublist).map _)

theorem pairwise_all (hg : g.WellFormed) : ((all g settings).map (·.id)).Pairwise (· < ·) := by
  have hids : (all g settings).map (·.id)
      = (g.declarations.filter (·.kind.isCallable)).map (·.id) := by
    rw [all_eq, List.map_map]
    rfl
  rw [hids]
  exact (CallGraph.pairwise_declarations hg).sublist (List.filter_sublist.map _)

/-- A profile is listed exactly when it is made of a callable declaration. -/
theorem mem_all {p : ErrorProfile} :
    p ∈ all g settings ↔ ∃ d ∈ g.nodes, d.kind.isCallable = true ∧
      make g d (g.raiseSources d) (origins g settings.limits d.id) = p := by
  rw [all_eq, List.mem_map]
  simp only [List.mem_filter, CallGraph.declarations, Order.mem_sortOn, and_assoc]

/-! ## One profile -/

theorem escapes_iff {p : ErrorProfile} :
    p.escapes = true ↔ p.raises ≠ [] ∨ p.receivesFrom ≠ [] := by
  simp [escapes]

/-- **Ranks.** What escapes makes a profile dangerous at an entry point, and a warning anywhere
else. -/
theorem make_ranked (g : CallGraph) (d : Declaration) (raises receives : List String) :
    let p := make g d raises receives
    (p.escapes = false ∧ p.risk = .safe) ∨
      (p.escapes = true ∧ g.isEntryPoint d.id = true ∧ p.risk = .danger) ∨
      (p.escapes = true ∧ g.isEntryPoint d.id = false ∧ p.risk = .warning) := by
  simp only [make, escapes]
  -- the last test of a profile chooses its wording only, so both of its outcomes are warnings
  cases !raises.isEmpty || !receives.isEmpty <;> cases g.isEntryPoint d.id <;>
    cases g.hasUnguardedCaller d.id <;> simp

/-- A profile is safe exactly when its declaration raises nothing and receives nothing. -/
theorem make_risk_eq_safe_iff (g : CallGraph) (d : Declaration) (raises receives : List String) :
    (make g d raises receives).risk = .safe ↔ raises = [] ∧ receives = [] := by
  have hescapes : (make g d raises receives).escapes = false ↔ raises = [] ∧ receives = [] := by
    simp [escapes, make]
  rw [← hescapes]
  rcases make_ranked g d raises receives
    with ⟨hquiet, hrisk⟩ | ⟨hloud, -, hrisk⟩ | ⟨hloud, -, hrisk⟩
  · exact iff_of_true hrisk hquiet
  · simp [hrisk, hloud]
  · simp [hrisk, hloud]

theorem make_propagates (g : CallGraph) (d : Declaration) (raises receives : List String) :
    (make g d raises receives).propagatesToCallers
      = ((make g d raises receives).escapes && g.hasUnguardedCaller d.id) := rfl

/-- A profile is right about a declaration, as far as the depth limit lets errors travel. -/
structure Exact (g : CallGraph) (limits : TraversalLimits) (d : Declaration)
    (p : ErrorProfile) : Prop where
  id_eq : p.id = d.id
  raises_eq : p.raises = g.raiseSources d
  received_sorted : p.receivesFrom.Pairwise (· < ·)
  received_iff : ∀ o, o ∈ p.receivesFrom ↔ o ≠ d.id ∧ (∃ e, g.Raising e ∧ e.id = o) ∧
    ∃ n ≤ limits.maxDepth, IsLeast {k | Chain g.LetsThrough k d.id o} n
  safe_iff : p.risk = .safe ↔ p.raises = [] ∧ p.receivesFrom = []
  danger_iff : p.risk = .danger ↔ (p.raises ≠ [] ∨ p.receivesFrom ≠ []) ∧ g.isEntryPoint d.id = true
  warning_iff : p.risk = .warning ↔
    (p.raises ≠ [] ∨ p.receivesFrom ≠ []) ∧ g.isEntryPoint d.id = false
  propagates_iff : p.propagatesToCallers = true ↔
    p.risk ≠ .safe ∧ ∃ caller ∈ g.nodes, caller.id ≠ d.id ∧ g.LetsThrough caller.id d.id

/-- The profile that is made of sorted and complete origins is exact. -/
theorem make_exact (hg : g.WellFormed) (hroom : g.nodes.length ≤ limits.maxVisits)
    (d : Declaration) :
    Exact g limits d (make g d (g.raiseSources d) (origins g limits d.id)) where
  id_eq := rfl
  raises_eq := rfl
  received_sorted := pairwise_origins hg d.id
  -- the searches start at the raising declarations and go to their callers
  received_iff o := by
    show o ∈ origins g limits d.id ↔ _
    rw [mem_origins]
    constructor
    · rintro ⟨e, he, rfl, hreached⟩
      obtain ⟨hne, hnear⟩ := (ErrorTrace.mem_reached_iff hg he.1 hroom).mp hreached
      exact ⟨hne.symm, ⟨e, he, rfl⟩, hnear⟩
    · rintro ⟨hne, ⟨e, he, rfl⟩, hnear⟩
      exact ⟨e, he, rfl, (ErrorTrace.mem_reached_iff hg he.1 hroom).mpr ⟨hne.symm, hnear⟩⟩
  safe_iff := make_risk_eq_safe_iff g d _ _
  danger_iff := by
    rw [← escapes_iff]
    rcases make_ranked g d (g.raiseSources d) (origins g limits d.id) with h | h | h <;> simp [h]
  warning_iff := by
    rw [← escapes_iff]
    rcases make_ranked g d (g.raiseSources d) (origins g limits d.id) with h | h | h <;> simp [h]
  propagates_iff := by
    rw [make_propagates, Bool.and_eq_true, escapes_iff, ← not_and_or,
      CallGraph.hasUnguardedCaller_iff hg, ne_eq, make_risk_eq_safe_iff]
    rfl

/-- **Profiles are exact with respect to unguarded chains.** On every graph that edits can build and
for all limits that admit as many visits as there are declarations: the profiles stand in the order
of their ids, no id twice; every callable has one, and every profile is that of a callable and
exact. -/
theorem all_exact (edits : List GraphEdit) (settings : ErrorSettings)
    (hroom : (({} : CallGraph).applyAll edits).nodes.length ≤ settings.limits.maxVisits) :
    let g := ({} : CallGraph).applyAll edits
    ((all g settings).map (·.id)).Pairwise (· < ·) ∧
      (∀ d ∈ g.nodes, d.kind.isCallable = true → ∃ p ∈ all g settings, p.id = d.id) ∧
      ∀ p ∈ all g settings, ∃ d ∈ g.nodes, d.kind.isCallable = true ∧
      Exact g settings.limits d p := by
  intro g
  have hg : g.WellFormed := CallGraph.wellFormed_applyAll edits
  refine ⟨pairwise_all hg, ?_, ?_⟩
  · intro d hd hcallable
    exact ⟨_, mem_all.mpr ⟨d, hd, hcallable, rfl⟩, rfl⟩
  · intro p hp
    obtain ⟨d, hd, hcallable, rfl⟩ := mem_all.mp hp
    exact ⟨d, hd, hcallable, make_exact hg hroom d⟩

/-- The page is one unguarded call away from what fails, which is as far as the limit lets errors
travel. -/
theorem all_exact_sample :
    (({} : CallGraph).applyAll CallGraph.sample).nodes.length ≤ 9 ∧
      ∃ p ∈ all (({} : CallGraph).applyAll CallGraph.sample) ⟨⟨1, 9⟩⟩, p.id = "page" ∧
        "submit" ∈ p.receivesFrom ∧ p.risk = .warning := by
  have hroom : (({} : CallGraph).applyAll CallGraph.sample).nodes.length ≤ 9 := by decide
  have hraises : (({} : CallGraph).applyAll CallGraph.sample).raiseSources
      (CallGraph.sampleNode "submit") = ["db.insert(drafts)"] := by cbv
  have hcall : (({} : CallGraph).applyAll CallGraph.sample).LetsThrough "page" "submit" :=
    ⟨⟨.calls, .direct, 8, {}⟩, by decide, rfl, rfl⟩
  -- the call is direct, and no chain of length zero joins two different names
  have hleast : IsLeast
      {k | Chain (({} : CallGraph).applyAll CallGraph.sample).LetsThrough k "page" "submit"} 1 := by
    refine ⟨Chain.step hcall (.refl "submit"), fun k hk => ?_⟩
    refine Nat.one_le_iff_ne_zero.mpr ?_
    rintro rfl
    exact absurd (Chain.eq_of_zero hk) (by decide)
  obtain ⟨-, hevery, hexact⟩ := all_exact CallGraph.sample ⟨⟨1, 9⟩⟩ hroom
  obtain ⟨p, hp, hid⟩ := hevery (CallGraph.sampleNode "page") (by decide) rfl
  obtain ⟨d, -, -, hd⟩ := hexact p hp
  have hpage : d.id = "page" := hd.id_eq.symm.trans hid
  have hreceived : "submit" ∈ p.receivesFrom := by
    rw [hd.received_iff, hpage]
    have hraising : (({} : CallGraph).applyAll CallGraph.sample).Raising
        (CallGraph.sampleNode "submit") :=
      ⟨by decide, rfl, by simp [hraises]⟩
    exact ⟨by decide, ⟨CallGraph.sampleNode "submit", hraising, rfl⟩, 1, Nat.le_refl 1, hleast⟩
  refine ⟨hroom, p, hp, hid, hreceived,
    hd.warning_iff.mpr ⟨Or.inr (List.ne_nil_of_mem hreceived), ?_⟩⟩
  rw [hpage]
  decide

/-! ## Cut traces

A profile has no flag of its own. A trace that a limit cut short has one, but the profile does not
show it: a callable that no trace came to is called safe, also if one would have come to it. -/

/-- Ids are unique, so what fails under the id of a declaration is this declaration. -/
theorem raises_of_raising (hg : g.WellFormed) (hd : d ∈ g.nodes) {o : Declaration}
    (ho : g.Raising o) (hid : o.id = d.id) : g.raiseSources d ≠ [] := by
  obtain rfl : o = d := List.inj_on_of_nodup_map hg.nodes_nodup ho.1 hd hid
  exact ho.2.2

/-- An escaping error comes from a declaration that raises, by a chain that lets it through. -/
theorem exists_raising_of_escapes {q : ErrorProfile} (hg : g.WellFormed) (hq : q ∈ all g settings)
    (hescapes : q.escapes = true) : ∃ o, g.Raising o ∧ ∃ n, Chain g.LetsThrough n q.id o.id := by
  obtain ⟨d, hd, hcallable, rfl⟩ := mem_all.mp hq
  rcases escapes_iff.mp hescapes with hraises | hreceives
  · exact ⟨d, ⟨hd, hcallable, hraises⟩, 0, .refl d.id⟩
  · obtain ⟨o, ho⟩ := List.exists_mem_of_ne_nil _ hreceives
    obtain ⟨e, he, -, hreached⟩ := mem_origins.mp ho
    obtain ⟨n, hn⟩ := mem_recordedIds.mp hreached
    exact ⟨e, he, n, ((ErrorTrace.start_searchResult hg settings.limits he.1).isLeast _ hn).1⟩

/-- Called safe, a declaration is missing from every trace of a failure that leads to it. -/
theorem make_risk_eq_safe_iff_missed (hg : g.WellFormed) (hd : d ∈ g.nodes) :
    (make g d (g.raiseSources d) (origins g limits d.id)).risk = .safe ↔
      g.raiseSources d = [] ∧ ∀ o, g.Raising o → (∃ n, Chain g.LetsThrough n d.id o.id) →
        (ErrorTrace.start g limits o).truncated = true ∧
          d.id ∉ recordedIds (ErrorTrace.start g limits o).reached := by
  rw [make_risk_eq_safe_iff]
  refine and_congr_right fun hraises => ?_
  rw [List.eq_nil_iff_forall_not_mem]
  constructor
  · -- an error that could arrive and did not has been cut off, and the trace says so
    intro hnone o ho hchain
    have hmissing : d.id ∉ recordedIds (ErrorTrace.start g limits o).reached :=
      fun hreached => hnone o.id (mem_origins.mpr ⟨o, ho, rfl, hreached⟩)
    have hne : d.id ≠ o.id := fun hid => raises_of_raising hg hd ho hid.symm hraises
    have hresult := ErrorTrace.start_searchResult hg limits ho.1
    exact ⟨hresult.honest.mpr ⟨d.id, hne, hchain, hmissing⟩, hmissing⟩
  · intro hall o ho
    obtain ⟨e, he, -, hreached⟩ := mem_origins.mp ho
    obtain ⟨n, hn⟩ := mem_recordedIds.mp hreached
    have hchain := ((ErrorTrace.start_searchResult hg limits he.1).isLeast _ hn).1
    exact (hall e he ⟨n, hchain⟩).2 hreached

/-- With visits for every declaration, this is a matter of depth alone. -/
theorem make_risk_eq_safe_iff_deep (hg : g.WellFormed) (hroom : g.nodes.length ≤ limits.maxVisits)
    (hd : d ∈ g.nodes) :
    (make g d (g.raiseSources d) (origins g limits d.id)).risk = .safe ↔
      g.raiseSources d = [] ∧ ∀ o, g.Raising o → ∀ n, Chain g.LetsThrough n d.id o.id →
        limits.maxDepth < n := by
  rw [make_risk_eq_safe_iff]
  refine and_congr_right fun hraises => ?_
  rw [List.eq_nil_iff_forall_not_mem]
  constructor
  · -- with room for all nodes only the depth limit cuts
    intro hnone o ho n hchain
    by_contra hnear
    have hne : d.id ≠ o.id := fun hid => raises_of_raising hg hd ho hid.symm hraises
    have hreached := (ErrorTrace.start_searchResult hg limits ho.1).complete
      (ErrorTrace.length_reached_lt hg ho.1 hroom) d.id n hne hchain (Nat.not_lt.mp hnear)
    exact hnone o.id (mem_origins.mpr ⟨o, ho, rfl, hreached⟩)
  · intro hdeep o ho
    obtain ⟨e, he, -, hreached⟩ := mem_origins.mp ho
    obtain ⟨n, hn⟩ := mem_recordedIds.mp hreached
    have hresult := ErrorTrace.start_searchResult hg limits he.1
    exact absurd (hresult.depth_le _ hn) (Nat.not_le.mpr (hdeep e he n (hresult.isLeast _ hn).1))

/-- **When a caller of something that fails is called safe.** On every graph that edits can build,
for all limits and any unguarded call from one callable to another one that lets errors out: some
failure leads to the caller; the caller is called safe exactly if it raises nothing and each trace
of a failure that leads to it was cut before it came to it; and if the visit limit admits every
declaration, exactly if it raises nothing and no chain of unguarded calls within the depth limit
leads from it to a failure. -/
theorem risk_eq_safe_iff_cut (edits : List GraphEdit) (settings : ErrorSettings) :
    let g := ({} : CallGraph).applyAll edits
    let limits := settings.limits
    ∀ p ∈ all g settings, ∀ q ∈ all g settings, p.id ≠ q.id → g.LetsThrough p.id q.id →
      q.escapes = true →
      (∃ o, g.Raising o ∧ ∃ n, Chain g.LetsThrough n p.id o.id) ∧
        (p.risk = .safe ↔ p.raises = [] ∧ ∀ o, g.Raising o →
          (∃ n, Chain g.LetsThrough n p.id o.id) →
          (ErrorTrace.start g limits o).truncated = true ∧
            p.id ∉ recordedIds (ErrorTrace.start g limits o).reached) ∧
        (g.nodes.length ≤ limits.maxVisits →
          (p.risk = .safe ↔ p.raises = [] ∧ ∀ o, g.Raising o →
            ∀ n, Chain g.LetsThrough n p.id o.id →
            limits.maxDepth < n)) := by
  intro g limits p hp q hq _ hcall hescapes
  have hg : g.WellFormed := CallGraph.wellFormed_applyAll edits
  -- what escapes from the callee goes one call further
  obtain ⟨o, ho, n, hchain⟩ := exists_raising_of_escapes hg hq hescapes
  obtain ⟨d, hd, -, rfl⟩ := mem_all.mp hp
  exact ⟨⟨o, ho, n + 1, .step hcall hchain⟩, make_risk_eq_safe_iff_missed hg hd,
    fun hroom => make_risk_eq_safe_iff_deep hg hroom hd⟩

/-! A relay of functions. `save` throws, and each of the others calls the one before it without a
guard. -/

def relayNames : List String := ["store", "submit", "confirm", "review", "order", "checkout"]

def relayHead : Declaration := { CallGraph.sampleNode "save" with errors := { throws := true } }

def relay : List GraphEdit :=
  (relayHead :: relayNames.map CallGraph.sampleNode).map .declaration ++
    (relayNames.zip ("save" :: relayNames)).map fun (caller, callee) =>
      CallGraph.sampleCall caller callee 1 false

def relayGraph : CallGraph := ({} : CallGraph).applyAll relay

/-- The profile of a function of the relay under the default limits. -/
def relayProfile (name : String) : ErrorProfile :=
  make relayGraph (CallGraph.sampleNode name) (relayGraph.raiseSources (CallGraph.sampleNode name))
    (origins relayGraph ⟨5, 500⟩ name)

theorem reached_relay : recordedIds (ErrorTrace.start relayGraph ⟨5, 500⟩ relayHead).reached
    = ["store", "submit", "confirm", "review", "order"] := by
  cbv

theorem raiseSources_relay (d : Declaration) :
    relayGraph.raiseSources d = if d.errors.throws then ["throw"] else [] := by
  have hexternals : relayGraph.externals = [] := rfl
  simp [CallGraph.raiseSources, CallGraph.externalsFrom, hexternals, Order.sortOn]

/-- Only the head of the relay raises. -/
theorem raising_relay {o : Declaration} (ho : relayGraph.Raising o) : o = relayHead := by
  obtain ⟨hnode, -, hraises⟩ := ho
  have hnodes : relayGraph.nodes = relayHead :: relayNames.map CallGraph.sampleNode := rfl
  rw [hnodes] at hnode
  rcases List.mem_cons.mp hnode with hhead | hrest
  · exact hhead
  · obtain ⟨name, -, rfl⟩ := List.mem_map.mp hrest
    rw [raiseSources_relay] at hraises
    exact absurd rfl hraises

theorem relayProfile_mem (name : String) (hname : CallGraph.sampleNode name ∈ relayGraph.nodes) :
    relayProfile name ∈ all relayGraph {} :=
  mem_all.mpr ⟨CallGraph.sampleNode name, hname, rfl, rfl⟩

theorem escapes_order : (relayProfile "order").escapes = true := by
  refine escapes_iff.mpr (Or.inr (List.ne_nil_of_mem (mem_origins.mpr ⟨relayHead, ?_, rfl, ?_⟩)))
  · refine ⟨by decide, rfl, ?_⟩
    rw [raiseSources_relay]
    decide
  · rw [reached_relay]
    decide

/-- The error of the relay does not reach its last node, six calls away. -/
theorem risk_checkout : (relayProfile "checkout").risk = .safe := by
  refine (make_risk_eq_safe_iff _ _ _ _).mpr ⟨raiseSources_relay _, ?_⟩
  refine List.eq_nil_iff_forall_not_mem.mpr fun o ho => ?_
  obtain ⟨e, he, -, hreached⟩ := mem_origins.mp ho
  rw [raising_relay he, reached_relay] at hreached
  exact absurd hreached (by decide)

theorem letsThrough_relay : relayGraph.LetsThrough "checkout" "order" :=
  ⟨⟨.calls, .direct, 1, {}⟩, by decide, rfl, rfl⟩

/-- The last function of the relay is called safe since the trace of the first one was cut: all
chains between the two are longer than the depth limit. -/
theorem risk_eq_safe_iff_cut_relay :
    relayProfile "checkout" ∈ all relayGraph {} ∧ relayProfile "order" ∈ all relayGraph {} ∧
      relayGraph.LetsThrough "checkout" "order" ∧ (relayProfile "order").escapes = true ∧
      (relayProfile "checkout").risk = .safe ∧
      (ErrorTrace.start relayGraph ⟨5, 500⟩ relayHead).truncated = true ∧
      ∀ n, Chain relayGraph.LetsThrough n "checkout" "save" → 5 < n := by
  have hcheckout := relayProfile_mem "checkout" (by decide)
  have horder := relayProfile_mem "order" (by decide)
  obtain ⟨⟨o, ho, hchain⟩, hmissed, hdeep⟩ :=
    risk_eq_safe_iff_cut relay {} (relayProfile "checkout") hcheckout
    (relayProfile "order") horder (by decide) letsThrough_relay escapes_order
  obtain rfl := raising_relay ho
  refine ⟨hcheckout, horder, letsThrough_relay, escapes_order, risk_checkout, ?_, ?_⟩
  · exact ((hmissed.mp risk_checkout).2 relayHead ho hchain).1
  · exact ((hdeep (by decide)).mp risk_checkout).2 relayHead ho

/-- **A trace that was cut hides a failure.** The limits are the default ones, and no check of the
settings objects to them. One function calls another without a guard, errors escape from the other,
and the caller is called safe. -/
theorem relay_reported_safe :
    ({} : Settings).problem? = none ∧
      ¬ ∀ p ∈ all relayGraph ({} : Settings).errors,
        ∀ q ∈ all relayGraph ({} : Settings).errors, p.id ≠ q.id →
        relayGraph.LetsThrough p.id q.id → q.escapes = true →
        p.escapes = true ∧ p.risk ≠ .safe := by
  refine ⟨by decide, fun hclosed => ?_⟩
  have hrisk :=
    (hclosed (relayProfile "checkout") (relayProfile_mem "checkout" (by decide))
      (relayProfile "order")
    (relayProfile_mem "order" (by decide)) (by decide) letsThrough_relay escapes_order).2
  exact hrisk risk_checkout

end ErrorProfile

end CallAtlas
