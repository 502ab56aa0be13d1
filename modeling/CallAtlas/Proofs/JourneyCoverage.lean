import Mathlib.Data.List.TakeWhile
import CallAtlas.Proofs.AssemblyExact
import CallAtlas.Proofs.JourneyReach

/-!
# Proofs.JourneyCoverage — a journey shows every request and every database call

The journey from an entry does not show a request that a route handler serves. It goes on in the
handler instead, along an edge that the assembly of the graph is meant to have put there. So nothing
is lost as long as the two fit together: where a request has a handler, its caller must be joined
with it, be it by the request or by a call that came first.

* `Stop.FollowedBy` — what comes right after a stop, before anything that is no deeper, has an entry
  for each item that follows the declaration.
* `listing_followedBy` — this holds wherever a declaration is entered. Induction on the levels.
* `synthesize_shows_requests` — hence a journey that no limit cut short shows every request and
  every database call of every declaration it enters, right below the declaration.
-/

namespace CallAtlas.Journey

variable {g : CallGraph} {settings : JourneySettings}

/-! ## What comes below a stop -/

/-- The stops up to the first one that is no deeper than a level. -/
def deeper (depth : Nat) (stops : List Stop) : List Stop :=
  stops.takeWhile fun t => decide (depth < t.depth)

/-- What stands deeper right after a stop stays there when more follows. -/
theorem mem_deeper_append {depth : Nat} {stops : List Stop} {t : Stop} (more : List Stop)
    (h : t ∈ deeper depth stops) : t ∈ deeper depth (stops ++ more) := by
  unfold deeper
  rw [List.takeWhile_append]
  split
  · exact List.mem_append_left _ ((List.takeWhile_sublist _).subset h)
  · exact h

/-- Every item that follows the declaration of a stop comes one level below it, before the listing
goes up again. -/
def Stop.FollowedBy (g : CallGraph) (settings : JourneySettings) (s : Stop)
    (after : List Stop) : Prop :=
  ∀ d kind line flags, s.item = .inner d kind line flags →
    ∀ item ∈ follow g settings d, ∃ t ∈ deeper s.depth after, t.item = item ∧ t.depth = s.depth + 1

/-- A stop that is followed by all it leads to stays so when more follows. -/
theorem Stop.FollowedBy.append {s : Stop} {after : List Stop} (h : s.FollowedBy g settings after)
    (more : List Stop) : s.FollowedBy g settings (after ++ more) := by
  intro d kind line flags hitem item hmem
  obtain ⟨t, ht, hsame, hdepth⟩ := h d kind line flags hitem item hmem
  exact ⟨t, mem_deeper_append more ht, hsame, hdepth⟩

/-- A listing starts with its item. -/
theorem listing_eq_cons (left depth : Nat) (path : List String) (item : Item) :
    ∃ looped rest, listing g settings left depth path item = ⟨item, depth, looped⟩ :: rest := by
  cases item with
  | outer e => exact ⟨false, [], listing_outer g settings left depth path e⟩
  | inner d kind line flags =>
    cases left with
    | zero => exact ⟨path.contains d.id, [], rfl⟩
    | succ left => exact ⟨path.contains d.id, _, rfl⟩

/-- No stop of a listing is higher than its item. Induction on the levels. -/
theorem depth_ge_of_mem_listing {left depth : Nat} {path : List String} {item : Item} {s : Stop}
    (h : s ∈ listing g settings left depth path item) : depth ≤ s.depth := by
  rcases mem_listing_cases h with ⟨-, hdepth, -⟩ | ⟨below, d, kind, line, flags, next,
    rfl, -, -, hs⟩
  · exact Nat.le_of_eq hdepth.symm
  · exact Nat.le_of_succ_le (depth_ge_of_mem_listing hs)
  termination_by left

/-- An entry of a concatenation lies in one of its parts, and what comes after it there comes after
it in the whole. -/
theorem exists_part_of_flatMap_eq {α β : Type} {f : α → List β} {xs : List α}
    {before after : List β} {b : β} (h : xs.flatMap f = before ++ b :: after) :
    ∃ x ∈ xs, ∃ first rest more, f x = first ++ b :: rest ∧ after = rest ++ more := by
  induction xs generalizing before with
  | nil => simp at h
  | cons x xs ih =>
    rw [List.flatMap_cons] at h
    rcases List.append_eq_append_iff.mp h with ⟨first, -, hrest⟩ | ⟨part, hpart, hafter⟩
    · -- the entry comes behind the first part
      obtain ⟨y, hy, hfound⟩ := ih hrest
      exact ⟨y, List.mem_cons_of_mem x hy, hfound⟩
    · cases part with
      | nil =>
        have hrest : xs.flatMap f = [] ++ b :: after := hafter.symm
        obtain ⟨y, hy, hfound⟩ := ih hrest
        exact ⟨y, List.mem_cons_of_mem x hy, hfound⟩
      | cons b' rest =>
        obtain ⟨rfl, rfl⟩ := List.cons.inj hafter
        exact ⟨x, List.mem_cons_self, before, rest, xs.flatMap f, hpart, rfl⟩

/-- The items of one level, each with what is listed below it, are all deeper than the level
above. -/
theorem deeper_flatMap_listing (left depth : Nat) (path : List String) (items : List Item) :
    deeper depth (items.flatMap (listing g settings left (depth + 1) path))
      = items.flatMap (listing g settings left (depth + 1) path) := by
  refine List.takeWhile_eq_self_iff.mpr fun t ht => ?_
  obtain ⟨item, -, ht⟩ := List.mem_flatMap.mp ht
  exact decide_eq_true (depth_ge_of_mem_listing ht)

/-- **What a listing has below a declaration.** Wherever a declaration is met that is not on the
path and that the depth limit does not cut off, everything that follows it comes right below it.
Induction on the levels that are left. -/
theorem listing_followedBy {left depth : Nat} (hleft : settings.limits.maxDepth - depth = left)
    {path : List String} {item : Item} {before after : List Stop} {s : Stop}
    (h : listing g settings left depth path item = before ++ s :: after) (hopen : s.looped = false)
    (hcut : ¬ s.CutOff g settings) : s.FollowedBy g settings after := by
  induction left generalizing depth path item before after with
  | zero =>
    -- nothing may follow a declaration here, or it would be cut off
    obtain ⟨hdepth, hitem⟩ : s.depth = depth ∧ s.item = item := by
      obtain ⟨looped, hsingle⟩ : ∃ looped, listing g settings 0 depth path item
          = [⟨item, depth, looped⟩] := by
        cases item with
        | outer e => exact ⟨false, rfl⟩
        | inner d kind line flags => exact ⟨path.contains d.id, rfl⟩
      have hs : s ∈ [(⟨item, depth, looped⟩ : Stop)] := by
        rw [← hsingle, h]
        exact List.mem_append_right before List.mem_cons_self
      obtain rfl := List.mem_singleton.mp hs
      exact ⟨rfl, rfl⟩
    intro d kind line flags hinner next hnext
    refine absurd ⟨hopen, ?_, d, kind, line, flags, hinner, List.ne_nil_of_mem hnext⟩ hcut
    omega
  | succ left ih =>
    cases item with
    | outer e =>
      rw [listing_outer] at h
      obtain ⟨rfl, hs⟩ : before = [] ∧ _ := by simpa [List.cons_eq_append_iff] using h
      intro d kind line flags hinner
      rw [hs.1] at hinner
      cases hinner
    | inner d kind line flags =>
      rw [listing] at h
      cases before with
      | nil =>
        -- the declaration itself
        obtain ⟨rfl, hafter⟩ := List.cons.inj h
        have hpath : ¬ path.contains d.id = true := Bool.eq_false_iff.mp hopen
        rw [if_neg hpath] at hafter
        intro d' kind' line' flags' hinner next hnext
        obtain rfl : d = d' := (Item.inner.inj hinner).1
        obtain ⟨looped, rest, hlisting⟩ : ∃ looped rest,
            listing g settings left (depth + 1) (d.id :: path) next
              = ⟨next, depth + 1, looped⟩ :: rest :=
          listing_eq_cons left (depth + 1) (d.id :: path) next
        refine ⟨⟨next, depth + 1, looped⟩, ?_, rfl, rfl⟩
        rw [← hafter]
        show _ ∈ deeper depth _
        rw [deeper_flatMap_listing]
        exact List.mem_flatMap.mpr ⟨next, hnext, by rw [hlisting]; exact List.mem_cons_self⟩
      | cons first before =>
        -- something below it
        obtain ⟨-, htail⟩ := List.cons.inj h
        split at htail
        · simp at htail
        · obtain ⟨next, -, first, rest, more, hnext, rfl⟩ := exists_part_of_flatMap_eq htail
          exact (ih (by omega) hnext).append more

/-! ## Steps -/

theorem numbered_cons (first : Nat) (s : Stop) (stops : List Stop) :
    numbered g first (s :: stops) = s.step g first :: numbered g (first + 1) stops := by
  simp [numbered]

/-- Numbering keeps the stops at their places. -/
theorem getElem?_numbered (first : Nat) (stops : List Stop) (i : Nat) :
    (numbered g first stops)[i]? = stops[i]?.map (·.step g (first + i)) := by
  simp [numbered, List.getElem?_zipIdx, Function.comp_def]

/-- Numbering the rest is the rest of the numbering. -/
theorem drop_numbered (first : Nat) (stops : List Stop) (i : Nat) :
    (numbered g first stops).drop i = numbered g (first + i) (stops.drop i) := by
  induction i generalizing first stops with
  | zero => rfl
  | succ i ih =>
    cases stops with
    | nil => simp [numbered]
    | cons s rest =>
      rw [numbered_cons, List.drop_succ_cons, List.drop_succ_cons, ih, Nat.add_assoc,
        Nat.add_comm 1]

/-- The steps below a step are the numbered stops below its stop. -/
theorem takeWhile_numbered (depth first : Nat) (stops : List Stop) :
    (numbered g first stops).takeWhile (fun t => decide (depth < t.depth))
      = numbered g first (deeper depth stops) := by
  induction stops generalizing first with
  | nil => rfl
  | cons s rest ih =>
    rw [numbered_cons, deeper, List.takeWhile_cons, List.takeWhile_cons, step_depth, ih]
    split
    · rw [numbered_cons]
      rfl
    · rfl

theorem exists_step_of_mem (first : Nat) {stops : List Stop} {s : Stop} (h : s ∈ stops) :
    ∃ order, s.step g order ∈ numbered g first stops := by
  obtain ⟨i, hi⟩ := List.mem_iff_getElem?.mp h
  exact ⟨first + i, List.mem_of_getElem? (i := i) (by rw [getElem?_numbered, hi]; rfl)⟩

/-- The steps below the step at a position: those behind it, up to the next one that is no
deeper. -/
def stepsBelow (j : Journey) (i : Nat) : List JourneyStep :=
  match j.steps[i]? with
  | none => []
  | some s => (j.steps.drop (i + 1)).takeWhile fun t => decide (s.depth < t.depth)

/-- **What a journey has below a step.** If no limit cut the journey short, everything that follows
the declaration of a step that is not looped has a step right below it. -/
theorem exists_step_below {entry : Declaration} (h : (start g settings entry).truncated = false)
    {i : Nat} {s : JourneyStep} (hs : (start g settings entry).steps[i]? = some s)
    (hinner : s.isExternalCall = false) (hopen : s.looped = false) :
    ∃ d : Declaration, d.id = s.declarationId ∧ ∀ item ∈ follow g settings d,
      ∃ stop : Stop, stop.item = item ∧ stop.depth = s.depth + 1 ∧
        ∃ order, stop.step g order ∈ (start g settings entry).stepsBelow i := by
  obtain ⟨hsteps, hcut⟩ := start_complete h
  unfold stepsBelow
  rw [hs, hsteps]
  rw [hsteps, getElem?_numbered] at hs
  obtain ⟨stop, hstop, rfl⟩ := Option.map_eq_some_iff.mp hs
  obtain ⟨d, kind, line, flags, hitem⟩ : ∃ d kind line flags, stop.item
      = .inner d kind line flags := by
    unfold Stop.step at hinner
    split at hinner
    · next d kind line flags hitem => exact ⟨d, kind, line, flags, hitem⟩
    · cases hinner
  have hlooped : stop.looped = false := by simpa [Stop.step, hitem] using hopen
  refine ⟨d, by simp [Stop.step, hitem], fun item hmem => ?_⟩
  -- the listing, split at the stop
  obtain ⟨hi, hget⟩ := List.getElem?_eq_some_iff.mp hstop
  have hsplit : fullListing g settings entry
      = (fullListing g settings entry).take i ++ stop ::
        (fullListing g settings entry).drop (i + 1) := by
    rw [← hget, List.getElem_cons_drop, List.take_append_drop]
  have hfollowed : stop.FollowedBy g settings ((fullListing g settings entry).drop (i + 1)) :=
    listing_followedBy (Nat.sub_zero _) hsplit hlooped (hcut stop (List.mem_of_getElem? hstop))
  obtain ⟨t, ht, htitem, htdepth⟩ := hfollowed d kind line flags hitem item hmem
  refine ⟨t, htitem, by rw [htdepth, step_depth], ?_⟩
  rw [drop_numbered]
  simp only [step_depth]
  rw [takeWhile_numbered]
  exact exists_step_of_mem _ ht

/-! ## Requests and database calls -/

/-- The external edges that a declaration leads to are its own edges that the settings show. -/
theorem mem_follow_outer {x : Declaration} {e : ExternalEdge} :
    .outer e ∈ follow g settings x ↔
      e ∈ g.externals ∧ e.callerId = x.id ∧ shows settings e = true := by
  simp [follow, Order.mem_sortOn, CallGraph.externalsFrom, and_assoc]

/-- A call that is not unresolved is shown unless a handler serves it. -/
theorem shows_of_matchedHandler {e : ExternalEdge} (hkind : e.kind = .http ∨ e.kind = .database)
    (hhandler : e.matchedHandler = none) : shows settings e = true := by
  unfold shows
  rcases hkind with hkind | hkind
  · rw [hkind, hhandler]
    rfl
  · rw [hkind]

/-- **No request and no database call is lost.** For all files and settings and every query that
means a declaration of the assembled graph, there is a journey; and if no limit cut it short, then
below each of its steps for a declaration that is not looped, one level deeper and before the
journey goes up again, every request and every database call of the declaration has a step: the call
itself if no handler serves it, and else the visit of the handler. -/
theorem synthesize_shows_requests (files : List FileAnalysis) (settings : JourneySettings)
    (query : String) (entry : Declaration)
    (hfound : (CallGraph.assemble files).resolveTarget query = .ok entry) :
    ∃ j, synthesize (CallGraph.assemble files) settings query = .ok j ∧
      (j.truncated = false → ∀ i s, j.steps[i]? = some s → s.isExternalCall = false →
        s.looped = false →
        ∀ x ∈ (CallGraph.assemble files).externals, x.callerId = s.declarationId →
          x.kind = .http ∨ x.kind = .database →
          ∃ t ∈ j.stepsBelow i, t.depth = s.depth + 1 ∧
            (x.matchedHandler = none ∧ t.isExternalCall = true ∧ t.declarationId = x.stepId ∨
              ∃ handler, x.matchedHandler = some handler ∧ t.isExternalCall = false ∧
                t.declarationId = handler)) := by
  refine ⟨start (CallGraph.assemble files) settings entry, by rw [synthesize, hfound]; rfl, ?_⟩
  intro hwhole i s hs hinner hopen x hx hcaller hkind
  obtain ⟨d, hd, hbelow⟩ := exists_step_below hwhole hs hinner hopen
  have hfrom : x.callerId = d.id := hcaller.trans hd.symm
  cases hhandler : x.matchedHandler with
  | none =>
    have hfollow : .outer x ∈ follow (CallGraph.assemble files) settings d :=
      mem_follow_outer.mpr ⟨hx, hfrom, shows_of_matchedHandler hkind hhandler⟩
    obtain ⟨stop, hitem, hdepth, order, hmem⟩ := hbelow _ hfollow
    refine ⟨_, hmem, by rw [step_depth, hdepth], Or.inl ⟨rfl, ?_⟩⟩
    simp [Stop.step, hitem]
  | some handler =>
    -- the assembly has joined the caller with the handler, by the request or by a call
    obtain ⟨data, hedge, -⟩ :=
      (CallGraph.accounts_assemble files).handler_edge x hx handler hhandler
    have hcalls : (CallGraph.assemble files).Calls d.id handler := ⟨data, hfrom ▸ hedge⟩
    obtain ⟨callee, kind, line, flags, hfollow, hid⟩ :=
      exists_mem_follow (CallGraph.wellFormed_assemble files) settings hcalls
    obtain ⟨stop, hitem, hdepth, order, hmem⟩ := hbelow _ hfollow
    refine ⟨_, hmem, by rw [step_depth, hdepth], Or.inr ⟨handler, rfl, ?_⟩⟩
    simp [Stop.step, hitem, hid]

/-! A form sends an order. The request is served by a handler that stores the order. -/

def orderSend : Declaration :=
  { id := "form.ts:send", name := "send", kind := .function, exported := false, signature := "()",
    span := ⟨1, 9⟩
    filePath := "form.ts" }

def orderPost : Declaration :=
  { id := "app/api/orders/route.ts:POST", name := "POST", kind := .function, exported := true,
    signature := "()"
    span := ⟨1, 9⟩, filePath := "app/api/orders/route.ts" }

def orderFiles : List FileAnalysis :=
  [{ filePath := "app/api/orders/route.ts"
     declarations := [orderPost]
     calls := [
       { callerId := "app/api/orders/route.ts:POST",
         target := .database "db" .insert (some "orders"), line := 4 }] },
    { filePath := "form.ts"
      declarations := [orderSend]
      calls := [{ callerId := "form.ts:send", target := .http .post "/api/orders", line := 3 }] }]

/-- The request as the graph has it. -/
def orderRequest : ExternalEdge :=
  ⟨"form.ts:send", .http, "POST /api/orders", .http .post "/api/orders", 3, {},
    some "app/api/orders/route.ts:POST"⟩

def orderStorage : ExternalEdge :=
  ⟨"app/api/orders/route.ts:POST", .database, "db.insert(orders)",
    .database "db" .insert (some "orders"), 4, {}, none⟩

def orderGraph : CallGraph where
  nodes := [orderPost, orderSend]
  edges := [⟨"form.ts:send", "app/api/orders/route.ts:POST", ⟨.apiRequest, .direct, 3, {}⟩⟩]
  externals := [orderStorage, orderRequest]
  files := orderFiles.map .ofAnalysis

/-- The sample files assemble to the sample graph. -/
theorem assemble_orderFiles : CallGraph.assemble orderFiles = orderGraph := by
  have hbuild : Registry.build orderFiles = ⟨orderFiles⟩ :=
    congrArg Registry.mk (List.mergeSort_of_pairwise (by decide))
  have hbridged : (CallGraph.called ⟨orderFiles⟩).applyAll
      (CallGraph.bridgeEdits ⟨orderFiles⟩ (CallGraph.called ⟨orderFiles⟩)) = orderGraph := by
    decide
  have hentries : CallGraph.entryEdits orderGraph = [] := by
    have hnone : ∀ d ∈ orderGraph.nodes, orderGraph.isEntryCandidate d = false := by decide
    rw [CallGraph.entryEdits, List.map_eq_nil_iff, List.filter_eq_nil_iff]
    intro d hd
    simp [hnone d (Order.mem_sortOn.mp hd)]
  rw [CallGraph.assemble_eq, hbuild, hbridged, hentries]
  rfl

def orderListing : List Stop :=
  [⟨.inner orderSend .entry none {}, 0, false⟩,
    ⟨.inner orderPost .apiRequest (some 3) {}, 1, false⟩,
    ⟨.outer orderStorage, 2, false⟩]

/-- The listing of the sample: the sender, the handler of its request, the storage. -/
theorem fullListing_orderGraph :
    fullListing orderGraph { limits := ⟨3, 9⟩ } orderSend = orderListing := by
  -- the request is served, so only the handler is listed for it
  have hsend : follow orderGraph { limits := ⟨3, 9⟩ } orderSend
      = [.inner orderPost .apiRequest (some 3) {}] := by
    have hcallees : orderGraph.calleeEdges "form.ts:send"
        = [(orderPost, ⟨.apiRequest, .direct, 3, {}⟩)] :=
      List.mergeSort_singleton _
    have hexternals : orderGraph.externalsFrom "form.ts:send" = [orderRequest] :=
      List.mergeSort_singleton _
    rw [follow, show orderSend.id = "form.ts:send" from rfl, hcallees, hexternals]
    exact List.mergeSort_singleton _
  have hpost : follow orderGraph { limits := ⟨3, 9⟩ } orderPost = [.outer orderStorage] := by
    have hcallees : orderGraph.calleeEdges "app/api/orders/route.ts:POST" = [] := List.mergeSort_nil
    have hexternals : orderGraph.externalsFrom "app/api/orders/route.ts:POST" = [orderStorage] :=
      List.mergeSort_singleton _
    rw [follow, show orderPost.id = "app/api/orders/route.ts:POST" from rfl, hcallees, hexternals]
    exact List.mergeSort_singleton _
  have hne : orderPost.id ≠ orderSend.id := by decide
  simp [fullListing, listing, hsend, hpost, hne, orderListing]

/-- The journey goes from the request to its handler, and shows the database call below it. -/
theorem synthesize_shows_requests_order :
    (CallGraph.assemble orderFiles).resolveTarget "form.ts:send" = .ok orderSend ∧
      orderRequest ∈ (CallGraph.assemble orderFiles).externals ∧
      ∃ j, synthesize (CallGraph.assemble orderFiles) { limits := ⟨3, 9⟩ } "form.ts:send" = .ok j ∧
        j.truncated = false ∧
        (∃ t ∈ j.stepsBelow 0, t.depth = 1 ∧ t.isExternalCall = false ∧
          t.declarationId = "app/api/orders/route.ts:POST") ∧
        ∃ t ∈ j.stepsBelow 1, t.depth = 2 ∧ t.isExternalCall = true ∧
          t.declarationId = orderStorage.stepId := by
  have hfound : (CallGraph.assemble orderFiles).resolveTarget "form.ts:send" = .ok orderSend := by
    rw [assemble_orderFiles]
    exact CallGraph.resolveTarget_of_node? (by decide)
  obtain ⟨j, hj, hshown⟩ :=
    synthesize_shows_requests orderFiles { limits := ⟨3, 9⟩ } "form.ts:send" orderSend hfound
  obtain rfl : start _ _ orderSend = j := by
    rw [synthesize, hfound] at hj
    exact Except.ok.inj hj
  rw [assemble_orderFiles] at hshown hfound hj ⊢
  -- the listing is short and shallow, so neither limit cuts it
  have hwhole : (start orderGraph { limits := ⟨3, 9⟩ } orderSend).truncated = false := by
    rw [Bool.eq_false_iff, ne_eq, (start_ran _ _ _).2, fullListing_orderGraph]
    rintro (hlong | ⟨s, hs, -, hdeep, -⟩)
    · exact absurd hlong (by decide)
    · have hshallow : ∀ s ∈ orderListing, s.depth < 3 := by decide
      exact absurd (hshallow s hs) (Nat.not_lt.mpr hdeep)
  have hsteps := (start_complete hwhole).1
  rw [fullListing_orderGraph] at hsteps
  have hget (i : Nat) := congrArg (·[i]?) hsteps
  -- the served request shows as its handler, the storage of the handler as itself
  obtain ⟨t, ht, hdepth, ⟨hnone, -⟩ | ⟨handler, hhandler, hinner, hid⟩⟩ :=
    hshown hwhole 0 _ (hget 0) rfl rfl orderRequest (by decide) rfl (Or.inl rfl)
  · cases hnone
  · cases hhandler
    obtain ⟨t', ht', hdepth', ⟨-, houter, hid'⟩ | ⟨handler', hhandler', -⟩⟩ :=
      hshown hwhole 1 _ (hget 1) rfl rfl orderStorage (by decide) rfl (Or.inr rfl)
    · exact ⟨hfound, by decide, _, hj, hwhole, ⟨t, ht, hdepth, hinner, hid⟩, t', ht', hdepth',
        houter, hid'⟩
    · cases hhandler'

end CallAtlas.Journey
