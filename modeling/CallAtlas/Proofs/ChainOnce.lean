import Mathlib.Data.List.Nodup
import CallAtlas.Proofs.WalkRoutes

/-!
# Proofs.ChainOnce — a client chain is recorded once

A chain such as `supabase.from('users').select('*')` has several calls on its spine, and each of
them reads as a client chain of its own. Only the outermost is recorded: from there the walk goes on
with the argument lists, so it never comes to a call further down the spine.

* `eq_of_reached_on_spine` — what the walk comes to on the spine of a recorded chain is the chain
  itself.
* `targets_nodup`, `nodup_recordings` — where siblings differ, no node is recorded twice.
* `chain_recorded_once` — both together, for all call sites of a file.
-/

namespace CallAtlas.Tree

/-! ## Spines and siblings -/

/-- No two children of a node are the same. -/
def Node.siblingsDiffer (n : Node) : Bool := decide (n.children.map Node.label).Nodup

/-- Where the children of a node differ, its named children are listed once each. -/
theorem Cursor.nodup_namedChildren {c : Cursor} (h : c.node.siblingsDiffer = true) :
    c.namedChildren.Nodup := by
  have hlabels : (c.node.children.map Node.label).Nodup := of_decide_eq_true h
  have hchildren : c.children.Nodup := by
    refine List.Nodup.of_map (fun q : Cursor => q.node.label) ?_
    rw [children, List.map_map]
    exact hlabels
  exact hchildren.filter _

/-- A spine starts at the node it is taken from. -/
theorem Cursor.mem_spine_self (c : Cursor) (pick : Node → Option Selector) : c ∈ c.spine pick := by
  obtain ⟨⟨label, children⟩, above⟩ := c
  rw [spine, spineFrom]
  exact List.mem_cons_self

mutual

/-- A spine goes down at every step, so it has no node twice. -/
theorem nodup_spineFrom (pick : Node → Option Selector) (above : List Node) :
    ∀ n, (spineFrom pick above n).Nodup
  | .mk label children => by
    rw [spineFrom]
    split
    · exact List.nodup_singleton _
    · next s _ =>
      refine List.nodup_cons.mpr ⟨fun h => ?_, nodup_spineInto pick s _ children⟩
      obtain ⟨n, hn, hwithin⟩ := within_of_mem_spineInto pick s _ children _ h
      exact Nat.not_succ_le_self _ hwithin.depth_le

theorem nodup_spineInto (pick : Node → Option Selector) (s : Selector) (above : List Node) :
    ∀ ns, (spineInto pick s above ns).Nodup
  | [] => by
    rw [spineInto]
    exact List.nodup_nil
  | n :: rest => by
    rw [spineInto]
    split
    · exact nodup_spineFrom pick above n
    · exact nodup_spineInto pick s above rest

end

end CallAtlas.Tree

namespace CallAtlas.Extraction

open CallAtlas.Tree

/-- The calls that a chain in the making has collected. -/
def collected (acc : List Segment × Option Cursor) : List Cursor :=
  acc.2.toList ++ acc.1.filterMap (·.call)

/-- Reading one more node of the spine collects at most that node. -/
theorem collected_step_sublist (acc : List Segment × Option Cursor) (c : Cursor) :
    (collected (Chain.step acc c)).Sublist (c :: collected acc) := by
  obtain ⟨segments, pending⟩ := acc
  unfold Chain.step collected
  -- a call becomes pending, a member takes the pending call, anything else is dropped
  split
  · cases pending with
    | none => exact List.Sublist.refl _
    | some call => exact (List.sublist_cons_self call _).cons_cons c
  · cases pending <;> exact List.sublist_cons_self c _
  · exact List.sublist_cons_self c _

/-- A chain collects each call of its spine once at most. -/
theorem collected_foldl_sublist (spine : List Cursor) (acc : List Segment × Option Cursor) :
    (collected (spine.foldl Chain.step acc)).Sublist (spine.reverse ++ collected acc) := by
  induction spine generalizing acc with
  | nil => exact List.Sublist.refl _
  | cons c rest ih =>
    rw [List.foldl_cons, List.reverse_cons, List.append_assoc]
    exact (ih _).trans ((collected_step_sublist acc c).append_left rest.reverse)

/-- A chain has no argument list twice. -/
theorem nodup_argumentLists (call : Cursor) : (Chain.read call).argumentLists.Nodup := by
  -- the calls of a chain are on its spine, which has no node twice
  have hcalls : (collected ((call.spine Chain.pick).foldl Chain.step ([], none))).Nodup := by
    have hsub := collected_foldl_sublist (call.spine Chain.pick) ([], none)
    rw [show collected (([], none) : List Segment × Option Cursor) = [] from rfl,
      List.append_nil] at hsub
    exact (List.nodup_reverse.mpr (nodup_spineFrom _ _ _)).sublist hsub
  refine List.Nodup.filterMap (fun a a' args ha ha' => ?_) hcalls
  exact Cursor.eq_of_mem_children (Cursor.mem_children_of_field? ha)
    (Cursor.mem_children_of_field? ha')

/-! ## No target twice -/

section Nodup

variable {settings : ExtractionSettings} {maxDepth levels n : Nat} {root : Node} {c : Cursor}
  {scope s : Scope}
  {t : Turn}

/-- The nodes that turns lead to. -/
def targetNodes (ts : List Turn) : List Cursor := ts.flatMap fun t => t.targets.map Prod.fst

/-- The nodes that turns lead to, without the scopes they are visited under. -/
theorem mem_targetNodes {ts : List Turn} {q : Cursor} :
    q ∈ targetNodes ts ↔ ∃ p ∈ ts.flatMap Turn.targets, p.1 = q := by
  simp only [targetNodes, List.mem_flatMap, List.mem_map]
  constructor
  · rintro ⟨t, ht, p, hp, rfl⟩
    exact ⟨p, ⟨t, ht, hp⟩, rfl⟩
  · rintro ⟨p, ⟨t, ht, hp⟩, rfl⟩
    exact ⟨t, ht, p, hp, rfl⟩

/-- Several lists of turns lead to no node twice, if none of them does and two with a common target
are the same. -/
theorem nodup_targetNodes_flatMap {α : Type} {xs : List α} {f : α → List Turn} (hxs : xs.Nodup)
    (heach : ∀ a ∈ xs, (targetNodes (f a)).Nodup)
    (hsame : ∀ a ∈ xs, ∀ b ∈ xs, ∀ p ∈ (f a).flatMap Turn.targets,
      ∀ p' ∈ (f b).flatMap Turn.targets, ∀ x : Cursor, x.Within p.1 → x.Within p'.1 → a = b) :
    (targetNodes (xs.flatMap f)).Nodup := by
  unfold targetNodes
  rw [List.flatMap_assoc]
  refine List.nodup_flatMap.mpr ⟨heach, hxs.pairwise_of_forall_ne fun a ha b hb hne q hq hq' => ?_⟩
  obtain ⟨p, hp, rfl⟩ := mem_targetNodes.mp hq
  obtain ⟨p', hp', heq⟩ := mem_targetNodes.mp hq'
  exact hne (hsame a ha b hb p hp p' hp' p.1 (.refl _) (heq ▸ .refl _))

theorem targetNodes_childTurns (c : Cursor) (scope : Scope) :
    targetNodes (childTurns c scope) = c.namedChildren := by
  simp [targetNodes, childTurns, Turn.targets, List.flatMap_map]

/-- The nodes inside a declaration are listed once each. -/
theorem Origin.nodup_inner {o : Origin} (hsiblings : c.node.everywhere Node.siblingsDiffer = true)
    (ho : ∀ q ∈ o.inner, q.Below c) : o.inner.Nodup := by
  rcases o.inner_eq with hnil | ⟨p, hp⟩
  · rw [hnil]
    exact List.nodup_nil
  · rw [hp] at ho ⊢
    -- the parent is seen through a child, which shows that its siblings differ
    cases hq : p.namedChildren with
    | nil => exact List.nodup_nil
    | cons q rest =>
      have hmem : q ∈ p.namedChildren := hq ▸ List.mem_cons_self
      have hwithin :=
        Cursor.within_of_below_child (Cursor.mem_children_of_mem_namedChildren hmem) (ho q hmem)
      rw [← hq]
      exact Cursor.nodup_namedChildren (hwithin.test hsiblings)

/-- One turn leads to no node twice. -/
theorem nodup_targetNodes_turn (hsiblings : c.node.everywhere Node.siblingsDiffer = true)
    (ht : TurnOf c scope t) : (targetNodes [t]).Nodup := by
  rw [targetNodes, List.flatMap_singleton]
  cases t with
  | visit q scope' => exact List.nodup_singleton q
  | declare o =>
    have hinner := Origin.nodup_inner hsiblings fun q hq => ht.below_of_inner hq
    simpa [Turn.targets, Function.comp_def] using hinner

/-- **A visit leads to no node twice.** -/
theorem targets_nodup (hfields : c.node.everywhere Node.fieldsApart = true)
    (hsiblings : c.node.everywhere Node.siblingsDiffer = true) :
    (targetNodes (turns settings c scope)).Nodup := by
  have hchildren : ∀ p : Cursor, p.Within c → ∀ s, (targetNodes (childTurns p s)).Nodup := by
    intro p hp s
    rw [targetNodes_childTurns]
    exact Cursor.nodup_namedChildren (hp.test hsiblings)
  -- kept before the turns are replaced by their form
  have hturn : ∀ t ∈ turns settings c scope, TurnOf c scope t := fun t ht => turnOf_of_mem ht
  have hform := turnsForm settings c scope
  generalize turns settings c scope = ts at hform hturn
  cases hform with
  | none => exact List.nodup_nil
  | one t => exact nodup_targetNodes_turn hsiblings (hturn t List.mem_cons_self)
  | children s => exact hchildren c (.refl c) s
  | declarators =>
    refine nodup_targetNodes_flatMap
      (Cursor.nodup_namedChildren (Node.everywhere_iff.mp hsiblings).1) (fun d hd => ?_)
      fun a ha b hb p hp p' hp' x hx hx' => declarator_eq_of_common ha hb hp hp' hx hx'
    rcases declaratorTurns_eq scope d with h | ⟨t, h⟩
    · rw [h]
      exact List.nodup_nil
    · rw [h]
      exact nodup_targetNodes_turn hsiblings
        (hturn t (List.mem_flatMap.mpr ⟨d, hd, h ▸ List.mem_cons_self⟩))
  | arguments s =>
    refine nodup_targetNodes_flatMap (nodup_argumentLists c) (fun args hargs => hchildren args ?_ s)
      fun a ha b hb p hp p' hp' x hx hx' => argumentList_eq_of_common hfields ha hb hp hp' hx hx'
    obtain ⟨call, hcall, -, hfield⟩ := exists_call_of_mem_argumentLists hargs
    exact (Cursor.within_of_field? hfield).trans (Cursor.within_of_mem_spine hcall)
  | parts scopeOf =>
    have hfields := (Node.everywhere_iff.mp hfields).1
    refine nodup_targetNodes_flatMap (by decide) (fun field _ => ?_)
      fun f _ g _ p hp p' hp' x hx hx' => part_eq_of_common hfields hp hp' hx hx'
    unfold partTurns
    split
    · next part hpart => exact hchildren part (Cursor.within_of_field? hpart) _
    · exact List.nodup_nil

/-! ## No node recorded twice -/

theorem recordings_append (xs ys : List Event) :
    recordings (xs ++ ys) = recordings xs ++ recordings ys :=
  List.filterMap_append

/-- Recording an optional target makes at most one entry, at the node. -/
theorem recordings_recordEvents (scope : Scope) (target : Option CallTarget) (c : Cursor)
    (via : CallVia) :
    recordings (recordEvents scope target c via) = [] ∨
      ∃ r, recordings (recordEvents scope target c via) = [r] ∧ r.node = c := by
  unfold recordEvents
  split
  · exact .inr ⟨_, rfl, rfl⟩
  · exact .inl rfl

/-- A visit records its node, or nothing. -/
theorem recordings_ownEvents (settings : ExtractionSettings) (c : Cursor) (scope : Scope) :
    recordings (ownEvents settings c scope) = [] ∨
      ∃ r, recordings (ownEvents settings c scope) = [r] ∧ r.node = c := by
  -- only calls, elements and attributes record
  unfold ownEvents
  split
  · exact .inl rfl
  · unfold exportEvents
    repeat' split
    all_goals exact .inl rfl
  · unfold callEvents
    split
    · exact .inl rfl
    · have hcatch : recordings (catchEvents c scope) = [] := by
        unfold catchEvents
        split <;> rfl
      rw [recordings_append, hcatch, List.nil_append]
      exact recordings_recordEvents scope _ c .direct
  · exact recordings_recordEvents scope _ c .render
  · exact recordings_recordEvents scope _ c .handler
  · split <;> exact .inl rfl
  · split <;> exact .inl rfl
  · exact .inl rfl

/-- The parts of a sequence record different nodes, if each of them does and they keep to areas with
nothing in common. -/
theorem nodup_inSequence {α : Type} {part : α → Nat → List Event} {xs : List α}
    (area : α → Cursor → Prop) (hin : ∀ a ∈ xs, ∀ n, ∀ r ∈ recordings (part a n), area a r.node)
    (heach : ∀ a ∈ xs, ∀ n, ((recordings (part a n)).map Recording.node).Nodup)
    (hapart : xs.Pairwise fun a b => ∀ x, area a x → ¬ area b x) (n : Nat) :
    ((recordings (inSequence (xs.map part) n)).map Recording.node).Nodup ∧
      ∀ r ∈ recordings (inSequence (xs.map part) n), ∃ a ∈ xs, area a r.node := by
  -- along the parts: what the first records is in its own area, apart from the areas of the rest
  induction xs generalizing n with
  | nil => exact ⟨List.nodup_nil, by simp [inSequence, recordings]⟩
  | cons a rest ih =>
    obtain ⟨hfirst, hrest⟩ := List.pairwise_cons.mp hapart
    obtain ⟨hnodup, hareas⟩ := ih (fun b hb => hin b (List.mem_cons_of_mem a hb))
      (fun b hb => heach b (List.mem_cons_of_mem a hb)) hrest (n + (origins (part a n)).length)
    rw [List.map_cons, inSequence, recordings_append, List.map_append]
    refine ⟨List.nodup_append.mpr ⟨heach a List.mem_cons_self n, hnodup, ?_⟩, ?_⟩
    · rintro x hx y hy rfl
      obtain ⟨r, hr, rfl⟩ := List.mem_map.mp hx
      obtain ⟨r', hr', heq⟩ := List.mem_map.mp hy
      obtain ⟨b, hb, hbarea⟩ := hareas r' hr'
      exact hfirst b hb r.node (hin a List.mem_cons_self n r hr) (heq ▸ hbarea)
    · intro r hr
      rcases List.mem_append.mp hr with hr | hr
      · exact ⟨a, List.mem_cons_self, hin a List.mem_cons_self n r hr⟩
      · obtain ⟨b, hb, hbarea⟩ := hareas r hr
        exact ⟨b, List.mem_cons_of_mem a hb, hbarea⟩

/-- Children of one node that are all different have nothing in common. -/
theorem pairwise_apart_of_children {p : Cursor} {qs : List Cursor} (hqs : qs.Nodup)
    (hp : ∀ q ∈ qs, q ∈ p.children) :
    qs.Pairwise fun q q' => ∀ x : Cursor, x.Within q → ¬ x.Within q' :=
  hqs.pairwise_of_forall_ne fun q hq q' hq' hne _ hx hx' =>
    hne (Cursor.eq_of_common_children (hp q hq) (hp q' hq') hx hx')

/-- Different turns of a visit cover different nodes. -/
theorem pairwise_covers (hfields : c.node.everywhere Node.fieldsApart = true)
    (hsiblings : c.node.everywhere Node.siblingsDiffer = true) :
    (turns settings c scope).Pairwise fun t t' => ∀ x, t.Covers x → ¬ t'.Covers x := by
  refine (List.nodup_flatMap.mp (targets_nodup hfields hsiblings)).2.imp_of_mem ?_
  rintro t t' ht ht' hdisjoint x ⟨p, hp, hx⟩ ⟨p', hp', hx'⟩
  have hapart : Apart (targets settings c scope) := targets_apart hfields
  have hsame :=
    (hapart (List.mem_flatMap.mpr ⟨t, ht, hp⟩) (List.mem_flatMap.mpr ⟨t', ht', hp'⟩) hx hx').1
  exact hdisjoint (List.mem_map_of_mem hp) (hsame ▸ List.mem_map_of_mem hp')

/-- What a turn records, if this is known of the visits that it leads to. -/
theorem nodup_turn {c : Cursor} {t : Turn} (ht : TurnOf c scope t)
    (hsiblings : c.node.everywhere Node.siblingsDiffer = true)
    (hbelow : ∀ (q : Cursor) (s : Scope) (m : Nat), q.Below c →
      ((recordings (script settings levels q s m)).map Recording.node).Nodup ∧
        ∀ r ∈ recordings (script settings levels q s m), r.node.Within q) (m : Nat) :
    ((recordings (t.events (script settings levels) m)).map Recording.node).Nodup ∧
      ∀ r ∈ recordings (t.events (script settings levels) m), t.Covers r.node := by
  cases t with
  | visit q s =>
    obtain ⟨hnodup, hwithin⟩ := hbelow q s m ht.below_of_visit
    exact ⟨hnodup, fun r hr => ⟨_, List.mem_singleton_self _, hwithin r hr⟩⟩
  | declare o =>
    have hinner : ∀ q ∈ o.inner, q.Below c := fun q hq => ht.below_of_inner hq
    -- two children of one node share nothing below them
    have hapart : o.inner.Pairwise fun q q' => ∀ x : Cursor, x.Within q → ¬ x.Within q' := by
      have hnodup := Origin.nodup_inner hsiblings hinner
      rcases o.inner_eq with hnil | ⟨p, hp⟩
      · rw [hnil]
        exact .nil
      · rw [hp] at hnodup ⊢
        exact pairwise_apart_of_children hnodup fun q hq =>
          Cursor.mem_children_of_mem_namedChildren hq
    obtain ⟨hnodup, hareas⟩ := nodup_inSequence (fun q x => x.Within q)
      (fun q hq k => (hbelow q (o.innerScope m) k (hinner q hq)).2)
      (fun q hq k => (hbelow q (o.innerScope m) k (hinner q hq)).1) hapart (m + 1)
    refine ⟨hnodup, fun r hr => ?_⟩
    obtain ⟨q, hq, hwithin⟩ := hareas r hr
    exact ⟨_, List.mem_map_of_mem hq, hwithin⟩

/-- **A visit and what it leads to record no node twice.** Induction on the levels. -/
theorem nodup_recordings (settings : ExtractionSettings) (levels : Nat) (c : Cursor) (scope : Scope)
    (n : Nat) (hfields : c.node.everywhere Node.fieldsApart = true)
    (hsiblings : c.node.everywhere Node.siblingsDiffer = true) :
    ((recordings (script settings levels c scope n)).map Recording.node).Nodup ∧
      ∀ r ∈ recordings (script settings levels c scope n), r.node.Within c := by
  induction levels generalizing c scope n with
  | zero => exact ⟨List.nodup_nil, by simp [script, recordings, Event.recording?]⟩
  | succ levels ih =>
    have hbelow := fun (q : Cursor) (s : Scope) (m : Nat) (hq : q.Below c) =>
      ih q s m (hq.within.everywhere hfields) (hq.within.everywhere hsiblings)
    have hturn := fun t (ht : t ∈ turns settings c scope) =>
      nodup_turn (turnOf_of_mem ht) hsiblings hbelow
    obtain ⟨hnodup, hareas⟩ := nodup_inSequence Turn.Covers (fun t ht m => (hturn t ht m).2)
      (fun t ht m => (hturn t ht m).1) (pairwise_covers hfields hsiblings) n
    -- what the turns record is further down, so the node itself is not among it
    have hlower : ∀ r ∈ recordings (turnEvents (script settings levels) (turns settings c scope) n),
        r.node.Below c := by
      intro r hr
      obtain ⟨t, ht, p, hp, hwithin⟩ := hareas r hr
      have hp : (p.1, p.2) ∈ targets settings c scope := List.mem_flatMap.mpr ⟨t, ht, hp⟩
      exact hwithin.trans_below (below_of_mem_targets hp)
    rw [script_succ, recordings_append]
    rcases recordings_ownEvents settings c scope with hown | ⟨own, hown, hnode⟩
    · rw [hown]
      exact ⟨hnodup, fun r hr => (hlower r hr).within⟩
    · rw [hown]
      refine ⟨List.nodup_cons.mpr ⟨fun hmem => ?_, hnodup⟩, fun r hr => ?_⟩
      · obtain ⟨r, hr, heq⟩ := List.mem_map.mp hmem
        exact Cursor.not_below_self c ((heq.trans hnode) ▸ hlower r hr)
      · rcases List.mem_cons.mp hr with rfl | hr
        · rw [hnode]
          exact .refl c
        · exact (hlower r hr).within

/-- **A file records no node twice.** -/
theorem nodup_fileRecordings (settings : ExtractionSettings) (maxDepth : Nat)
    (hfields : root.everywhere Node.fieldsApart = true)
    (hsiblings : root.everywhere Node.siblingsDiffer = true) :
    ((fileRecordings settings maxDepth root).map Recording.node).Nodup := by
  have hwithin : ∀ q ∈ (Cursor.mk root []).namedChildren, q.Within ⟨root, []⟩ := fun q hq =>
    Cursor.within_of_mem_namedChildren hq
  have hvisit := fun q hq n => nodup_recordings settings maxDepth q {} n
    ((hwithin q hq).everywhere hfields)
    ((hwithin q hq).everywhere hsiblings)
  have hnodup := Cursor.nodup_namedChildren (c := ⟨root, []⟩) (Node.everywhere_iff.mp hsiblings).1
  exact (nodup_inSequence (fun q x => x.Within q) (fun q hq n => (hvisit q hq n).2)
    (fun q hq n => (hvisit q hq n).1)
    (pairwise_apart_of_children hnodup fun q hq => Cursor.mem_children_of_mem_namedChildren hq) 0).1

end Nodup

/-! ## Chains -/

/-- The target is a call chain on a data client. -/
def IsDatabase (target : CallTarget) : Prop :=
  ∃ client operation table, target = .database client operation table

section Chains

variable {settings : ExtractionSettings} {maxDepth : Nat} {root : Node} {p q : Cursor} {s t : Scope}
  {target : CallTarget} {lists : List Cursor}

/-- The database reading of a chain gives database targets only. -/
theorem isDatabase_of_databaseTarget? {chain : Chain} {name : String}
    (h : databaseTarget? settings chain name = some target) : IsDatabase target := by
  -- both forms of the receiver end in this test
  have hmade : ∀ {client : String} {methods : List Segment},
      (if isDataClient settings client && methods.any (·.call.isSome) then
        some (CallTarget.database client (dbOperation (methods.map (·.name)))
          (tableOf? methods)) else none)
        = some target → IsDatabase target := by
    intro client methods h
    split at h <;> cases h
    exact ⟨_, _, _, rfl⟩
  unfold databaseTarget? at h
  dsimp only at h
  split at h
  · split at h
    · cases h
    · exact hmade h
  · split at h
    · cases h
    · exact hmade h

theorem exists_http_of_requestTarget? {args : List Cursor} (h : requestTarget? args = some target) :
    ∃ method path, target = .http method path := by
  obtain ⟨first, -, h⟩ := Option.bind_eq_some_iff.mp h
  split at h <;> cases h <;> exact ⟨_, _, rfl⟩

/-- The request reading of a chain gives request targets only. -/
theorem exists_http_of_httpTarget? {chain : Chain} {name : String}
    (h : httpTarget? settings chain name p = some target) :
    ∃ method path, target = .http method path := by
  unfold httpTarget? at h
  dsimp only at h
  split at h
  · split at h
    · cases h
      exact ⟨_, _, rfl⟩
    · split at h
      · exact exists_http_of_requestTarget? h
      · cases h
  · split at h
    · split at h
      · exact exists_http_of_requestTarget? h
      · obtain ⟨method, -, rfl⟩ := Option.map_eq_some_iff.mp h
        exact ⟨_, _, rfl⟩
    · cases h
  · cases h

/-- The remaining reading of a chain gives named targets only. -/
theorem exists_named_of_namedTarget? {chain : Chain} {name : String}
    (h : namedTarget? chain name = some target) :
    ∃ name receiver, target = .named name receiver := by
  unfold namedTarget? at h
  dsimp only at h
  split at h
  · split at h <;> cases h
    exact ⟨_, _, rfl⟩
  · split at h <;> cases h
    exact ⟨_, _, rfl⟩

/-- **The client chains are the calls with a database target.** -/
theorem target?_isDatabase_iff :
    (∃ lists, CallShape.of settings p = .chain target lists) ↔
      (CallShape.of settings p).target? = some target ∧ IsDatabase target := by
  dsimp only [CallShape.of]
  split
  · split
    · next found hfound =>
      have hdatabase := isDatabase_of_databaseTarget? hfound
      simp only [CallShape.chain.injEq, CallShape.target?, Option.some.injEq, exists_and_left]
      constructor
      · rintro ⟨rfl, -⟩
        exact ⟨rfl, hdatabase⟩
      · rintro ⟨rfl, -⟩
        exact ⟨rfl, _, rfl⟩
    · split
      · -- requests and calls of a name have targets of other kinds
        next hhttp =>
        obtain ⟨method, path, rfl⟩ := exists_http_of_httpTarget? hhttp
        refine iff_of_false (by simp) ?_
        rintro ⟨h, client, operation, table, rfl⟩
        cases h
      · split
        · next hnamed =>
          obtain ⟨name, receiver, rfl⟩ := exists_named_of_namedTarget? hnamed
          refine iff_of_false (by simp) ?_
          rintro ⟨h, client, operation, table, rfl⟩
          cases h
        · exact iff_of_false (by simp) fun h => by cases h.1
  · exact iff_of_false (by simp) fun h => by cases h.1

/-- From a client chain the walk goes on with the argument lists. -/
theorem exists_argument_of_target (hcall : Construct.of p.node = .callExpr)
    (howner : s.owner.isSome = true) (hshape : CallShape.of settings p = .chain target lists)
    (hq : (q, t) ∈ targets settings p s) :
    ∃ call args : Cursor, call.Picked Chain.pick p ∧ call.kind = "call_expression" ∧
      call.field? "arguments" = some args ∧ q ∈ args.namedChildren := by
  obtain ⟨i, hi⟩ := Option.isSome_iff_exists.mp howner
  have hturns : turns settings p s = lists.flatMap (childTurns · s.plain) := by
    simp only [turns, hcall, callTurns, hi, hshape]
  rw [targets, hturns, CallShape.argumentLists_eq hshape, List.flatMap_assoc] at hq
  obtain ⟨args, hargs, hq⟩ := List.mem_flatMap.mp hq
  rw [targets_childTurns] at hq
  obtain ⟨q', hq', heq⟩ := List.mem_map.mp hq
  cases heq
  obtain ⟨call, hspine, hkind, hfield⟩ := exists_call_of_mem_argumentLists hargs
  exact ⟨call, args, Cursor.picked_of_mem_spine hspine, hkind, hfield, hq'⟩

/-- **On the spine of a client chain the walk comes to no other node.** Its arguments are not on the
spine. -/
theorem eq_of_reached_on_spine (hfields : root.everywhere Node.fieldsApart = true)
    (hp : Reached settings root p s) (hcall : Construct.of p.node = .callExpr)
    (howner : s.owner.isSome = true) (hshape : CallShape.of settings p = .chain target lists)
    (hq : Reached settings root q t) (hspine : q ∈ p.spine Chain.pick) : q = p := by
  have hpicked := Cursor.picked_of_mem_spine hspine
  rcases (leads_of_reached hfields hp hq hpicked.within).eq_or_first with heq | ⟨⟨x, u⟩, hx, hrest⟩
  · exact (Prod.mk.inj heq).1.symm
  · obtain ⟨call, args, hcallp, hkind, hargs, hxargs⟩ :=
      exists_argument_of_target hcall howner hshape hx
    have hqargs : q.Within args := hrest.within.trans (Cursor.within_of_mem_namedChildren hxargs)
    have hqcall : q.Below call :=
      hqargs.trans_below (Cursor.below_of_mem_children (Cursor.mem_children_of_field? hargs))
    -- further down on the spine than the call there is nothing of its arguments, and above it
    -- neither
    rcases Cursor.picked_total hcallp hpicked with hlower | hupper
    · have hne : q ≠ call := (Cursor.below_iff.mp hqcall).2
      have hapart := (hcallp.within.trans hp.below_root.within).test hfields
      exact absurd (.refl q) (not_within_arguments hapart hkind hargs hlower hne hqargs)
    · exact absurd (hupper.within.trans_below hqcall) (Cursor.not_below_self call)

end Chains

/-! ## Call sites -/

section Sites

variable {ctx : Context} {root : Node} {k : Nat}

/-- A recording with a database target is that of a client chain, made in its visit. -/
theorem chain_of_recording {settings : ExtractionSettings} {maxDepth : Nat} {r : Recording}
    (hr : r ∈ fileRecordings settings maxDepth root) (hdatabase : IsDatabase r.target) :
    Reached settings root r.node r.scope.erase ∧ Construct.of r.node.node = .callExpr ∧
      r.scope.erase.owner.isSome = true ∧
        ∃ lists, CallShape.of settings r.node = .chain r.target lists := by
  obtain ⟨hwalked, hown⟩ := exists_walked_of_recording hr
  obtain ⟨caller, target, node, via, scope⟩ := r
  cases hown with
  | called howner hcall htarget =>
    refine ⟨hwalked.reached, hcall, ?_, target?_isDatabase_iff.mpr ⟨htarget, hdatabase⟩⟩
    rw [Scope.isSome_owner_erase]
    exact Option.isSome_of_eq_some howner
  | wired howner =>
    obtain ⟨client, operation, table, h⟩ := hdatabase
    cases h

/-- Two recordings of one node are the same, where siblings differ. -/
theorem index_eq_of_node_eq {settings : ExtractionSettings} {maxDepth k' : Nat} {r r' : Recording}
    (hfields : root.everywhere Node.fieldsApart = true)
    (hsiblings : root.everywhere Node.siblingsDiffer = true)
    (hr : (fileRecordings settings maxDepth root)[k]? = some r)
    (hr' : (fileRecordings settings maxDepth root)[k']? = some r')
    (hnode : r'.node = r.node) : k' = k := by
  have hlt : k' < ((fileRecordings settings maxDepth root).map Recording.node).length := by
    rw [List.length_map]
    exact (List.getElem?_eq_some_iff.mp hr').1
  refine (List.getElem?_inj hlt (nodup_fileRecordings settings maxDepth hfields hsiblings)).mp ?_
  simp [hr, hr', hnode]

end Sites

/-- **A client chain is recorded once, at its outermost call.** Of two call sites with a database
target none is on the spine of the other. If a call is visited inside of a declaration and reads as
a client chain, it has a call site, and that is the only one on its spine with a database target. -/
theorem chain_recorded_once (ctx : Context) (root : Node)
    (hfields : root.everywhere Node.fieldsApart = true) :
    (∀ (k k' : Nat) (site site' : CallSite), (extract ctx root).calls[k]? = some site →
      (extract ctx root).calls[k']? = some site' → IsDatabase site.target →
        IsDatabase site'.target →
      ∃ r r' : Recording, (fileRecordings ctx.settings ctx.maxDepth root)[k]? = some r ∧
        (fileRecordings ctx.settings ctx.maxDepth root)[k']? = some r' ∧ site.line = r.node.line ∧
        site'.line = r'.node.line ∧ r.node.kind = "call_expression" ∧
        r'.node.kind = "call_expression" ∧
        (r.node ≠ r'.node → r'.node ∉ r.node.spine Chain.pick)) ∧
    (∀ (p : Cursor) (scope : Scope) (i : Nat) (target : CallTarget) (lists : List Cursor),
      Walked ctx.settings ctx.maxDepth root p scope → scope.owner = some i →
        Construct.of p.node = .callExpr →
      CallShape.of ctx.settings p = .chain target lists →
      ∃ (k : Nat) (site : CallSite) (d : Declaration),
        (fileRecordings ctx.settings ctx.maxDepth root)[k]? = some ⟨i, target, p, .direct, scope⟩ ∧
        (extract ctx root).calls[k]? = some site ∧ (extract ctx root).declarations[i]? = some d ∧
        site.callerId = d.id ∧ site.target = target ∧ IsDatabase target ∧ site.line = p.line ∧
        ∀ (k' : Nat) (r' : Recording),
          (fileRecordings ctx.settings ctx.maxDepth root)[k']? = some r' →
          IsDatabase r'.target → r'.node ∈ p.spine Chain.pick →
          r'.node = p ∧ (root.everywhere Node.siblingsDiffer = true → k' = k)) := by
  constructor
  · intro k k' site site' hsite hsite' hdatabase hdatabase'
    obtain ⟨r, hr, htells⟩ := exists_recording_of_site hsite
    obtain ⟨r', hr', htells'⟩ := exists_recording_of_site hsite'
    -- both sites are chains at places the walk reaches, and a chain hides the rest of its spine
    rw [htells.target] at hdatabase
    rw [htells'.target] at hdatabase'
    obtain ⟨hreached, hcall, howner, lists, hshape⟩ :=
      chain_of_recording (List.mem_of_getElem? hr) hdatabase
    obtain ⟨hreached', hcall', -, -⟩ := chain_of_recording (List.mem_of_getElem? hr') hdatabase'
    refine ⟨r, r', hr, hr', htells.line, htells'.line, kind_of_callExpr hcall,
      kind_of_callExpr hcall', ?_⟩
    intro hne hspine
    exact hne (eq_of_reached_on_spine hfields hreached hcall howner hshape hreached' hspine).symm
  · intro p scope i target lists hwalked howner hcall hshape
    obtain ⟨htarget, hdatabase⟩ := target?_isDatabase_iff.mp ⟨lists, hshape⟩
    have hown : .record i target p .direct scope ∈ ownEvents ctx.settings p scope := by
      simp [ownEvents, hcall, callEvents, howner, htarget, recordEvents]
    obtain ⟨k, hk⟩ := List.mem_iff_getElem?.mp (hwalked.recording_mem hown)
    obtain ⟨site, hsite, htells⟩ := exists_site_of_recording hk
    obtain ⟨d, hd, hid⟩ := htells.caller
    refine ⟨k, site, d, hk, hsite, hd, hid, htells.target, hdatabase, htells.line, ?_⟩
    intro k' r' hr' hdatabase' hspine
    -- the walk reaches the other recording too, so it can only be the chain itself
    have howner' : scope.erase.owner.isSome = true := by
      rw [Scope.isSome_owner_erase, howner]
      rfl
    obtain ⟨hreached', -⟩ := chain_of_recording (List.mem_of_getElem? hr') hdatabase'
    have hnode :=
      eq_of_reached_on_spine hfields hwalked.reached hcall howner' hshape hreached' hspine
    exact ⟨hnode, fun hsiblings => index_eq_of_node_eq hfields hsiblings hk hr' hnode⟩

/-! A chain of two calls, with another chain in its arguments. -/

def chainTree : Node :=
  let leaf (kind text field : String) (start : Nat) : Node :=
    .mk { kind, text, start, fields := [field] } []
  let client (field : String) (start : Nat) : Node := leaf "identifier" "supabase" field start
  let member (object : Node) (property : String) : Node :=
    .mk { kind := "member_expression", fields := ["function"] }
      [object, leaf "property_identifier" property "property" 0]
  let args (nodes : List Node) : Node := .mk { kind := "arguments", fields := ["arguments"] } nodes
  let base : Node :=
    .mk { kind := "call_expression", fields := ["object"], line := 2 }
      [member (client "object" 1) "from", args [.mk { kind := "string", text := "'users'" } []]]
  let count : Node :=
    .mk { kind := "call_expression", line := 3 } [member (client "object" 5) "rpc", args []]
  let whole : Node := .mk { kind := "call_expression", line := 2 } [member base "eq", args [count]]
  .mk { kind := "program" }
    [.mk { kind := "function_declaration" }
      [leaf "identifier" "load" "name" 0,
        .mk { kind := "statement_block", fields := ["body"] } [whole]]]

/-- Both chains are recorded, and the call in the middle of the outer one is not. -/
theorem chain_recorded_once_nested :
    chainTree.everywhere Node.fieldsApart = true ∧ chainTree.everywhere Node.siblingsDiffer = true ∧
      (extract ⟨"a.ts", {}, 400⟩ chainTree).calls.map (fun s => (s.line, s.target))
        = [(2, .database "supabase" .query (some "users")), (3, .database "supabase" .rpc none)] ∧
      ∃ r, (fileRecordings {} 400 chainTree)[0]? = some r ∧
        (r.node.spine Chain.pick).map Cursor.kind
          = ["call_expression", "member_expression", "call_expression", "member_expression",
            "identifier"] ∧
        ∀ (k' : Nat) (r' : Recording), (fileRecordings {} 400 chainTree)[k']? = some r' →
          IsDatabase r'.target →
          r'.node ∈ r.node.spine Chain.pick → k' = 0 := by
  have hfields : chainTree.everywhere Node.fieldsApart = true := by decide
  have hsiblings : chainTree.everywhere Node.siblingsDiffer = true := by decide
  refine ⟨hfields, hsiblings, by decide, ?_⟩
  have hfirst : (fileRecordings {} 400 chainTree)[0]?.map
      (fun r => (r.target, (r.node.spine Chain.pick).map Cursor.kind))
      = some (.database "supabase" .query (some "users"),
        ["call_expression", "member_expression", "call_expression", "member_expression",
          "identifier"]) := by
    decide
  obtain ⟨r, hr, hpair⟩ := Option.map_eq_some_iff.mp hfirst
  obtain ⟨htarget, hkinds⟩ := Prod.mk.inj hpair
  refine ⟨r, hr, hkinds, fun k' r' hr' hdatabase hspine => ?_⟩
  obtain ⟨hwalked, hown⟩ := exists_walked_of_recording (List.mem_of_getElem? hr)
  obtain ⟨-, hcall, -, lists, hshape⟩ :=
    chain_of_recording (List.mem_of_getElem? hr) ⟨_, _, _, htarget⟩
  -- the first recording and any other one on its spine have the same index
  obtain ⟨k, site, d, hk, -, -, -, -, -, -, honly⟩ :=
    (chain_recorded_once ⟨"a.ts", {}, 400⟩ chainTree hfields).2
    r.node r.scope r.caller r.target lists hwalked hown.owner_of_record hcall hshape
  rw [(honly k' r' hr' hdatabase hspine).2 hsiblings]
  have hself := Cursor.mem_spine_self r.node Chain.pick
  exact ((honly 0 r hr ⟨_, _, _, htarget⟩ hself).2 hsiblings).symm

end CallAtlas.Extraction
