import CallAtlas.Proofs.WalkRoutes

/-!
# Proofs.GuardFlags — what guards a call, and which throws get out

A scope says by one flag whether a `try` body with a `catch` clause is around. The flag is set and
reset along the walk; here it is read off the tree: it is set if such a body is around the node and
inside of the function that owns it.

* `Shields` — a `try` statement with a `catch` clause, seen from its body.
* `Visits.guarded_iff` — the flag of a scope, by the `try` statements that were visited before.
* `Visits.walked_of_stands` — no `try` statement inside of a function is passed over.
* `hasChainedCatch_iff` — the links of a chain of calls.
* `guard_flags_exact` — the flags of all call sites and the throws of all declarations.
-/

namespace CallAtlas.Extraction

open CallAtlas.Tree

/-! ## Try statements around a node -/

/-- `t` is a `try` statement with a `catch` clause, and `c` lies in its body. -/
structure Shields (t c : Cursor) : Prop where
  kind : t.kind = "try_statement"
  handler : (t.field? "handler").isSome = true
  body : ∃ body, t.field? "body" = some body ∧ c.Within body

section Shields

variable {settings : ExtractionSettings} {maxDepth levels n i : Nat} {root : Node}
  {c f p q t : Cursor}
  {scope scope' s u v : Scope} {turn : Turn}

theorem Shields.below (h : Shields t c) : c.Below t := by
  obtain ⟨body, hbody, hc⟩ := h.body
  exact hc.trans_below (Cursor.below_of_mem_children (Cursor.mem_children_of_field? hbody))

/-- A try shields everything within what it shields. -/
theorem Shields.mono (h : Shields t c) (hq : q.Within c) : Shields t q := by
  obtain ⟨body, hbody, hc⟩ := h.body
  exact ⟨h.kind, h.handler, body, hbody, hq.trans hc⟩

/-- The body that `q` lies in is entered above `c`, if `c` is further up. -/
theorem Shields.of_within (h : Shields t q) (hq : q.Within c) (hc : c.Below t) : Shields t c := by
  obtain ⟨body, hbody, hqb⟩ := h.body
  obtain ⟨child, hchild, hcc⟩ := Cursor.below_iff_child.mp hc
  obtain rfl : child = body :=
    Cursor.eq_of_common_children hchild (Cursor.mem_children_of_field? hbody) (hq.trans hcc) hqb
  exact ⟨h.kind, h.handler, child, hbody, hcc⟩

/-- A node with turns is no broken node, since those are skipped. -/
theorem not_broken_of_mem_turns (h : turn ∈ turns settings c scope) : c.node.isBroken = false := by
  cases hbroken : c.node.isBroken with
  | false => rfl
  | true =>
    have hskipped : Construct.of c.node = .skipped := by simp [Construct.of, hbroken]
    simp [turns, hskipped] at h

/-- A node of this kind that leads anywhere is taken as a `try` statement. -/
theorem tryStmt_of_mem_turns (h : turn ∈ turns settings c scope)
    (hkind : c.kind = "try_statement") : Construct.of c.node = .tryStmt := by
  have hkind : c.node.kind = "try_statement" := hkind
  simp [Construct.of, not_broken_of_mem_turns h, hkind]

/-- A `try` statement that is visited for declaration `i` shields the node. -/
def Shielded (settings : ExtractionSettings) (maxDepth : Nat) (root : Node) (i : Nat)
    (c : Cursor) : Prop :=
  ∃ t, WalkedFor settings maxDepth root i t ∧ Shields t c

/-- **One step down**: what shields a target shields the node that it comes from, or it is that
node. -/
theorem Visits.shielded_iff (hfields : root.everywhere Node.fieldsApart = true)
    (h : Visits settings maxDepth root (levels + 1) c scope n) (hi : scope.owner = some i)
    (hq : (q, u) ∈ targets settings c scope) :
    Shielded settings maxDepth root i q ↔ Shielded settings maxDepth root i c ∨ Shields c q := by
  have hbelow := below_of_mem_targets hq
  constructor
  · rintro ⟨t, ⟨v, hwalked, howner⟩, hshields⟩
    by_cases hne : c = t
    · subst hne
      exact .inr hshields
    · rw [← targets_erase] at hq
      have hwithin : c.Within t := h.reached.within_of_below_target hfields hq
        (leads_of_reached hfields h.reached hwalked.reached) hshields.below
      have hct : c.Below t := hwithin.eq_or_below.resolve_left hne
      exact .inl ⟨t, ⟨v, hwalked, howner⟩, hshields.of_within hbelow.within hct⟩
  · rintro (⟨t, hwalked, hshields⟩ | hshields)
    · exact ⟨t, hwalked, hshields.mono hbelow.within⟩
    · exact ⟨c, ⟨scope, ⟨levels, n, h⟩, hi⟩, hshields⟩

/-- **The flag of a scope tells whether the node is shielded**, by what its owner has inside.
Induction on the way to the node. -/
theorem Visits.guarded_iff (hfields : root.everywhere Node.fieldsApart = true)
    (h : Visits settings maxDepth root levels c scope n) (hi : scope.owner = some i) :
    scope.guarded = true ↔ Shielded settings maxDepth root i c := by
  induction h with
  | top hc => cases hi
  | @turn levels n m c q scope scope' outer hq ih =>
    have hturn := turnOf_of_mem hq.mem
    have hi' : scope.owner = some i := hturn.owner_of_visit ▸ hi
    rw [outer.shielded_iff hfields hi' (mem_targets_of_visit hq.mem), ← ih hi']
    cases hturn with
    | visit hway hplain howner hguarded =>
      have hnot : ¬ Shields c q := fun hshields =>
        hplain (tryStmt_of_mem_turns hq.mem hshields.kind)
      simp [hguarded, hnot]
    | @part field part _ _ htry hfield hpart hqp howner hguarded =>
      -- the node shields what is in its body, if it has a handler
      have hshields : Shields c q ↔ field = "body" ∧ (c.field? "handler").isSome = true := by
        have hqp := Cursor.within_of_mem_children hqp
        constructor
        · intro hshields
          obtain ⟨body, hbody, hqb⟩ := hshields.body
          obtain rfl : part = body :=
            Cursor.eq_of_common_children (Cursor.mem_children_of_field? hpart)
            (Cursor.mem_children_of_field? hbody) hqp hqb
          have hc := outer.reached.below_root.within.test hfields
          exact ⟨Cursor.field_eq_of_apart hc hpart hbody, hshields.handler⟩
        · rintro ⟨rfl, hhandler⟩
          exact ⟨kind_of_tryStmt htry, hhandler, part, hpart, hqp⟩
      rw [hguarded, hshields]
      simp
  | @inside levels n j m c q scope o outer ho hq ih =>
    have hget := outer.getElem?_origins ho
    have htarget := mem_targets_of_inner ho.mem hq.mem j
    cases turnOf_of_mem ho.mem with
    | @callable place f name kind scope' hf hkind =>
      -- a function starts anew, and nothing between it and its children belongs to it
      cases hi
      refine iff_of_false (by simp [Origin.innerScope, Scope.inside]) ?_
      rintro ⟨t, hwalked, hshields⟩
      obtain ⟨f', hf', -, htf⟩ := hwalked.below
      obtain rfl : f = f' := by simpa [functionAt?, hget] using hf'
      have hft : f.Within t :=
        Cursor.within_of_below_child (Cursor.mem_children_of_mem_namedChildren hq.mem)
          hshields.below
      exact Cursor.not_below_self f (hft.trans_below htf)
    | classBody hclass =>
      have hnot : ¬ Shields c q := by
        intro hshields
        cases hclass.symm.trans (tryStmt_of_mem_turns ho.mem hshields.kind)
      rw [outer.shielded_iff hfields hi htarget, or_iff_left hnot]
      exact ih hi
    | type => exact absurd hq.mem List.not_mem_nil

/-! ## No try statement is passed over -/

/-- The kinds of nodes that are visited by their parts: the walk goes on with what is in the
parts. -/
def partOwners : List String :=
  ["try_statement", "class_declaration", "abstract_class_declaration", "call_expression"]

/-- A node that is not a part of such a node. A statement never is one in a tree that has been
parsed. -/
def StandsAlone (t : Cursor) : Prop := ∀ p, t.parent? = some p → p.kind ∉ partOwners

theorem StandsAlone.not_child (h : StandsAlone t) (hp : t ∈ p.children) : p.kind ∉ partOwners :=
  h p (Cursor.parent?_of_mem_children hp)

/-- On the way to a visit there is no `try` statement between. -/
theorem Way.not_between (hway : Way c q) (hkind : t.kind = "try_statement")
    (hstands : StandsAlone t) (hqt : q.Below t) (htc : t.Below c) : False := by
  have hnode : t.node.kind = "try_statement" := hkind
  cases hway with
  | child hq =>
    exact Cursor.not_below_self c ((Cursor.within_of_below_child hq hqt).trans_below htc)
  | @exported value hvalue =>
    have hvalue := Cursor.mem_children_of_field? hvalue
    have htv : t.Within value := by
      rcases Cursor.within_or_below hqt.within (Cursor.follow_within _ value) with h | h
      · exact h
      · exact absurd ((Cursor.within_of_below_child hvalue h).trans_below htc)
          (Cursor.not_below_self c)
    -- what stands between an exported value and its core are wrappers
    obtain ⟨-, s, hs⟩ := (Cursor.follow_picked _ value).between hqt htv
    simp [isWrapper, hnode] at hs
  | initializer hdeclarator hdkind hvalue =>
    rw [Cursor.eq_of_between hdeclarator hvalue hqt htc, hkind] at hdkind
    exact absurd hdkind (by decide)
  | argument hcall hckind hargs hq =>
    have hargs := Cursor.mem_children_of_field? hargs
    -- it would be the argument list, the call that has it, or further up on the spine
    rcases (Cursor.within_of_below_child hq hqt).eq_or_below with rfl | hbelow
    · exact hstands.not_child hargs (by simp [partOwners, hckind])
    · rcases (Cursor.within_of_below_child hargs hbelow).eq_or_below with rfl | hbelow
      · rw [hkind] at hckind
        exact absurd hckind (by decide)
      · obtain ⟨-, s, hs⟩ := (Cursor.picked_of_mem_spine hcall).between hbelow htc.within
        simp [Chain.pick, hnode] at hs

/-- **A `try` statement above a visit, inside of the function that owns it, was visited for that
function.** Induction on the way to the visit. -/
theorem Visits.walked_of_stands (h : Visits settings maxDepth root levels c scope n)
    (hi : scope.owner = some i)
    (hf : functionAt? (origins (fileScript settings maxDepth root)) i = some f)
    (hkind : t.kind = "try_statement")
    (hstands : StandsAlone t) (hct : c.Below t) (htf : t.Below f) :
    WalkedFor settings maxDepth root i t := by
  induction h with
  | top hc => cases hi
  | @turn levels n m c q scope scope' outer hq ih =>
    have hturn := turnOf_of_mem hq.mem
    have hi' : scope.owner = some i := hturn.owner_of_visit ▸ hi
    rcases Cursor.within_or_below hturn.below_of_visit.within hct.within with hwithin | hbetween
    · rcases hwithin.eq_or_below with rfl | hbelow
      · exact ⟨scope, ⟨levels, n, outer⟩, hi'⟩
      · exact ih hi' hbelow
    · cases hturn with
      | visit hway => exact (hway.not_between hkind hstands hct hbetween).elim
      | part htry hfield hpart hq =>
        have hpart := Cursor.mem_children_of_field? hpart
        obtain rfl := Cursor.eq_of_between hpart hq hct hbetween
        exact absurd (kind_of_tryStmt htry ▸ by decide) (hstands.not_child hpart)
  | @inside levels n j m c q scope o outer ho hq ih =>
    have hget := outer.getElem?_origins ho
    have hbelow := (turnOf_of_mem ho.mem).below_of_inner hq.mem
    cases turnOf_of_mem ho.mem with
    | @callable place f' name kind scope' hf' hkind' =>
      -- nothing stands between a function and what is in it
      cases hi
      obtain rfl : f' = f := by simpa [functionAt?, hget] using hf
      have hft := Cursor.within_of_below_child (Cursor.mem_children_of_mem_namedChildren hq.mem) hct
      exact absurd (hft.trans_below htf) (Cursor.not_below_self f')
    | classBody hclass =>
      rcases Cursor.within_or_below hbelow.within hct.within with hwithin | hbetween
      · rcases hwithin.eq_or_below with rfl | hct
        · exact ⟨scope, ⟨levels, n, outer⟩, hi⟩
        · exact ih hi hct
      · obtain ⟨body, hbody, hq⟩ := Origin.mem_inner_classDecl hq.mem
        have hbody := Cursor.mem_children_of_field? hbody
        obtain rfl :=
          Cursor.eq_of_between hbody (Cursor.mem_children_of_mem_namedChildren hq) hct hbetween
        exact absurd (kind_mem_of_construct hclass (by decide)) (hstands.not_child hbody)
    | type => exact absurd hq.mem List.not_mem_nil

end Shields

/-! ## Chains of calls -/

/-- `m` links lead up from a call to a later call of its chain: each link is a member access and the
call of it. -/
inductive Links : Nat → Cursor → Cursor → Prop where
  | refl {c : Cursor} : Links 0 c c
  | link {m : Nat} {c member next last : Cursor} (hmember : c.parent? = some member)
      (hkind : member.kind = "member_expression") (hnext : member.parent? = some next)
      (hcall : next.kind = "call_expression") (rest : Links m next last) : Links (m + 1) c last

/-- The call is `object.method(...)`, read off the tree. -/
def Invokes (call : Cursor) (method : String) : Prop :=
  ∃ callee property, call.field? "function" = some callee ∧ callee.kind = "member_expression" ∧
    callee.field? "property" = some property ∧ property.text = method

section Links

variable {links m : Nat} {c f last : Cursor}

theorem invokesMember_iff {call : Cursor} {method : String} :
    invokesMember call method = true ↔ Invokes call method := by
  unfold invokesMember Invokes
  cases call.field? "function" with
  | none => simp
  | some callee => simp [Option.any_eq_true]

/-- **The search for a `.catch` follows the links, as many as it may.** -/
theorem hasChainedCatch_iff :
    hasChainedCatch links c = true ↔
      ∃ m last, 0 < m ∧ m ≤ links ∧ Links m c last ∧ Invokes last "catch" := by
  simp only [← invokesMember_iff]
  induction links generalizing c with
  | zero =>
    refine iff_of_false (by simp [hasChainedCatch]) ?_
    rintro ⟨m, last, hpos, hle, -⟩
    omega
  | succ links ih =>
    constructor
    · intro h
      unfold hasChainedCatch at h
      split at h
      · cases h
      · next member hmember =>
        split at h
        · next hkind =>
          split at h
          · cases h
          · next next hnext =>
            split at h
            · next hcall =>
              rcases Bool.or_eq_true_iff.mp h with hcatch | hrest
              · exact ⟨1, next, by omega, by omega, .link hmember hkind hnext hcall .refl, hcatch⟩
              · obtain ⟨m, last, hpos, hle, hlinks, hcatch⟩ := ih.mp hrest
                exact ⟨m + 1, last,
                  by omega, by omega, .link hmember hkind hnext hcall hlinks, hcatch⟩
            · cases h
        · cases h
    · rintro ⟨m, last, hpos, hle, hlinks, hcatch⟩
      cases hlinks with
      | refl => omega
      | @link m _ member next _ hmember hkind hnext hcall rest =>
        simp only [hasChainedCatch, hmember, hkind, hnext, hcall, if_true, Bool.or_eq_true]
        -- the `.catch` is the next call, or it is found from there with one link less
        cases rest with
        | refl => exact .inl hcatch
        | link hmember' hkind' hnext' hcall' rest =>
          exact .inr (ih.mpr ⟨_, last,
            by omega, by omega, .link hmember' hkind' hnext' hcall' rest, hcatch⟩)

/-- The parent of a node inside of a function is inside of it too, unless it is a function. -/
theorem below_of_parent? {p : Cursor} (hp : c.parent? = some p) (hf : f.kind ∈ functionKinds)
    (hkind : p.kind ∉ functionKinds) (hc : c.Below f) : p.Below f := by
  obtain ⟨p', hcp', hwithin⟩ := Cursor.below_iff_parent.mp hc
  obtain rfl : p = p' := Option.some.inj (hp.symm.trans (Cursor.parent?_of_mem_children hcp'))
  rcases hwithin.eq_or_below with rfl | hbelow
  · exact absurd hf hkind
  · exact hbelow

/-- A chain of calls does not leave the function. -/
theorem Links.below_function (h : Links m c last) (hf : f.kind ∈ functionKinds)
    (hc : c.Below f) : last.Below f := by
  induction h with
  | refl => exact hc
  | link hmember hkind hnext hcall _ ih =>
    have hmember := below_of_parent? hmember hf (by rw [hkind]; decide) hc
    exact ih (below_of_parent? hnext hf (by rw [hcall]; decide) hmember)

end Links

/-! ## Flags and throws -/

/-- A `try` statement is no part of a node that is visited by its parts. -/
def triesStand (n : Node) : Bool :=
  !partOwners.contains n.kind || n.children.all (·.kind != "try_statement")

/-- Where no part owner has a try as its child, every try stands alone. -/
theorem standsAlone_of_everywhere {root : Node} {t : Cursor}
    (hstand : root.everywhere triesStand = true) (ht : t.Below ⟨root, []⟩)
    (hkind : t.kind = "try_statement") : StandsAlone t := by
  intro p hp hmem
  obtain ⟨p', hchild, hwithin⟩ := Cursor.below_iff_parent.mp ht
  obtain rfl : p = p' := Option.some.inj (hp.symm.trans (Cursor.parent?_of_mem_children hchild))
  have htest : p.node.kind ∉ partOwners ∨ ∀ n ∈ p.node.children, n.kind ≠ "try_statement" := by
    simpa [triesStand] using hwithin.test hstand
  obtain ⟨n, hn, rfl⟩ := List.mem_map.mp hchild
  exact htest.resolve_left (not_not_intro hmem) n hn hkind

/-- A later call of the chain, inside of `f`, is a `.catch`: one of the links that are followed. -/
def CaughtLater (f c : Cursor) : Prop :=
  ∃ m last, 0 < m ∧ m ≤ maxChainLinks ∧ Links m c last ∧ last.Below f ∧ Invokes last "catch"

/-- The bounded climb finds a later catch exactly when there is one inside the function. -/
theorem hasChainedCatch_iff_caughtLater {f c : Cursor} (hf : f.kind ∈ functionKinds)
    (hc : c.Below f) : hasChainedCatch maxChainLinks c = true ↔ CaughtLater f c := by
  rw [hasChainedCatch_iff]
  constructor
  · rintro ⟨m, last, hpos, hle, hlinks, hcatch⟩
    exact ⟨m, last, hpos, hle, hlinks, hlinks.below_function hf hc, hcatch⟩
  · rintro ⟨m, last, hpos, hle, hlinks, -, hcatch⟩
    exact ⟨m, last, hpos, hle, hlinks, hcatch⟩

section Exact

variable {ctx : Context} {root : Node} (hfields : root.everywhere Node.fieldsApart = true)

/-- A shielding try that the walk visits for a function is below that function. -/
theorem shielded_iff_below {settings : ExtractionSettings} {maxDepth i : Nat} {f c : Cursor}
    (hf : functionAt? (origins (fileScript settings maxDepth root)) i = some f) :
    Shielded settings maxDepth root i c ↔
      ∃ t, WalkedFor settings maxDepth root i t ∧ t.Below f ∧ Shields t c := by
  constructor
  · rintro ⟨t, hwalked, hshields⟩
    obtain ⟨f', hf', -, hbelow⟩ := hwalked.below
    obtain rfl : f = f' := Option.some.inj (hf.symm.trans hf')
    exact ⟨t, hwalked, hbelow, hshields⟩
  · rintro ⟨t, hwalked, -, hshields⟩
    exact ⟨t, hwalked, hshields⟩

/-- **No statement that shields is passed over**, where each `try` statement stands alone. -/
theorem WalkedFor.of_shields {settings : ExtractionSettings} {maxDepth i : Nat} {f c t : Cursor}
    (hstand : root.everywhere triesStand = true)
    (hf : functionAt? (origins (fileScript settings maxDepth root)) i = some f)
    (hc : WalkedFor settings maxDepth root i c) (htf : t.Below f) (hshields : Shields t c) :
    WalkedFor settings maxDepth root i t := by
  obtain ⟨scope, ⟨levels, n, hvisit⟩, howner⟩ := hc
  -- the root has nothing above it, and `t` is below something
  have htroot : t.Below ⟨root, []⟩ := by
    have hroot := hvisit.reached.below_root.within
    rcases Cursor.within_or_below hroot hshields.below.within with h | h
    · have hdepth := Nat.lt_of_le_of_lt (Nat.zero_le _) htf.depth_lt
      exact absurd h.depth_le (Nat.not_le_of_lt hdepth)
    · exact h
  have halone := standsAlone_of_everywhere hstand htroot hshields.kind
  exact hvisit.walked_of_stands howner hf hshields.kind halone hshields.below htf

/-- Where every try stands alone, the walk visits every try that shields a visited node. -/
theorem exists_shields_iff_of_stand {settings : ExtractionSettings} {maxDepth i : Nat}
    {f c : Cursor} (hstand : root.everywhere triesStand = true)
    (hf : functionAt? (origins (fileScript settings maxDepth root)) i = some f)
    (hc : WalkedFor settings maxDepth root i c) :
    (∃ t, WalkedFor settings maxDepth root i t ∧ t.Below f ∧ Shields t c) ↔
      ∃ t, t.Below f ∧ Shields t c := by
  constructor
  · rintro ⟨t, -, htf, hshields⟩
    exact ⟨t, htf, hshields⟩
  · rintro ⟨t, htf, hshields⟩
    exact ⟨t, .of_shields hstand hf hc htf hshields, htf, hshields⟩

include hfields

/-- What a call site says of itself, and when it is guarded. -/
theorem site_guarded_iff {k : Nat} {site : CallSite}
    (hsite : (extract ctx root).calls[k]? = some site) :
    ∃ (r : Recording) (d : Declaration) (f : Cursor),
      (fileRecordings ctx.settings ctx.maxDepth root)[k]? = some r ∧
      site.target = r.target ∧ site.line = r.node.line ∧
      (extract ctx root).declarations[r.caller]? = some d ∧ site.callerId = d.id ∧
      functionAt? (origins (fileScript ctx.settings ctx.maxDepth root)) r.caller = some f ∧
      r.node.Below f ∧
      (site.flags.guarded = true ↔
        (∃ t, WalkedFor ctx.settings ctx.maxDepth root r.caller t ∧ t.Below f ∧
          Shields t r.node) ∨ CaughtLater f r.node) ∧
      (root.everywhere triesStand = true →
        (site.flags.guarded = true ↔
          (∃ t, t.Below f ∧ Shields t r.node) ∨ CaughtLater f r.node)) := by
  obtain ⟨r, hr, htells⟩ := exists_recording_of_site hsite
  obtain ⟨d, hd, hid⟩ := htells.caller
  obtain ⟨hwalked, hown⟩ := exists_walked_of_recording (List.mem_of_getElem? hr)
  have howner := hown.owner_of_record
  have hfor : WalkedFor ctx.settings ctx.maxDepth root r.caller r.node :=
    ⟨r.scope, hwalked, howner⟩
  obtain ⟨f, hf, hkind, hbelow⟩ := hfor.below
  obtain ⟨levels, n, hvisit⟩ := hwalked
  -- the flag is what the scope carries, or a catch further along the chain
  have hguarded : site.flags.guarded = true ↔
      (∃ t, WalkedFor ctx.settings ctx.maxDepth root r.caller t ∧ t.Below f ∧
        Shields t r.node) ∨ CaughtLater f r.node := by
    rw [htells.guarded, Bool.or_eq_true, hvisit.guarded_iff hfields howner, shielded_iff_below hf,
      hasChainedCatch_iff_caughtLater hkind hbelow]
  refine ⟨r, d, f, hr, htells.target, htells.line, hd, hid, hf, hbelow, hguarded, ?_⟩
  intro hstand
  rw [hguarded, exists_shields_iff_of_stand hstand hf hfor]

/-- A function throws exactly if one of its visited throws is shielded by no visited try. -/
theorem throws_iff_not_shielded {i : Nat} {d : Declaration}
    (hd : (extract ctx root).declarations[i]? = some d) :
    d.errors.throws = true ↔
      ∃ f c, functionAt? (origins (fileScript ctx.settings ctx.maxDepth root)) i = some f ∧
        c.Below f ∧ WalkedFor ctx.settings ctx.maxDepth root i c ∧
        Construct.of c.node = .throwStmt ∧
        ¬ ∃ t, WalkedFor ctx.settings ctx.maxDepth root i t ∧ t.Below f ∧ Shields t c := by
  rw [throws_iff ctx root hd]
  constructor
  · rintro ⟨c, scope, hwalked, hthrow, howner, hguarded⟩
    obtain ⟨f, hf, -, hbelow⟩ := WalkedFor.below ⟨scope, hwalked, howner⟩
    refine ⟨f, c, hf, hbelow, ⟨scope, hwalked, howner⟩, hthrow, ?_⟩
    obtain ⟨levels, n, hvisit⟩ := hwalked
    -- the scope of the throw tells whether a visited try shields it
    rw [← shielded_iff_below hf, ← hvisit.guarded_iff hfields howner, hguarded]
    decide
  · rintro ⟨f, c, hf, -, ⟨scope, hwalked, howner⟩, hthrow, hnone⟩
    refine ⟨c, scope, hwalked, hthrow, howner, ?_⟩
    obtain ⟨levels, n, hvisit⟩ := hwalked
    rw [← shielded_iff_below hf, ← hvisit.guarded_iff hfields howner] at hnone
    exact Bool.eq_false_iff.mpr hnone

/-- The same by the tree alone: a `throw` of its own that no statement of the function shields. -/
theorem throws_iff_of_stand {i : Nat} {d : Declaration}
    (hd : (extract ctx root).declarations[i]? = some d)
    (hstand : root.everywhere triesStand = true) :
    d.errors.throws = true ↔
      ∃ f c, functionAt? (origins (fileScript ctx.settings ctx.maxDepth root)) i = some f ∧
        c.Below f ∧ WalkedFor ctx.settings ctx.maxDepth root i c ∧
        Construct.of c.node = .throwStmt ∧ ¬ ∃ t, t.Below f ∧ Shields t c := by
  rw [throws_iff_not_shielded hfields hd]
  refine exists_congr fun f => exists_congr fun c => ?_
  refine and_congr_right fun hf => and_congr_right fun _ => and_congr_right fun hfor => ?_
  rw [exists_shields_iff_of_stand hstand hf hfor]

end Exact

/-- **Guard flags and throws are exact.** A call site is guarded if, below the function of its
caller, a `try` statement with a `catch` clause has the call in its body, or a later link of its
chain is a `.catch`. A declaration throws if some `throw` of its own has no such statement around
it. The statements that count are those visited for the declaration itself. Where a `try` statement
is never a part of an expression, of a class or of another one, these are all that are around. -/
theorem guard_flags_exact (ctx : Context) (root : Node)
    (hfields : root.everywhere Node.fieldsApart = true) :
    (∀ (k : Nat) (site : CallSite), (extract ctx root).calls[k]? = some site →
      ∃ (r : Recording) (d : Declaration) (f : Cursor),
        (fileRecordings ctx.settings ctx.maxDepth root)[k]? = some r ∧
        site.target = r.target ∧ site.line = r.node.line ∧
        (extract ctx root).declarations[r.caller]? = some d ∧ site.callerId = d.id ∧
        functionAt? (origins (fileScript ctx.settings ctx.maxDepth root)) r.caller = some f ∧
        r.node.Below f ∧
        (site.flags.guarded = true ↔
          (∃ t, WalkedFor ctx.settings ctx.maxDepth root r.caller t ∧ t.Below f ∧
            Shields t r.node) ∨ CaughtLater f r.node) ∧
        (root.everywhere triesStand = true →
          (site.flags.guarded = true ↔
            (∃ t, t.Below f ∧ Shields t r.node) ∨ CaughtLater f r.node))) ∧
    (∀ (i : Nat) (d : Declaration), (extract ctx root).declarations[i]? = some d →
      (d.errors.throws = true ↔
        ∃ f c, functionAt? (origins (fileScript ctx.settings ctx.maxDepth root)) i = some f ∧
          c.Below f ∧ WalkedFor ctx.settings ctx.maxDepth root i c ∧
          Construct.of c.node = .throwStmt ∧
          ¬ ∃ t, WalkedFor ctx.settings ctx.maxDepth root i t ∧ t.Below f ∧ Shields t c) ∧
      (root.everywhere triesStand = true →
        (d.errors.throws = true ↔
          ∃ f c, functionAt? (origins (fileScript ctx.settings ctx.maxDepth root)) i = some f ∧
            c.Below f ∧ WalkedFor ctx.settings ctx.maxDepth root i c ∧
            Construct.of c.node = .throwStmt ∧ ¬ ∃ t, t.Below f ∧ Shields t c))) ∧
    (root.everywhere triesStand = true → ∀ i f c t,
      functionAt? (origins (fileScript ctx.settings ctx.maxDepth root)) i = some f →
      WalkedFor ctx.settings ctx.maxDepth root i c → t.Below f → Shields t c →
      WalkedFor ctx.settings ctx.maxDepth root i t) := by
  -- call sites, then throws, then why the walk visits every shielding try
  refine ⟨?_, ?_, ?_⟩
  · exact fun k site hsite => site_guarded_iff hfields hsite
  · exact fun i d hd =>
      ⟨throws_iff_not_shielded hfields hd, throws_iff_of_stand hfields hd⟩
  · exact fun hstand i f c t hf hc htf hshields => .of_shields hstand hf hc htf hshields

/-! A function that reads in a `try` body, with a function in that body that writes and throws, and
that loads with a `.catch` behind. -/

def guardTree : Node :=
  let leaf (kind text field : String) (line : Nat) : Node :=
    .mk { kind, text, line, fields := [field] } []
  let call (text : String) (line : Nat) (fields : List String) : Node :=
    .mk { kind := "call_expression", line, fields } [leaf "identifier" text "function" line]
  let block (statements : List Node) : Node :=
    .mk { kind := "statement_block", fields := ["body"] } statements
  let inner : Node :=
    .mk { kind := "function_declaration", line := 4 }
      [leaf "identifier" "inner" "name" 4,
        block [call "write" 5 [], .mk { kind := "throw_statement", line := 6 } []]]
  let guard : Node :=
    .mk { kind := "try_statement", line := 2 }
      [block [call "read" 3 [], inner],
        .mk { kind := "catch_clause", line := 7, fields := ["handler"] } []]
  let caught : Node :=
    .mk { kind := "call_expression", line := 8 }
      [.mk { kind := "member_expression", line := 8, fields := ["function"] }
        [call "load" 8 ["object"], leaf "property_identifier" "catch" "property" 8]]
  .mk { kind := "program" }
    [.mk { kind := "function_declaration" }
      [leaf "identifier" "outer" "name" 1, block [guard, caught]]]

/-- The call that reads is guarded by the `try` statement, the one that loads by the `.catch`. The
inner function is not guarded, and so what it throws gets out of it: the `try` statement is around
its function, and there is none inside. -/
theorem guard_flags_exact_nested :
    guardTree.everywhere Node.fieldsApart = true ∧ guardTree.everywhere triesStand = true ∧
      (extract ⟨"a.ts", {}, 400⟩ guardTree).calls.map
          (fun s => (s.callerId, s.line, s.flags.guarded))
        = [("a.ts:outer", 3, true), ("a.ts:inner", 5, false), ("a.ts:outer", 8, true)] ∧
      (∃ r f, (fileRecordings {} 400 guardTree)[1]? = some r ∧
        functionAt? (origins (fileScript {} 400 guardTree)) r.caller = some f ∧ r.node.Below f ∧
        (¬ ∃ t, t.Below f ∧ Shields t r.node) ∧ ¬ CaughtLater f r.node) ∧
      (∃ site r f, (extract ⟨"a.ts", {}, 400⟩ guardTree).calls[2]? = some site ∧
        (fileRecordings {} 400 guardTree)[2]? = some r ∧
        functionAt? (origins (fileScript {} 400 guardTree)) r.caller = some f ∧ r.node.Below f ∧
        CaughtLater f r.node ∧ site.flags.guarded = true) ∧
      ∃ f c, functionAt? (origins (fileScript {} 400 guardTree)) 1 = some f ∧ c.Below f ∧
        WalkedFor {} 400 guardTree 1 c ∧ Construct.of c.node = .throwStmt ∧
        ¬ ∃ t, t.Below f ∧ Shields t c := by
  have hfields : guardTree.everywhere Node.fieldsApart = true := by decide
  have hstand : guardTree.everywhere triesStand = true := by decide
  obtain ⟨hsites, hthrows, -⟩ := guard_flags_exact ⟨"a.ts", {}, 400⟩ guardTree hfields
  refine ⟨hfields, hstand, by decide, ?_, ?_, ?_⟩
  · have hcall : (extract ⟨"a.ts", {}, 400⟩ guardTree).calls[1]?.map (·.flags.guarded)
        = some false := by decide
    obtain ⟨site, hsite, hflag⟩ := Option.map_eq_some_iff.mp hcall
    obtain ⟨r, d, f, hr, -, -, -, -, hf, hbelow, -, hguarded⟩ := hsites 1 site hsite
    have hnot := mt (hguarded hstand).mpr (Bool.eq_false_iff.mp hflag)
    exact ⟨r, f, hr, hf, hbelow, not_or.mp hnot⟩
  · -- the flag follows from the chain, with no look at the flags of the walk
    have hcall : (extract ⟨"a.ts", {}, 400⟩ guardTree).calls[2]?.isSome = true := by decide
    obtain ⟨site, hsite⟩ := Option.isSome_iff_exists.mp hcall
    obtain ⟨r, d, f, hr, -, -, -, -, hf, hbelow, -, hguarded⟩ := hsites 2 site hsite
    have hchain : (fileRecordings {} 400 guardTree)[2]?.map
        (fun r => hasChainedCatch maxChainLinks r.node) = some true := by decide
    rw [hr] at hchain
    obtain ⟨hwalked, hown⟩ := exists_walked_of_recording (List.mem_of_getElem? hr)
    obtain ⟨f', hf', hkind, -⟩ := WalkedFor.below ⟨r.scope, hwalked, hown.owner_of_record⟩
    obtain rfl : f = f' := Option.some.inj (hf.symm.trans hf')
    have hcaught := (hasChainedCatch_iff_caughtLater hkind hbelow).mp (Option.some.inj hchain)
    exact ⟨site, r, f, hsite, hr, hf, hbelow, hcaught, (hguarded hstand).mpr (.inr hcaught)⟩
  · have hdecl : (extract ⟨"a.ts", {}, 400⟩ guardTree).declarations[1]?.map (·.errors.throws)
        = some true := by decide
    obtain ⟨d, hd, hthrow⟩ := Option.map_eq_some_iff.mp hdecl
    exact ((hthrows 1 d hd).2 hstand).mp hthrow

end CallAtlas.Extraction
