import CallAtlas.Proofs.WalkTurns

/-!
# Proofs.WalkVisits — the visits of a walk, and what comes of each

A walk is a tree of visits: the named children of the root are visited first, and each visit leads
to others by its turns. `Visits` says so, with the levels that are left and the number of
declarations so far, so that it tells exactly which nodes a walk comes to and in which scopes.

All that the script of a file lists is done in some visit (`done_of_split`), and what a visit lists
is listed in the script, where it should be (`Visits.occurs`). From there the results of a walk can
be read off its visits.

* `Visits.owned` — a visit with an owner lies in the function of that declaration.
* `sites_told` — the call sites of a file, one for each recording.
* `throws_iff` — a declaration throws if a mark was set for it.
-/

namespace CallAtlas.Extraction

open CallAtlas.Tree

/-! ## Visits -/

section Visits

variable (settings : ExtractionSettings) (maxDepth : Nat) (root : Node)

/-- The walk of a tree comes to a node with some levels left, in a scope, after some
declarations. -/
inductive Visits : Nat → Cursor → Scope → Nat → Prop where
  | top {c : Cursor} {n : Nat}
      (hc : Comes (fun q => script settings maxDepth q {})
        (Cursor.mk root []).namedChildren 0 c n) :
      Visits maxDepth c {} n
  | turn {levels n m : Nat} {c q : Cursor} {scope scope' : Scope}
      (outer : Visits (levels + 1) c scope n)
      (hq : Comes (Turn.events (script settings levels)) (turns settings c scope) n
        (.visit q scope') m) :
      Visits levels q scope' m
  | inside {levels n i m : Nat} {c q : Cursor} {scope : Scope} {o : Origin}
      (outer : Visits (levels + 1) c scope n)
      (ho : Comes (Turn.events (script settings levels)) (turns settings c scope) n (.declare o) i)
      (hq : Comes (fun q => script settings levels q (o.innerScope i)) o.inner (i + 1) q m) :
      Visits levels q (o.innerScope i) m

/-- A node is visited in a scope. Where no level is left a node is refused. -/
def Walked (c : Cursor) (scope : Scope) : Prop :=
  ∃ levels n, Visits settings maxDepth root (levels + 1) c scope n

/-- What a visit does itself, with the number of declarations before. -/
inductive Does (settings : ExtractionSettings) :
    Nat → Cursor → Scope → Nat → Event → Nat → Prop where
  | refuse {c : Cursor} {scope : Scope} {n : Nat} : Does settings 0 c scope n (.refuse c) n
  | own {levels n : Nat} {c : Cursor} {scope : Scope} {e : Event}
      (he : e ∈ ownEvents settings c scope) :
      Does settings (levels + 1) c scope n e n
  | declare {levels n i : Nat} {c : Cursor} {scope : Scope} {o : Origin}
      (ho : Comes (Turn.events (script settings levels)) (turns settings c scope) n
        (.declare o) i) :
      Does settings (levels + 1) c scope n (.declare o) i

end Visits

variable {settings : ExtractionSettings} {maxDepth : Nat} {root : Node} {levels n m i : Nat}
  {c q : Cursor}
  {scope scope' : Scope} {o : Origin} {e : Event}

/-- With a level left, a node does its own events and then takes its turns. -/
theorem script_succ (settings : ExtractionSettings) (levels : Nat) (c : Cursor) (scope : Scope)
    (n : Nat) :
    script settings (levels + 1) c scope n
      = ownEvents settings c scope ++
        turnEvents (script settings levels) (turns settings c scope) n :=
  rfl

/-! ## From visits to the script -/

/-- Some events are listed in a script, after `n` declarations. -/
def Occurs (whole part : List Event) (n : Nat) : Prop :=
  ∃ before after, whole = before ++ (part ++ after) ∧ (origins before).length = n

/-- A piece of a piece occurs, with the declarations before it counted in. -/
theorem Occurs.sub {whole part sub before after : List Event} (h : Occurs whole part n)
    (hsub : part = before ++ (sub ++ after))
    (hcount : n + (origins before).length = m) : Occurs whole sub m := by
  obtain ⟨front, back, rfl, hn⟩ := h
  refine ⟨front ++ before, after ++ back, ?_, ?_⟩
  · simp only [hsub, List.append_assoc]
  · rw [origins_append, List.length_append, hn, hcount]

theorem Occurs.subset {whole part : List Event} (h : Occurs whole part n) : part ⊆ whole := by
  obtain ⟨before, after, rfl, -⟩ := h
  exact fun e he => List.mem_append_right _ (List.mem_append_left _ he)

/-- The events of a turn are among those of the visit. -/
theorem Occurs.turn {whole : List Event} {t : Turn}
    (h : Occurs whole (script settings (levels + 1) c scope n) n)
    (ht : Comes (Turn.events (script settings levels)) (turns settings c scope) n t m) :
    Occurs whole (t.events (script settings levels) m) m := by
  obtain ⟨before, after, hsplit, hcount⟩ := ht.split
  have hscript : script settings (levels + 1) c scope n
      = (ownEvents settings c scope ++ before) ++
        (t.events (script settings levels) m ++ after) := by
    rw [script_succ, turnEvents, hsplit, List.append_assoc]
  refine h.sub hscript ?_
  rw [origins_append, origins_ownEvents, List.nil_append, hcount]

/-- **What a visit lists is listed in the script of the file.** Induction on the way to the
visit. -/
theorem Visits.occurs (h : Visits settings maxDepth root levels c scope n) :
    Occurs (fileScript settings maxDepth root) (script settings levels c scope n) n := by
  induction h with
  | top hc =>
    obtain ⟨before, after, hsplit, hcount⟩ := hc.split
    exact ⟨before, after, hsplit, by simpa using hcount⟩
  | turn _ hq ih => exact ih.turn hq
  | @inside levels n i m c q scope o _ ho hq ih =>
    obtain ⟨before, after, hsplit, hcount⟩ := hq.split
    have hevents : Turn.events (script settings levels) (.declare o) i
        = (.declare o :: before) ++ (script settings levels q (o.innerScope i) m ++ after) :=
          congrArg _ hsplit
    refine (ih.turn ho).sub hevents ?_
    show i + ((origins before).length + 1) = m
    omega

/-- What a walked node does itself is in the script of the file. -/
theorem Walked.own_mem (h : Walked settings maxDepth root c scope)
    (he : e ∈ ownEvents settings c scope) : e ∈ fileScript settings maxDepth root := by
  obtain ⟨levels, n, hvisit⟩ := h
  refine hvisit.occurs.subset ?_
  rw [script_succ]
  exact List.mem_append_left _ he

/-! ## From the script to visits -/

/-- An event is done in some visit, after `m` declarations. -/
def Done (settings : ExtractionSettings) (maxDepth : Nat) (root : Node) (e : Event)
    (m : Nat) : Prop :=
  ∃ levels c scope n, Visits settings maxDepth root levels c scope n ∧
    Does settings levels c scope n e m

/-- What is listed in a turn is a declaration of its own, or it is done in a visit that the turn
leads to. -/
theorem Visits.done_of_turns {before after : List Event}
    (h : Visits settings maxDepth root (levels + 1) c scope n)
    (hsplit : turnEvents (script settings levels) (turns settings c scope) n = before ++ e :: after)
    (hbelow : ∀ {q : Cursor} {scope' : Scope} {m : Nat} {before after : List Event},
      Visits settings maxDepth root levels q scope' m →
        script settings levels q scope' m = before ++ e :: after →
      Done settings maxDepth root e (m + (origins before).length)) :
    Done settings maxDepth root e (n + (origins before).length) := by
  obtain ⟨t, m, before', after', ht, hevents, hcount⟩ := exists_comes_of_split hsplit
  rw [hcount]
  cases t with
  | visit q scope' => exact hbelow (.turn h ht) hevents
  | declare o =>
    rw [Turn.events] at hevents
    cases before' with
    | nil =>
      obtain ⟨rfl, -⟩ := List.cons.inj hevents
      exact ⟨levels + 1, c, scope, n, h, .declare ht⟩
    | cons e' before' =>
      -- the event is listed inside of the declaration, which is one more before it
      obtain ⟨rfl, hinner⟩ := List.cons.inj hevents
      obtain ⟨q, m', before'', after'', hq, hevents', hcount'⟩ := exists_comes_of_split hinner
      have hsum : m + (origins (.declare o :: before')).length
          = m' + (origins before'').length := by
        rw [← hcount']
        show m + ((origins before').length + 1) = m + 1 + (origins before').length
        omega
      rw [hsum]
      exact hbelow (.inside h ht hq) hevents'

/-- **What is listed in a visit is done in it or in one that it leads to.** Induction on the
levels. -/
theorem Visits.done {before after : List Event} (h : Visits settings maxDepth root levels c scope n)
    (hsplit : script settings levels c scope n = before ++ e :: after) :
    Done settings maxDepth root e (n + (origins before).length) := by
  induction levels generalizing c scope n before after with
  | zero =>
    obtain ⟨rfl, rfl⟩ : before = [] ∧ e = .refuse c := by
      cases before with
      | nil => simpa [script, eq_comm] using (List.cons.inj hsplit).1
      | cons e' before => simp [script] at hsplit
    exact ⟨0, c, scope, n, h, .refuse⟩
  | succ levels ih =>
    rw [script_succ] at hsplit
    rcases List.append_eq_append_iff.mp hsplit with ⟨rest, rfl, hrest⟩ | ⟨rest, hown, hrest⟩
    · rw [origins_append, origins_ownEvents, List.nil_append]
      exact h.done_of_turns hrest ih
    · -- the event is one of the visit's own, unless these end right before it
      have hnone : origins before = [] := by
        have hall := origins_ownEvents settings c scope
        rw [hown, origins_append] at hall
        exact (List.append_eq_nil_iff.mp hall).1
      rw [hnone]
      cases rest with
      | nil =>
        have hturns : turnEvents (script settings levels) (turns settings c scope) n
            = [] ++ e :: after := hrest.symm
        exact h.done_of_turns hturns ih
      | cons e' rest =>
        obtain ⟨rfl, -⟩ := List.cons.inj hrest
        exact ⟨levels + 1, c, scope, n, h, .own (hown ▸ List.mem_append_right _ List.mem_cons_self)⟩

/-- **What the script of a file lists is done in a visit.** -/
theorem done_of_split {before after : List Event}
    (h : fileScript settings maxDepth root = before ++ e :: after) :
    Done settings maxDepth root e (origins before).length := by
  obtain ⟨c, n, before', after', hc, hevents, hcount⟩ := exists_comes_of_split h
  rw [Nat.zero_add] at hcount
  rw [hcount]
  exact Visits.done (.top hc) hevents

/-- An event that is neither a refusal nor a declaration is what some walked node does itself. -/
theorem exists_walked_of_own_kind (he : e ∈ fileScript settings maxDepth root)
    (hrefuse : ∀ c, e ≠ .refuse c) (horigin : e.origin? = none) :
    ∃ c scope, Walked settings maxDepth root c scope ∧ e ∈ ownEvents settings c scope := by
  obtain ⟨before, after, hsplit⟩ := List.append_of_mem he
  obtain ⟨levels, c, scope, n, hvisit, hdoes⟩ := done_of_split hsplit
  cases hdoes with
  | refuse => exact absurd rfl (hrefuse c)
  | own he => exact ⟨c, scope, ⟨_, _, hvisit⟩, he⟩
  | declare ho => cases horigin

/-! ## Declarations -/

/-- The function of a declaration. -/
def functionAt? (os : List Origin) (i : Nat) : Option Cursor := os[i]?.bind (·.callable)

/-- The index of a declaration is the number of declarations before it. -/
theorem getElem?_origins_of_occurs {whole after : List Event}
    (h : Occurs whole (.declare o :: after) i) : (origins whole)[i]? = some o := by
  obtain ⟨before, after', rfl, rfl⟩ := h
  rw [origins_append, List.getElem?_append_right (Nat.le_refl _), Nat.sub_self]
  rfl

/-- A declaration that is made in a visit has the number that it is made with. -/
theorem Visits.getElem?_origins (h : Visits settings maxDepth root (levels + 1) c scope n)
    (ho : Comes (Turn.events (script settings levels)) (turns settings c scope) n (.declare o) i) :
    (origins (fileScript settings maxDepth root))[i]? = some o :=
  getElem?_origins_of_occurs (h.occurs.turn ho)

/-- Every origin has its place in the script. -/
theorem exists_split_of_getElem?_origins {events : List Event} (h : (origins events)[i]? = some o) :
    ∃ before after, events = before ++ .declare o :: after ∧ (origins before).length = i := by
  -- only declaring events count towards the index
  induction events generalizing i with
  | nil => simp [origins] at h
  | cons e events ih =>
    cases horigin : e.origin? with
    | none =>
      have htail : origins (e :: events) = origins events := List.filterMap_cons_none horigin
      rw [htail] at h
      obtain ⟨before, after, rfl, hcount⟩ := ih h
      refine ⟨e :: before, after, rfl, ?_⟩
      rwa [show origins (e :: before) = origins before from List.filterMap_cons_none horigin]
    | some o' =>
      obtain rfl := Event.eq_declare_of_origin? horigin
      cases i with
      | zero =>
        obtain rfl : o' = o := Option.some.inj h
        exact ⟨[], events, rfl, rfl⟩
      | succ i =>
        obtain ⟨before, after, rfl, hcount⟩ := ih (show (origins events)[i]? = some o from h)
        exact ⟨.declare o' :: before, after, rfl, congrArg (· + 1) hcount⟩

/-- **Every declaration is made in a visit.** -/
theorem exists_visit_of_getElem?_origins
    (h : (origins (fileScript settings maxDepth root))[i]? = some o) :
    ∃ levels c scope n, Visits settings maxDepth root (levels + 1) c scope n ∧
      Comes (Turn.events (script settings levels)) (turns settings c scope) n (.declare o) i := by
  obtain ⟨before, after, hsplit, hcount⟩ := exists_split_of_getElem?_origins h
  obtain ⟨levels, c, scope, n, hvisit, hdoes⟩ := done_of_split hsplit
  rw [hcount] at hdoes
  cases hdoes with
  | own he =>
    -- a node makes no declaration by itself
    have hmem : o ∈ origins (ownEvents settings c scope) := List.mem_filterMap.mpr ⟨_, he, rfl⟩
    rw [origins_ownEvents] at hmem
    exact absurd hmem List.not_mem_nil
  | @declare levels _ _ _ _ _ ho => exact ⟨levels, c, scope, n, hvisit, ho⟩

/-- **A visit with an owner lies in the function of that declaration**, which was made before.
Induction on the way to the visit: a class leaves the owner as it is. -/
theorem Visits.owned (h : Visits settings maxDepth root levels c scope n)
    (hi : scope.owner = some i) :
    i < n ∧ ∃ f, functionAt? (origins (fileScript settings maxDepth root)) i = some f ∧
      f.kind ∈ functionKinds ∧
      ∃ q ∈ f.namedChildren, c.Within q := by
  -- along the visit: a turn keeps the owner, a declaration becomes it, a class body leaves it alone
  induction h with
  | top hc => cases hi
  | turn _ hq ih =>
    have hturn := turnOf_of_mem hq.mem
    obtain ⟨hlt, f, hf, hkind, top, htop, hwithin⟩ := ih (hturn.owner_of_visit ▸ hi)
    exact ⟨Nat.lt_of_lt_of_le hlt hq.le, f, hf, hkind, top, htop,
      hturn.below_of_visit.within.trans hwithin⟩
  | @inside levels n j m c q scope o outer ho hq ih =>
    have hget := outer.getElem?_origins ho
    have hbelow := (turnOf_of_mem ho.mem).below_of_inner hq.mem
    have hafter : n < m := by
      have := ho.le
      have := hq.le
      omega
    cases turnOf_of_mem ho.mem with
    | @callable place f name kind scope' hf hkind =>
      cases hi
      exact ⟨hq.le, f, by rw [functionAt?, hget]; rfl, hkind, q, hq.mem, .refl q⟩
    | classBody hclass =>
      obtain ⟨hlt, f, hf, hkind, top, htop, hwithin⟩ := ih hi
      exact ⟨Nat.lt_trans hlt hafter, f, hf, hkind, top, htop, hbelow.within.trans hwithin⟩
    | type => exact absurd hq.mem List.not_mem_nil

/-- The node is visited for declaration `i`. -/
def WalkedFor (settings : ExtractionSettings) (maxDepth : Nat) (root : Node) (i : Nat)
    (c : Cursor) : Prop :=
  ∃ scope, Walked settings maxDepth root c scope ∧ scope.owner = some i

/-- What is visited for a declaration is inside of its function. -/
theorem WalkedFor.below (h : WalkedFor settings maxDepth root i c) :
    ∃ f, functionAt? (origins (fileScript settings maxDepth root)) i = some f ∧
      f.kind ∈ functionKinds ∧ c.Below f := by
  obtain ⟨scope, ⟨levels, n, hvisit⟩, hi⟩ := h
  obtain ⟨-, f, hf, hkind, top, htop, hwithin⟩ := hvisit.owned hi
  have htop := Cursor.below_of_mem_children (Cursor.mem_children_of_mem_namedChildren htop)
  exact ⟨f, hf, hkind, hwithin.trans_below htop⟩

/-! ## What a node does itself -/

/-- The declaration that an event concerns. -/
def Event.owner? : Event → Option Nat
  | mark scope _ => scope.owner
  | record caller _ _ _ _ => some caller
  | _ => none

/-- The own events of a node in a scope. -/
inductive OwnOf (settings : ExtractionSettings) (c : Cursor) (scope : Scope) : Event → Prop where
  | tried (htry : Construct.of c.node = .tryStmt) :
      OwnOf settings c scope (.mark scope fun e => { e with tryCatch := true })
  | caught : OwnOf settings c scope (.mark scope fun e => { e with promiseCatch := true })
  | thrown (hthrow : Construct.of c.node = .throwStmt) (hguarded : scope.guarded = false) :
      OwnOf settings c scope (.mark scope fun e => { e with throws := true })
  | called {caller : Nat} {target : CallTarget} (howner : scope.owner = some caller)
      (hcall : Construct.of c.node = .callExpr)
      (htarget : (CallShape.of settings c).target? = some target) :
      OwnOf settings c scope (.record caller target c .direct scope)
  | wired {caller : Nat} {name : String} {receiver : Option String} {via : CallVia}
      (howner : scope.owner = some caller) :
      OwnOf settings c scope (.record caller (.named name receiver) c via scope)
  | brought : OwnOf settings c scope (.bring c)
  | exported {names : List String} : OwnOf settings c scope (.exportNames names)
  | markup : OwnOf settings c scope .markup

/-- A component is a named target. -/
theorem componentTarget?_named {tag : String} {target : CallTarget}
    (h : componentTarget? tag = some target) : ∃ name receiver, target = .named name receiver := by
  unfold componentTarget? at h
  split at h
  · split at h <;> cases h <;> exact ⟨_, _, rfl⟩
  · cases h

theorem handlerTarget?_named {target : CallTarget} (h : handlerTarget? c = some target) :
    ∃ name receiver, target = .named name receiver := by
  unfold handlerTarget? at h
  split at h
  · cases h
    exact ⟨_, _, rfl⟩
  · obtain ⟨object, -, h⟩ := Option.bind_eq_some_iff.mp h
    obtain ⟨property, -, h⟩ := Option.bind_eq_some_iff.mp h
    split at h <;> cases h
    exact ⟨_, _, rfl⟩
  · cases h

/-- An attribute wires a named target. -/
theorem attributeTarget?_named {target : CallTarget} (h : attributeTarget? c = some target) :
    ∃ name receiver, target = .named name receiver := by
  unfold attributeTarget? at h
  split at h
  · obtain ⟨value, -, h⟩ := Option.bind_eq_some_iff.mp h
    split at h
    · obtain ⟨expr, -, h⟩ := Option.bind_eq_some_iff.mp h
      exact handlerTarget?_named h
    · cases h
  · cases h

theorem exists_of_mem_recordEvents {target : Option CallTarget} {via : CallVia}
    (h : e ∈ recordEvents scope target c via) :
    ∃ caller t, scope.owner = some caller ∧ target = some t ∧ e = .record caller t c via scope := by
  unfold recordEvents at h
  split at h
  · next caller t howner => exact ⟨caller, t, howner, rfl, List.mem_singleton.mp h⟩
  · exact absurd h List.not_mem_nil

/-- Recording a named target is wiring. -/
theorem ownOf_of_wired {target : Option CallTarget} {via : CallVia}
    (hnamed : ∀ t, target = some t → ∃ name receiver, t = .named name receiver)
    (h : e ∈ recordEvents scope target c via) : OwnOf settings c scope e := by
  obtain ⟨caller, t, howner, htarget, rfl⟩ := exists_of_mem_recordEvents h
  obtain ⟨name, receiver, rfl⟩ := hnamed t htarget
  exact .wired howner

/-- **Every own event is one of these.** -/
theorem ownOf_of_mem (h : e ∈ ownEvents settings c scope) : OwnOf settings c scope e := by
  unfold ownEvents at h
  split at h
  · obtain rfl := List.mem_singleton.mp h
    exact .brought
  · unfold exportEvents at h
    repeat' split at h
    all_goals first
      | exact absurd h List.not_mem_nil
      | obtain rfl := List.mem_singleton.mp h
        exact .exported
  · -- a call may be a catch, and may be recorded
    next hcall =>
    unfold callEvents at h
    split at h
    · exact absurd h List.not_mem_nil
    · rcases List.mem_append.mp h with h | h
      · unfold catchEvents at h
        split at h
        · obtain rfl := List.mem_singleton.mp h
          exact .caught
        · exact absurd h List.not_mem_nil
      · obtain ⟨caller, t, howner, htarget, rfl⟩ := exists_of_mem_recordEvents h
        exact .called howner hcall htarget
  · rcases List.mem_cons.mp h with rfl | h
    · exact .markup
    · refine ownOf_of_wired (fun t ht => ?_) h
      obtain ⟨name, -, hname⟩ := Option.bind_eq_some_iff.mp ht
      exact componentTarget?_named hname
  · exact ownOf_of_wired (fun t ht => attributeTarget?_named ht) h
  · next htry =>
    split at h
    · obtain rfl := List.mem_singleton.mp h
      exact .tried htry
    · exact absurd h List.not_mem_nil
  · next hthrow =>
    split at h
    · exact absurd h List.not_mem_nil
    · next hguarded =>
      obtain rfl := List.mem_singleton.mp h
      exact .thrown hthrow (Bool.eq_false_iff.mpr hguarded)
  · exact absurd h List.not_mem_nil

/-! ## Replaying a script -/

/-- What concerns a declaration comes after it, when there are `n` declarations already. -/
def Founded (n : Nat) (events : List Event) : Prop :=
  ∀ before e after i, events = before ++ e :: after → e.owner? = some i →
    i < n + (origins before).length

theorem Founded.head {events : List Event} (h : Founded n (e :: events))
    (hi : e.owner? = some i) : i < n :=
  h [] e events i rfl hi

/-- Owners stay founded behind an event. -/
theorem Founded.tail {events : List Event} (h : Founded n (e :: events)) :
    Founded (n + (origins [e]).length) events := by
  intro before e' after i hsplit hi
  have hlt := h (e :: before) e' after i (congrArg _ hsplit) hi
  rw [show origins (e :: before) = origins [e] ++ origins before from origins_append [e] before,
    List.length_append, ← Nat.add_assoc] at hlt
  exact hlt

/-- **The script of a file is founded**, since a visit comes after its owner. -/
theorem founded_fileScript (settings : ExtractionSettings) (maxDepth : Nat) (root : Node) :
    Founded 0 (fileScript settings maxDepth root) := by
  intro before e after i hsplit hi
  obtain ⟨levels, c, scope, n, hvisit, hdoes⟩ := done_of_split hsplit
  rw [Nat.zero_add]
  cases hdoes with
  | refuse => cases hi
  | declare ho => cases hi
  | own he =>
    have howner : scope.owner = some i := by
      cases ownOf_of_mem he with
      | tried | caught | thrown => exact hi
      | called howner | wired howner => exact howner.trans hi
      | brought | exported | markup => cases hi
    exact (hvisit.owned howner).1

variable {path : String} {st : State} {events : List Event}

theorem extends_run (path : String) (e : Event) (st : State) :
    Extends st.declarations (e.run path st).declarations := by
  cases horigin : e.origin? with
  | none => exact .of_outlines (map_outline_run horigin path st)
  | some o =>
    obtain rfl := Event.eq_declare_of_origin? horigin
    obtain ⟨d, hds, -⟩ := exists_made path o st
    rw [Extends, hds, List.map_append]
    exact List.prefix_append _ _

/-- A replay only extends the declarations. -/
theorem extends_replay (path : String) (events : List Event) (st : State) :
    Extends st.declarations (replay path events st).declarations := by
  induction events generalizing st with
  | nil => exact .of_outlines rfl
  | cons e events ih => exact (extends_run path e st).trans (ih (e.run path st))

/-! ## Call sites -/

/-- A call site with the node that it comes from. -/
structure Recording where
  caller : Nat
  target : CallTarget
  node : Cursor
  via : CallVia
  scope : Scope

def Event.recording? : Event → Option Recording
  | record caller target node via scope => some ⟨caller, target, node, via, scope⟩
  | _ => none

/-- The calls that events record, in order. -/
def recordings (events : List Event) : List Recording := events.filterMap Event.recording?

/-- A call site tells what was recorded. -/
structure Tells (ds : List Declaration) (r : Recording) (s : CallSite) : Prop where
  caller : ∃ d, ds[r.caller]? = some d ∧ s.callerId = d.id
  target : s.target = r.target
  line : s.line = r.node.line
  via : s.via = r.via
  guarded : s.flags.guarded = (r.scope.guarded || hasChainedCatch maxChainLinks r.node)

/-- What a site tells stays true when declarations are added. -/
theorem Tells.of_extends {ds ds' : List Declaration} {r : Recording} {s : CallSite}
    (h : Tells ds r s) (hext : Extends ds ds') : Tells ds' r s := by
  refine ⟨?_, h.target, h.line, h.via, h.guarded⟩
  obtain ⟨d, hd, hid⟩ := h.caller
  obtain ⟨d', hd', hsame⟩ := hext.getElem? hd
  have hid' : d'.id = d.id := by simpa using congrArg Declaration.id hsame
  exact ⟨d', hd', hid.trans hid'.symm⟩

/-- Only a recording adds a call. -/
theorem calls_run_of_not_recording (h : e.recording? = none) (path : String) (st : State) :
    (e.run path st).calls = st.calls := by
  cases e with
  | record => cases h
  | declare o => rfl
  | mark scope change =>
    show (st.markErrors scope change).calls = st.calls
    unfold State.markErrors
    split <;> rfl
  | bring statement =>
    show (importRule statement st).calls = st.calls
    unfold importRule
    split <;> rfl
  | exportNames | markup | refuse => rfl

/-- A recording becomes one call site, if its caller is there. -/
theorem exists_site_of_record {caller : Nat} (target : CallTarget) (node : Cursor) (via : CallVia)
    (scope : Scope) (hcaller : caller < st.declarations.length) :
    ∃ s, (st.record caller target node via scope).calls = st.calls ++ [s] ∧
      Tells (st.record caller target node via scope).declarations ⟨caller, target, node, via,
        scope⟩ s := by
  unfold State.record
  rw [List.getElem?_eq_getElem hcaller]
  exact ⟨_, rfl, ⟨_, List.getElem?_eq_getElem hcaller, rfl⟩, rfl, rfl, rfl, rfl⟩

/-- **Replaying tells all recordings.** Induction on the events. -/
theorem exists_sites_of_replay (path : String) (st : State)
    (h : Founded st.declarations.length events) :
    ∃ sites, (replay path events st).calls = st.calls ++ sites ∧
      List.Forall₂ (Tells (replay path events st).declarations) (recordings events) sites := by
  induction events generalizing st with
  | nil => exact ⟨[], (List.append_nil _).symm, .nil⟩
  | cons e events ih =>
    have htail := h.tail
    rw [← length_run path] at htail
    obtain ⟨sites, hcalls, htold⟩ := ih (e.run path st) htail
    have hstep : replay path (e :: events) st = replay path events (e.run path st) := rfl
    rw [hstep, hcalls]
    cases hrecording : e.recording? with
    | none =>
      rw [calls_run_of_not_recording hrecording,
        show recordings (e :: events) = recordings events from List.filterMap_cons_none hrecording]
      exact ⟨sites, rfl, htold⟩
    | some r =>
      cases e with
      | record caller target node via scope =>
        -- the caller is there already, and later events leave its id as it is
        obtain ⟨s, hs, htells⟩ := exists_site_of_record target node via scope (h.head rfl)
        refine ⟨s :: sites, ?_, .cons (htells.of_extends (extends_replay path events _)) htold⟩
        show (st.record caller target node via scope).calls ++ sites = _
        rw [hs, List.append_assoc]
        rfl
      | declare | mark | bring | exportNames | markup | refuse => cases hrecording

/-- The recordings of a whole file. -/
def fileRecordings (settings : ExtractionSettings) (maxDepth : Nat)
    (root : Node) : List Recording :=
  recordings (fileScript settings maxDepth root)

/-- **The call sites of a file tell its recordings, one for one.** -/
theorem sites_told (ctx : Context) (root : Node) :
    List.Forall₂ (Tells (extract ctx root).declarations)
      (fileRecordings ctx.settings ctx.maxDepth root)
      (extract ctx root).calls := by
  obtain ⟨sites, hcalls, htold⟩ := exists_sites_of_replay ctx.path {}
    (founded_fileScript ctx.settings ctx.maxDepth root)
  rw [← walked_eq_replay] at hcalls htold
  have hclose : Extends (walked ctx root).declarations (walked ctx root).close.declarations :=
    .of_outlines (map_outline_close _)
  rw [extract_eq]
  show List.Forall₂ _ _ ((walked ctx root).calls.map _)
  rw [hcalls]
  -- closing a file adds the module of a call only
  refine List.forall₂_map_right_iff.mpr (htold.imp fun r s htells => ?_)
  exact ⟨(htells.of_extends hclose).caller, htells.target, htells.line, htells.via, htells.guarded⟩

/-- Each call site has its recording, and each recording its call site. -/
theorem told_at (ctx : Context) (root : Node) (k : Nat) :
    (∃ r s, (fileRecordings ctx.settings ctx.maxDepth root)[k]? = some r ∧
      (extract ctx root).calls[k]? = some s ∧
        Tells (extract ctx root).declarations r s) ∨
      (fileRecordings ctx.settings ctx.maxDepth root)[k]? = none ∧
        (extract ctx root).calls[k]? = none := by
  obtain ⟨hlength, htold⟩ := List.forall₂_iff_get.mp (sites_told ctx root)
  by_cases hk : k < (fileRecordings ctx.settings ctx.maxDepth root).length
  · have hk' : k < (extract ctx root).calls.length := hlength ▸ hk
    exact .inl ⟨_, _, List.getElem?_eq_getElem hk, List.getElem?_eq_getElem hk', htold k hk hk'⟩
  · have hk' : ¬ k < (extract ctx root).calls.length := hlength ▸ hk
    exact .inr ⟨List.getElem?_eq_none (Nat.le_of_not_lt hk),
      List.getElem?_eq_none (Nat.le_of_not_lt hk')⟩

/-- Every site tells of the recording at its place. -/
theorem exists_recording_of_site {ctx : Context} {k : Nat} {s : CallSite}
    (h : (extract ctx root).calls[k]? = some s) :
    ∃ r, (fileRecordings ctx.settings ctx.maxDepth root)[k]? = some r ∧
      Tells (extract ctx root).declarations r s := by
  rcases told_at ctx root k with ⟨r, s', hr, hs', htells⟩ | ⟨-, hnone⟩
  · obtain rfl : s' = s := Option.some.inj (hs'.symm.trans h)
    exact ⟨r, hr, htells⟩
  · cases hnone.symm.trans h

/-- Every recording has its site at its place. -/
theorem exists_site_of_recording {ctx : Context} {k : Nat} {r : Recording}
    (h : (fileRecordings ctx.settings ctx.maxDepth root)[k]? = some r) :
    ∃ s, (extract ctx root).calls[k]? = some s ∧ Tells (extract ctx root).declarations r s := by
  rcases told_at ctx root k with ⟨r', s, hr', hs, htells⟩ | ⟨hnone, -⟩
  · obtain rfl : r' = r := Option.some.inj (hr'.symm.trans h)
    exact ⟨s, hs, htells⟩
  · cases hnone.symm.trans h

/-- Every recording is made in the visit of its node. -/
theorem exists_walked_of_recording {r : Recording} (h : r ∈ fileRecordings settings maxDepth root) :
    Walked settings maxDepth root r.node r.scope ∧
      OwnOf settings r.node r.scope (.record r.caller r.target r.node r.via r.scope) := by
  obtain ⟨e, he, hr⟩ := List.mem_filterMap.mp h
  cases e with
  | record caller target node via scope =>
    cases hr
    obtain ⟨c, scope', hwalked, hown⟩ := exists_walked_of_own_kind he (by simp) rfl
    have howned := ownOf_of_mem hown
    cases howned with
    | called howner hcall htarget => exact ⟨hwalked, .called howner hcall htarget⟩
    | wired howner => exact ⟨hwalked, .wired howner⟩
  | declare | mark | bring | exportNames | markup | refuse => cases hr

theorem OwnOf.owner_of_record {caller : Nat} {target : CallTarget} {via : CallVia}
    (h : OwnOf settings c scope (.record caller target c via scope)) :
    scope.owner = some caller := by
  cases h with
  | called howner | wired howner => exact howner

/-- A call that a walked node records is among the recordings of the file. -/
theorem Walked.recording_mem {caller : Nat} {target : CallTarget} {via : CallVia}
    (h : Walked settings maxDepth root c scope)
    (he : .record caller target c via scope ∈ ownEvents settings c scope) :
    ⟨caller, target, c, via, scope⟩ ∈ fileRecordings settings maxDepth root :=
  List.mem_filterMap.mpr ⟨_, h.own_mem he, rfl⟩

/-! ## Errors -/

/-- Without a mark the declarations stay as they are, or there is a new one that handles no errors
yet. -/
theorem declarations_run_of_not_mark (h : ∀ scope change, e ≠ .mark scope change) (path : String)
    (st : State) :
    ∃ ds, (e.run path st).declarations = st.declarations ++ ds ∧ ∀ d ∈ ds, d.errors = {} := by
  have hnone : ∀ st' : State, st'.declarations = st.declarations →
      ∃ ds, st'.declarations = st.declarations ++ ds ∧ ∀ d ∈ ds, d.errors = {} :=
    fun st' hsame => ⟨[], by rw [hsame, List.append_nil], by simp⟩
  cases e with
  | declare o => exact ⟨[_], rfl, fun d hd => by rw [List.mem_singleton.mp hd]⟩
  | mark scope change => exact absurd rfl (h scope change)
  | record caller target node via scope =>
    refine hnone (st.record caller target node via scope) ?_
    unfold State.record
    split <;> rfl
  | bring statement =>
    refine hnone (importRule statement st) ?_
    unfold importRule
    split <;> rfl
  | exportNames | markup | refuse => exact hnone _ rfl

/-- Declaration `i` has a `throw` that leaves its body. -/
def ThrowsAt (ds : List Declaration) (i : Nat) : Prop :=
  ∃ d, ds[i]? = some d ∧ d.errors.throws = true

/-- New declarations throw nothing yet. -/
theorem throwsAt_append_iff {ds ds' : List Declaration} (h : ∀ d ∈ ds', d.errors = {}) :
    ThrowsAt (ds ++ ds') i ↔ ThrowsAt ds i := by
  refine exists_congr fun d => and_congr_left fun hthrows => ?_
  constructor
  · intro hd
    rw [List.getElem?_append] at hd
    split at hd
    · exact hd
    · rw [h d (List.mem_of_getElem? hd)] at hthrows
      cases hthrows
  · intro hd
    rw [List.getElem?_append_left (List.getElem?_eq_some_iff.mp hd).1]
    exact hd

/-- A change that sets the mark for a `throw`, or leaves it alone. -/
def SetsThrows (change : ErrorHandling → ErrorHandling) : Prop :=
  ∀ e, (change e).throws = (e.throws || (change {}).throws)

/-- Marking one declaration as throwing changes that one only. -/
theorem throwsAt_modify_iff {ds : List Declaration} {j : Nat} (hj : j < ds.length)
    {change : ErrorHandling → ErrorHandling} (hsets : SetsThrows change) :
    ThrowsAt (ds.modify j fun d => { d with errors := change d.errors }) i ↔
      ThrowsAt ds i ∨ j = i ∧ (change {}).throws = true := by
  unfold ThrowsAt
  simp only [List.getElem?_modify]
  by_cases hij : j = i
  · subst hij
    simp [List.getElem?_eq_getElem hj, hsets ds[j].errors]
  · simp [hij]

/-- The event marks declaration `i` as one that throws. -/
def Event.MarksThrow (e : Event) (i : Nat) : Prop :=
  ∃ scope change, e = .mark scope change ∧ scope.owner = some i ∧ (change {}).throws = true

/-- After an event a declaration throws if it did before or the event marks it. -/
theorem throwsAt_run_iff (path : String)
    (hfounded : ∀ j, e.owner? = some j → j < st.declarations.length)
    (hsets : ∀ scope change, e = .mark scope change → SetsThrows change) :
    ThrowsAt (e.run path st).declarations i ↔ ThrowsAt st.declarations i ∨ e.MarksThrow i := by
  -- marking events change the flags, all others at most append fresh declarations
  by_cases hmark : ∃ scope change, e = .mark scope change
  · obtain ⟨scope, change, rfl⟩ := hmark
    have hmarks : Event.MarksThrow (.mark scope change) i ↔
        scope.owner = some i ∧ (change {}).throws = true := by
      constructor
      · rintro ⟨_, _, heq, howner, hthrows⟩
        cases heq
        exact ⟨howner, hthrows⟩
      · rintro ⟨howner, hthrows⟩
        exact ⟨scope, change, rfl, howner, hthrows⟩
    show ThrowsAt (st.markErrors scope change).declarations i ↔ _
    rw [hmarks]
    unfold State.markErrors
    cases howner : scope.owner with
    | none => simp
    | some j => simpa using throwsAt_modify_iff (hfounded j howner) (hsets scope change rfl)
  · obtain ⟨ds, hds, hnew⟩ :=
      declarations_run_of_not_mark (fun scope change he => hmark ⟨scope, change, he⟩) path st
    have hnot : ¬ e.MarksThrow i := fun ⟨scope, change, he, _⟩ => hmark ⟨scope, change, he⟩
    rw [hds, throwsAt_append_iff hnew]
    simp [hnot]

/-- **A declaration throws if it did before or a mark says so.** Induction on the events. -/
theorem throwsAt_replay_iff (path : String) (st : State)
    (hfounded : Founded st.declarations.length events)
    (hsets : ∀ scope change, .mark scope change ∈ events → SetsThrows change) :
    ThrowsAt (replay path events st).declarations i ↔
      ThrowsAt st.declarations i ∨ ∃ e ∈ events, e.MarksThrow i := by
  induction events generalizing st with
  | nil => simp [replay]
  | cons e events ih =>
    have htail := hfounded.tail
    rw [← length_run path] at htail
    have hrest :=
      ih (e.run path st) htail fun scope change hmem =>
        hsets scope change (List.mem_cons_of_mem e hmem)
    have hfirst := throwsAt_run_iff (i := i) path (fun j => hfounded.head)
      fun scope change he => hsets scope change (he ▸ List.mem_cons_self)
    show ThrowsAt (replay path events (e.run path st)).declarations i ↔ _
    rw [hrest, hfirst, or_assoc]
    simp

/-- Closing the state keeps the error flags. -/
theorem errors_close {d : Declaration} (st : State) (hd : st.close.declarations[i]? = some d) :
    ∃ d₀, st.declarations[i]? = some d₀ ∧ d₀.errors = d.errors := by
  simp only [State.close, List.getElem?_map, Option.map_map] at hd
  obtain ⟨d₀, hd₀, rfl⟩ := Option.map_eq_some_iff.mp hd
  refine ⟨d₀, hd₀, ?_⟩
  simp only [Function.comp_apply, State.exportNamed, State.exportMember]
  repeat' split
  all_goals rfl

/-- The marks of a file are set in visits. -/
theorem exists_walked_of_mark {change : ErrorHandling → ErrorHandling}
    (h : .mark scope change ∈ fileScript settings maxDepth root) :
    ∃ c, Walked settings maxDepth root c scope ∧ OwnOf settings c scope (.mark scope change) := by
  obtain ⟨c, scope', hwalked, hown⟩ := exists_walked_of_own_kind h (by simp) rfl
  have howned := ownOf_of_mem hown
  cases howned with
  | tried htry => exact ⟨c, hwalked, .tried htry⟩
  | caught => exact ⟨c, hwalked, .caught⟩
  | thrown hthrow hguarded => exact ⟨c, hwalked, .thrown hthrow hguarded⟩

/-- **A declaration throws if some `throw` of its own is walked where nothing guards it.** -/
theorem throws_iff (ctx : Context) (root : Node) {d : Declaration}
    (hd : (extract ctx root).declarations[i]? = some d) :
    d.errors.throws = true ↔ ∃ c scope, Walked ctx.settings ctx.maxDepth root c scope ∧
      Construct.of c.node = .throwStmt ∧ scope.owner = some i ∧ scope.guarded = false := by
  have hsets : ∀ scope change, .mark scope change ∈ fileScript ctx.settings ctx.maxDepth root →
      SetsThrows change := by
    intro scope change hmem
    obtain ⟨c, -, hown⟩ := exists_walked_of_mark hmem
    cases hown with
    | tried | caught | thrown => intro e; simp
  -- closing a file changes exports only
  obtain ⟨d₀, hd₀, herrors⟩ := errors_close (walked ctx root) hd
  have hthrows : d.errors.throws = true ↔ ThrowsAt (walked ctx root).declarations i := by
    simp [ThrowsAt, hd₀, herrors]
  rw [hthrows, walked_eq_replay,
    throwsAt_replay_iff ctx.path {} (founded_fileScript _ _ root) hsets]
  constructor
  · rintro (⟨d, hd, -⟩ | ⟨_, hmem, scope, change, rfl, howner, hchange⟩)
    · cases hd
    · obtain ⟨c, hwalked, hown⟩ := exists_walked_of_mark hmem
      cases hown with
      | tried | caught => cases hchange
      | thrown hthrow hguarded => exact ⟨c, scope, hwalked, hthrow, howner, hguarded⟩
  · rintro ⟨c, scope, hwalked, hthrow, howner, hguarded⟩
    refine .inr ⟨_, hwalked.own_mem ?_, scope, fun e => { e with throws := true }, rfl, howner, rfl⟩
    simp [ownEvents, hthrow, hguarded]

/-! ## Refusals -/

theorem depthLimited_run (path : String) (e : Event) (st : State) (h : st.depthLimited = true) :
    (e.run path st).depthLimited = true := by
  cases e with
  | mark scope change =>
    show (st.markErrors scope change).depthLimited = true
    unfold State.markErrors
    split <;> exact h
  | record caller target node via scope =>
    show (st.record caller target node via scope).depthLimited = true
    unfold State.record
    split <;> exact h
  | bring statement =>
    show (importRule statement st).depthLimited = true
    unfold importRule
    split <;> exact h
  | refuse node => rfl
  | declare | exportNames | markup => exact h

/-- The depth flag stays up. -/
theorem depthLimited_replay (path : String) (events : List Event) (st : State)
    (h : st.depthLimited = true) : (replay path events st).depthLimited = true := by
  induction events generalizing st with
  | nil => exact h
  | cons e events ih => exact ih _ (depthLimited_run path e st h)

/-- A refusal raises the depth flag for good. -/
theorem depthLimited_replay_of_mem (path : String) (st : State) (h : .refuse c ∈ events) :
    (replay path events st).depthLimited = true := by
  obtain ⟨before, after, rfl⟩ := List.append_of_mem h
  rw [replay_append]
  exact depthLimited_replay path after _ rfl

/-- **If the limit is not hit, every visit has a level left.** -/
theorem Visits.walked {ctx : Context} (hdepth : (extract ctx root).depthLimited = false)
    (h : Visits ctx.settings ctx.maxDepth root levels c scope n) :
    Walked ctx.settings ctx.maxDepth root c scope := by
  cases levels with
  | succ levels => exact ⟨levels, n, h⟩
  | zero =>
    -- without a level the node is refused, and no event takes that back
    have hrefuse : .refuse c ∈ fileScript ctx.settings ctx.maxDepth root :=
      h.occurs.subset List.mem_cons_self
    have hlimited : (walked ctx root).depthLimited = true := by
      rw [walked_eq_replay]
      exact depthLimited_replay_of_mem ctx.path {} hrefuse
    have hsame : (extract ctx root).depthLimited = (walked ctx root).depthLimited := rfl
    rw [hsame, hlimited] at hdepth
    cases hdepth

end CallAtlas.Extraction
