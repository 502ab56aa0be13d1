import CallAtlas.Proofs.WalkVisits

/-!
# Proofs.WalkRoutes — one route to each node

Two targets of a visit have nothing in common, so what is below one of them is reached through that
one only. Hence there is one route to each node that is visited, and of two visited nodes, one
within the other, the route to the lower one leads through the upper one.

Numbers of declarations do not matter for that. `Scope.erase` leaves them out: what is left of a
scope is what decides where the walk goes.

* `targets`, `targets_erase` — where a visit leads, whatever the numbers are.
* `targets_apart` — two targets have nothing in common, if fields are apart.
* `Leads`, `leads_of_reached` — the route between two nodes that are reached.
-/

namespace CallAtlas.Extraction

open CallAtlas.Tree

/-! ## Scopes without numbers -/

/-- A scope with the numbers of declarations left out. -/
def Scope.erase (s : Scope) : Scope :=
  { s with owner := s.owner.map fun _ => 0, classIndex := s.classIndex.map fun _ => 0 }

@[simp] theorem Scope.erase_erase (s : Scope) : s.erase.erase = s.erase := by
  simp [erase, Function.comp_def]

@[simp] theorem Scope.plain_erase (s : Scope) : s.erase.plain = s.plain.erase := rfl

@[simp] theorem Scope.isSome_owner_erase (s : Scope) : s.erase.owner.isSome = s.owner.isSome :=
  Option.isSome_map

@[simp] theorem Scope.isNone_owner_erase (s : Scope) : s.erase.owner.isNone = s.owner.isNone :=
  Option.isNone_map

@[simp] theorem Scope.isSome_classIndex_erase (s : Scope) :
    s.erase.classIndex.isSome = s.classIndex.isSome :=
  Option.isSome_map

/-- The scope of members depends on the index of the class only through erased parts. -/
@[simp] theorem memberScope_erase (s : Scope) (i j : Nat) :
    (memberScope s.erase i).erase = (memberScope s j).erase := by
  simp [memberScope, Scope.erase, Function.comp_def]

/-- Erased, the scope inside a declaration does not depend on its index. -/
theorem Origin.innerScope_erase (o : Origin) (i : Nat) :
    (o.innerScope i).erase = (o.innerScope 0).erase := by
  unfold innerScope
  split <;> rfl

/-! ## Targets -/

/-- The nodes that a turn leads to, with what is left of their scopes. -/
def Turn.targets : Turn → List (Cursor × Scope)
  | visit c scope => [(c, scope.erase)]
  | declare o => o.inner.map (·, (o.innerScope 0).erase)

/-- A target of the turn is at the node or above it. -/
def Turn.Covers (t : Turn) (x : Cursor) : Prop := ∃ p ∈ t.targets, x.Within p.1

/-- The nodes that a visit leads to. -/
def targets (settings : ExtractionSettings) (c : Cursor) (scope : Scope) : List (Cursor × Scope) :=
  (turns settings c scope).flatMap Turn.targets

section Targets

variable {settings : ExtractionSettings} {c q : Cursor} {scope scope' s : Scope} {o : Origin}

/-- A visiting turn leads to its node. -/
theorem mem_targets_of_visit (h : .visit q scope' ∈ turns settings c scope) :
    (q, scope'.erase) ∈ targets settings c scope :=
  List.mem_flatMap.mpr ⟨_, h, List.mem_singleton_self _⟩

/-- A declaring turn leads to the nodes inside the declaration. -/
theorem mem_targets_of_inner (h : .declare o ∈ turns settings c scope)
    (hq : q ∈ o.inner) (i : Nat) : (q, (o.innerScope i).erase) ∈ targets settings c scope := by
  rw [o.innerScope_erase i]
  exact List.mem_flatMap.mpr ⟨_, h, List.mem_map_of_mem hq⟩

/-- A target comes of a visit or of what is inside of a declaration. -/
theorem exists_turn_of_mem_targets (h : (q, s) ∈ targets settings c scope) :
    (∃ scope', .visit q scope' ∈ turns settings c scope ∧ s = scope'.erase) ∨
      ∃ o, .declare o ∈ turns settings c scope ∧ q ∈ o.inner ∧ s = (o.innerScope 0).erase := by
  obtain ⟨t, ht, hq⟩ := List.mem_flatMap.mp h
  cases t with
  | visit c' scope' =>
    obtain ⟨rfl, rfl⟩ := Prod.mk.inj (List.mem_singleton.mp hq)
    exact .inl ⟨scope', ht, rfl⟩
  | declare o =>
    obtain ⟨q', hq', heq⟩ := List.mem_map.mp hq
    obtain ⟨rfl, rfl⟩ := Prod.mk.inj heq
    exact .inr ⟨o, ht, hq', rfl⟩

/-- A node leads only to nodes below it. -/
theorem below_of_mem_targets (h : (q, s) ∈ targets settings c scope) : q.Below c := by
  rcases exists_turn_of_mem_targets h with ⟨scope', ht, -⟩ | ⟨o, ho, hq, -⟩
  · exact (turnOf_of_mem ht).below_of_visit
  · exact (turnOf_of_mem ho).below_of_inner hq

/-! ### Numbers do not matter -/

/-- The turns into the children lead to the named children. -/
theorem targets_childTurns (c : Cursor) (scope : Scope) :
    (childTurns c scope).flatMap Turn.targets = c.namedChildren.map (·, scope.erase) := by
  unfold childTurns
  rw [List.flatMap_map, List.map_eq_flatMap]
  rfl

theorem targets_childTurns_plain (c : Cursor) (scope : Scope) :
    (childTurns c scope.plain).flatMap Turn.targets
      = (childTurns c scope.erase.plain).flatMap Turn.targets := by
  simp only [targets_childTurns, Scope.plain_erase, Scope.erase_erase]

theorem targets_partTurns (c : Cursor) (field : String) (scope : Scope) :
    (partTurns c field scope).flatMap Turn.targets
      = (partTurns c field scope.erase).flatMap Turn.targets := by
  unfold partTurns
  cases c.field? field with
  | none => rfl
  | some part => simp only [targets_childTurns, Scope.erase_erase]

/-- A declaration leads to the same nodes under the erased scope. -/
theorem targets_declare {place : Cursor} {callable : Option Cursor} {name : String}
    {kind : DeclarationKind} (scope : Scope) :
    (Turn.declare ⟨place, callable, name, kind, scope⟩).targets
      = (Turn.declare ⟨place, callable, name, kind, scope.erase⟩).targets := by
  cases callable with
  | some f => rfl
  | none =>
    simp only [Turn.targets, Origin.innerScope, memberScope_erase scope 0 0]
    rfl

/-- An export leads to the same nodes under the erased scope. -/
theorem targets_exportTurns (c : Cursor) (scope : Scope) :
    (exportTurns c scope).flatMap Turn.targets
      = (exportTurns c scope.erase).flatMap Turn.targets := by
  unfold exportTurns
  split
  · rfl
  · dsimp only
    cases c.field? "declaration" with
    | some declaration => simp [Turn.targets, Scope.erase, Function.comp_def]
    | none =>
      cases c.field? "value" with
      | none => rfl
      | some value =>
        dsimp only
        split
        · rfl
        · cases functionValue? (unwrapped value) with
          | some f => rfl
          | none => simp [Turn.targets]

theorem targets_declaratorTurns (scope : Scope) (c : Cursor) :
    (declaratorTurns scope c).flatMap Turn.targets
      = (declaratorTurns scope.erase c).flatMap Turn.targets := by
  unfold declaratorTurns
  split
  · cases c.field? "value" with
    | none => rfl
    | some value =>
      dsimp only
      cases (c.field? "name").filter (·.kind == "identifier") with
      | none => simp [Turn.targets]
      | some name =>
        cases functionValue? value with
        | none => simp [Turn.targets]
        | some f => rfl
  · rfl

theorem targets_fieldTurns (c : Cursor) (scope : Scope) :
    (fieldTurns c scope).flatMap Turn.targets
      = (fieldTurns c scope.erase).flatMap Turn.targets := by
  have hchildren := targets_childTurns_plain c scope
  unfold fieldTurns
  cases c.field? "name" <|> c.field? "property" with
  | none => exact hchildren
  | some name =>
    cases (c.field? "value").bind functionValue? with
    | none => exact hchildren
    | some f =>
      simp only [Scope.isSome_classIndex_erase]
      split
      · rfl
      · exact hchildren

/-- A call leads to the same nodes under the erased scope, which remembers whether there is an
owner. -/
theorem targets_callTurns (settings : ExtractionSettings) (c : Cursor) (scope : Scope) :
    (callTurns settings c scope).flatMap Turn.targets
      = (callTurns settings c scope.erase).flatMap Turn.targets := by
  unfold callTurns
  -- the turns only ask whether there is an owner
  cases howner : scope.owner with
  | none =>
    have herased : scope.erase.owner = none := by simp [Scope.erase, howner]
    simp only [herased]
    exact targets_childTurns_plain c scope
  | some i =>
    have herased : scope.erase.owner = some 0 := by simp [Scope.erase, howner]
    simp only [herased]
    cases CallShape.of settings c with
    | chain target lists =>
      simp only [List.flatMap_assoc]
      exact congrArg (List.flatMap · lists) (funext fun args => targets_childTurns_plain args scope)
    | plain | unrecorded => exact targets_childTurns_plain c scope

/-- **Where a visit leads does not depend on the numbers of declarations.** -/
theorem targets_erase (settings : ExtractionSettings) (c : Cursor) (scope : Scope) :
    targets settings c scope.erase = targets settings c scope := by
  have hname : declaredName? c scope.erase = declaredName? c scope := rfl
  have hchildren := targets_childTurns_plain c scope
  have hdeclare : ∀ {callable name kind},
      [Turn.declare ⟨c, callable, name, kind, scope⟩].flatMap Turn.targets
        = [Turn.declare ⟨c, callable, name, kind, scope.erase⟩].flatMap Turn.targets := by
    intro callable name kind
    simp only [List.flatMap_cons, List.flatMap_nil, targets_declare scope]
  symm
  unfold targets turns
  cases Construct.of c.node with
  | importStmt | skipped => rfl
  | exportStmt => exact targets_exportTurns c scope
  | functionDecl =>
    simp only [hname]
    cases declaredName? c scope with
    | some name => exact hdeclare
    | none => exact hchildren
  | classDecl =>
    simp only [hname]
    cases declaredName? c scope with
    | some name => exact hdeclare
    | none => exact hchildren
  | methodDecl =>
    cases c.field? "name" with
    | none => exact hchildren
    | some name =>
      dsimp only
      split
      · exact hdeclare
      · exact hchildren
  | fieldDecl => exact targets_fieldTurns c scope
  | «variables» =>
    simp only [List.flatMap_assoc]
    exact congrArg (List.flatMap · c.namedChildren) (funext (targets_declaratorTurns scope))
  | typeDecl =>
    cases c.field? "name" with
    | none => rfl
    | some name =>
      -- the test asks whether there is an owner, not for its number
      simp only [Scope.isNone_owner_erase]
      show (if (scope.exported && scope.owner.isNone) = true then
        _ else _ : List Turn).flatMap Turn.targets
        = (if (scope.exported && scope.owner.isNone) = true then
          _ else _ : List Turn).flatMap Turn.targets
      split
      · exact hdeclare
      · rfl
  | callExpr => exact targets_callTurns settings c scope
  | branch =>
    simp only [targets_childTurns]
    simp [Scope.erase, Scope.plain, Function.comp_def]
  | tryStmt =>
    simp only [List.flatMap_append]
    rw [targets_partTurns c "body", targets_partTurns c "handler", targets_partTurns c "finalizer"]
    rfl
  | element | elementAttr | throwStmt | other => exact hchildren

/-! ### Forms of turns -/

/-- Whatever the construct is, the turns of a node have one of a few forms. -/
inductive TurnsForm (c : Cursor) (scope : Scope) : List Turn → Prop where
  | none : TurnsForm c scope []
  | one (t : Turn) : TurnsForm c scope [t]
  | children (s : Scope) : TurnsForm c scope (childTurns c s)
  | declarators : TurnsForm c scope (c.namedChildren.flatMap (declaratorTurns scope))
  | arguments (s : Scope) :
      TurnsForm c scope ((Chain.read c).argumentLists.flatMap (childTurns · s))
  | parts (scopeOf : String → Scope) :
      TurnsForm c scope (["body", "handler",
        "finalizer"].flatMap fun field => partTurns c field (scopeOf field))

/-- The turns of every construct have one of the forms. -/
theorem turnsForm (settings : ExtractionSettings) (c : Cursor) (scope : Scope) :
    TurnsForm c scope (turns settings c scope) := by
  unfold turns
  -- one form for each construct: nothing, one turn, the children, or a list of parts
  cases Construct.of c.node with
  | importStmt | skipped => exact .none
  | exportStmt =>
    dsimp only [exportTurns]
    split
    · exact .none
    · split
      · exact .one _
      · split
        · exact .none
        · split <;> exact .one _
      · exact .none
  | functionDecl =>
    dsimp only
    split
    · exact .one _
    · exact .children _
  | classDecl =>
    dsimp only
    split
    · exact .one _
    · exact .children _
  | methodDecl =>
    dsimp only
    split
    · split
      · exact .one _
      · exact .children _
    · exact .children _
  | fieldDecl =>
    dsimp only [fieldTurns]
    split
    · split
      · exact .one _
      · exact .children _
    · exact .children _
  | «variables» => exact .declarators
  | typeDecl =>
    dsimp only
    split
    · split
      · exact .one _
      · exact .none
    · exact .none
  | callExpr =>
    dsimp only [callTurns]
    split
    · next target lists _ hshape =>
      rw [CallShape.argumentLists_eq hshape]
      exact .arguments _
    · exact .children _
  | tryStmt =>
    have hparts : TurnsForm c scope _ := .parts fun field =>
      if field = "body" then
        { scope.plain with guarded := scope.guarded || (c.field? "handler").isSome }
      else scope.plain
    simpa using hparts
  | branch | element | elementAttr | throwStmt | other => exact .children _

/-! ### Two targets have nothing in common -/

/-- Two of the nodes that have something in common are the same, in one scope. -/
def Apart (ps : List (Cursor × Scope)) : Prop :=
  ∀ ⦃q q' x : Cursor⦄ ⦃s s' : Scope⦄, (q, s) ∈ ps → (q', s') ∈ ps → x.Within q → x.Within q' →
    q = q' ∧ s = s'

theorem apart_nil : Apart [] := fun _ _ _ _ _ h => absurd h List.not_mem_nil

theorem apart_singleton (p : Cursor × Scope) : Apart [p] := by
  intro q q' x s s' h h' _ _
  exact Prod.mk.inj ((List.mem_singleton.mp h).trans (List.mem_singleton.mp h').symm)

/-- The children of a node lie apart. -/
theorem apart_children (p : Cursor) (s : Scope) : Apart (p.namedChildren.map (·, s)) := by
  intro q q' x t t' h h' hx hx'
  obtain ⟨a, ha, heq⟩ := List.mem_map.mp h
  obtain ⟨a', ha', heq'⟩ := List.mem_map.mp h'
  cases heq
  cases heq'
  exact ⟨Cursor.eq_of_common_children (Cursor.mem_children_of_mem_namedChildren ha)
    (Cursor.mem_children_of_mem_namedChildren ha') hx hx', rfl⟩

/-- Several lists are apart if two that have something in common are the same, and each of them is
apart. -/
theorem apart_flatMap {α : Type} {xs : List α} {f : α → List (Cursor × Scope)}
    (hsame : ∀ a ∈ xs, ∀ b ∈ xs, ∀ p ∈ f a, ∀ p' ∈ f b, ∀ x : Cursor, x.Within p.1 →
      x.Within p'.1 → a = b)
    (heach : ∀ a ∈ xs, Apart (f a)) : Apart (xs.flatMap f) := by
  intro q q' x s s' h h' hx hx'
  obtain ⟨a, ha, hq⟩ := List.mem_flatMap.mp h
  obtain ⟨b, hb, hq'⟩ := List.mem_flatMap.mp h'
  obtain rfl := hsame a ha b hb _ hq _ hq' x hx hx'
  exact heach a ha hq hq' hx hx'

/-- Inside a declaration are the named children of one node, or nothing. -/
theorem Origin.inner_eq (o : Origin) : o.inner = [] ∨ ∃ p : Cursor, o.inner = p.namedChildren := by
  unfold inner
  split
  · exact .inr ⟨_, rfl⟩
  · split
    · exact .inr ⟨_, rfl⟩
    · exact .inl rfl
  · exact .inl rfl

/-- One turn leads to nodes that lie apart. -/
theorem apart_turn (t : Turn) : Apart ([t].flatMap Turn.targets) := by
  rw [List.flatMap_singleton]
  cases t with
  | visit c scope => exact apart_singleton _
  | declare o =>
    show Apart (o.inner.map _)
    rcases o.inner_eq with hnil | ⟨p, hp⟩
    · rw [hnil]
      exact apart_nil
    · rw [hp]
      exact apart_children p _

theorem apart_childTurns (c : Cursor) (scope : Scope) :
    Apart ((childTurns c scope).flatMap Turn.targets) := by
  rw [targets_childTurns]
  exact apart_children c _

theorem declaratorTurns_eq (scope : Scope) (c : Cursor) :
    declaratorTurns scope c = [] ∨ ∃ t, declaratorTurns scope c = [t] := by
  unfold declaratorTurns
  split
  · split
    · exact .inl rfl
    · split <;> exact .inr ⟨_, rfl⟩
  · exact .inl rfl

theorem apart_declaratorTurns (scope : Scope) (c : Cursor) :
    Apart ((declaratorTurns scope c).flatMap Turn.targets) := by
  rcases declaratorTurns_eq scope c with h | ⟨t, h⟩
  · rw [h]
    exact apart_nil
  · rw [h]
    exact apart_turn t

/-- A declarator leads into itself. -/
theorem within_of_mem_declaratorTurns {p : Cursor × Scope}
    (h : p ∈ (declaratorTurns scope c).flatMap Turn.targets) : p.1.Within c := by
  unfold declaratorTurns at h
  split at h
  · split at h
    · exact absurd h List.not_mem_nil
    · next value hvalue =>
      have hwithin := Cursor.within_of_field? hvalue
      split at h
      · next name f _ hf =>
        rw [List.flatMap_singleton] at h
        obtain ⟨q, hq, rfl⟩ := List.mem_map.mp h
        exact (Cursor.within_of_mem_namedChildren hq).trans
          ((functionValue?_within hf).trans hwithin)
      · rw [List.flatMap_singleton] at h
        rw [List.mem_singleton.mp h]
        exact hwithin
  · exact absurd h List.not_mem_nil

/-- Two declarators that lead to a common place are one. -/
theorem declarator_eq_of_common {a b x : Cursor} {p p' : Cursor × Scope} (ha : a ∈ c.namedChildren)
    (hb : b ∈ c.namedChildren) (hp : p ∈ (declaratorTurns scope a).flatMap Turn.targets)
    (hp' : p' ∈ (declaratorTurns scope b).flatMap Turn.targets) (hx : x.Within p.1)
    (hx' : x.Within p'.1) : a = b :=
  Cursor.eq_of_common_children (Cursor.mem_children_of_mem_namedChildren ha)
    (Cursor.mem_children_of_mem_namedChildren hb) (hx.trans (within_of_mem_declaratorTurns hp))
    (hx'.trans (within_of_mem_declaratorTurns hp'))

/-- A part leads to its named children. -/
theorem exists_part_of_mem_targets {field : String} {p : Cursor × Scope}
    (h : p ∈ (partTurns c field scope).flatMap Turn.targets) :
    ∃ part, c.field? field = some part ∧ p.1 ∈ part.namedChildren := by
  unfold partTurns at h
  split at h
  · next part hpart =>
    rw [targets_childTurns] at h
    obtain ⟨q, hq, rfl⟩ := List.mem_map.mp h
    exact ⟨part, hpart, hq⟩
  · exact absurd h List.not_mem_nil

theorem apart_partTurns (c : Cursor) (field : String) (scope : Scope) :
    Apart ((partTurns c field scope).flatMap Turn.targets) := by
  unfold partTurns
  split
  · exact apart_childTurns _ scope
  · exact apart_nil

/-- Two parts that lead to a common place are one, as fields lie apart. -/
theorem part_eq_of_common {f g : String} {x : Cursor} {p p' : Cursor × Scope}
    (hfields : c.node.fieldsApart = true) (hp : p ∈ (partTurns c f scope).flatMap Turn.targets)
    (hp' : p' ∈ (partTurns c g scope').flatMap Turn.targets) (hx : x.Within p.1)
    (hx' : x.Within p'.1) : f = g := by
  obtain ⟨part, hpart, hq⟩ := exists_part_of_mem_targets hp
  obtain ⟨part', hpart', hq'⟩ := exists_part_of_mem_targets hp'
  obtain rfl : part = part' :=
    Cursor.eq_of_common_children (Cursor.mem_children_of_field? hpart)
      (Cursor.mem_children_of_field? hpart')
      (hx.trans (Cursor.within_of_mem_namedChildren hq))
        (hx'.trans (Cursor.within_of_mem_namedChildren hq'))
  exact Cursor.field_eq_of_apart hfields hpart hpart'

theorem function_of_next? {call : Cursor} (hkind : call.kind = "call_expression")
    (h : call.next? Chain.pick = some q) : call.field? "function" = some q := by
  have hpick : Chain.pick call.node = some (.field "function") := by
    have hkind : call.node.kind = "call_expression" := hkind
    simp [Chain.pick, hkind]
  rw [Cursor.next?, hpick] at h
  exact h

/-- What lies further down on the spine of a call has nothing in common with its arguments. -/
theorem not_within_arguments {call lower args x : Cursor} (hfields : call.node.fieldsApart = true)
    (hkind : call.kind = "call_expression") (hargs : call.field? "arguments" = some args)
    (hlower : lower.Picked Chain.pick call) (hne : lower ≠ call)
    (hx : x.Within args) : ¬ x.Within lower := by
  intro hxlower
  obtain ⟨callee, hcallee, hwithin⟩ := hlower.eq_or_next.resolve_left hne
  have hcallee := function_of_next? hkind hcallee
  obtain rfl : args = callee := Cursor.eq_of_common_children (Cursor.mem_children_of_field? hargs)
    (Cursor.mem_children_of_field? hcallee) hx (hxlower.trans hwithin)
  exact absurd (Cursor.field_eq_of_apart hfields hargs hcallee) (by decide)

/-- Two argument lists of a chain that have a common place are one. -/
theorem eq_of_common_arguments {call lower args args' x : Cursor}
    (hfields : call.node.fieldsApart = true) (hkind : call.kind = "call_expression")
    (hargs : call.field? "arguments" = some args) (hlower : lower.Picked Chain.pick call)
    (hargs' : lower.field? "arguments" = some args') (hx : x.Within args)
    (hx' : x.Within args') : args = args' := by
  by_cases heq : lower = call
  · subst heq
    exact Option.some.inj (hargs.symm.trans hargs')
  · -- a lower call of the chain lies in the callee, apart from the arguments
    have hxlower := hx'.trans (Cursor.within_of_field? hargs')
    exact absurd hxlower (not_within_arguments hfields hkind hargs hlower heq hx)

/-- **Two argument lists of a chain have nothing in common.** -/
theorem argumentLists_apart {call a b x : Cursor}
    (hfields : call.node.everywhere Node.fieldsApart = true)
    (ha : a ∈ (Chain.read call).argumentLists) (hb : b ∈ (Chain.read call).argumentLists)
    (hxa : x.Within a) (hxb : x.Within b) : a = b := by
  obtain ⟨p, hp, hkindp, hpa⟩ := exists_call_of_mem_argumentLists ha
  obtain ⟨q, hq, hkindq, hqb⟩ := exists_call_of_mem_argumentLists hb
  have hp := Cursor.picked_of_mem_spine hp
  have hq := Cursor.picked_of_mem_spine hq
  rcases Cursor.picked_total hp hq with hlower | hlower
  · exact eq_of_common_arguments (hp.within.test hfields) hkindp hpa hlower hqb hxa hxb
  · exact (eq_of_common_arguments (hq.within.test hfields) hkindq hqb hlower hpa hxb hxa).symm

/-- Two argument lists that lead to a common place are one. -/
theorem argumentList_eq_of_common {a b x : Cursor} {p p' : Cursor × Scope}
    (hfields : c.node.everywhere Node.fieldsApart = true) (ha : a ∈ (Chain.read c).argumentLists)
    (hb : b ∈ (Chain.read c).argumentLists) (hp : p ∈ (childTurns a s).flatMap Turn.targets)
    (hp' : p' ∈ (childTurns b s).flatMap Turn.targets) (hx : x.Within p.1)
    (hx' : x.Within p'.1) : a = b := by
  rw [targets_childTurns] at hp hp'
  obtain ⟨q, hq, rfl⟩ := List.mem_map.mp hp
  obtain ⟨q', hq', rfl⟩ := List.mem_map.mp hp'
  exact argumentLists_apart hfields ha hb (hx.trans (Cursor.within_of_mem_namedChildren hq))
    (hx'.trans (Cursor.within_of_mem_namedChildren hq'))

/-- **Two targets of a visit have nothing in common.** -/
theorem targets_apart (hfields : c.node.everywhere Node.fieldsApart = true) :
    Apart (targets settings c scope) := by
  -- the form alone tells the targets apart, whatever the construct is
  have hform := turnsForm settings c scope
  unfold targets
  generalize turns settings c scope = ts at hform
  cases hform with
  | none => exact apart_nil
  | one t => exact apart_turn t
  | children s => exact apart_childTurns c s
  | declarators =>
    rw [List.flatMap_assoc]
    exact apart_flatMap (fun a ha b hb p hp p' hp' x hx hx' =>
      declarator_eq_of_common ha hb hp hp' hx hx')
      fun a _ => apart_declaratorTurns scope a
  | arguments s =>
    rw [List.flatMap_assoc]
    exact apart_flatMap (fun a ha b hb p hp p' hp' x hx hx' =>
      argumentList_eq_of_common hfields ha hb hp hp' hx hx')
      fun a _ => apart_childTurns a s
  | parts scopeOf =>
    have hfields := (Node.everywhere_iff.mp hfields).1
    rw [List.flatMap_assoc]
    exact apart_flatMap (fun f _ g _ p hp p' hp' x hx hx' =>
      part_eq_of_common hfields hp hp' hx hx')
      fun f _ => apart_partTurns c f _

end Targets

/-! ## Routes -/

section Routes

variable (settings : ExtractionSettings) (root : Node)

/-- Turns lead to the node, if the levels suffice. -/
inductive Reached : Cursor → Scope → Prop where
  | top {c : Cursor} (hc : c ∈ (Cursor.mk root []).namedChildren) : Reached c {}
  | next {c q : Cursor} {s t : Scope} (h : Reached c s)
      (hq : (q, t) ∈ targets settings c s) : Reached q t

/-- Some turns lead from one node to another. -/
def Leads (a b : Cursor × Scope) : Prop :=
  Relation.ReflTransGen (fun p q => q ∈ targets settings p.1 p.2) a b

end Routes

variable {settings : ExtractionSettings} {maxDepth levels n : Nat} {root : Node} {c p q : Cursor}
  {scope s t : Scope}

/-- What the walk visits is reached. -/
theorem Visits.reached (h : Visits settings maxDepth root levels c scope n) :
    Reached settings root c scope.erase := by
  induction h with
  | top hc => exact .top hc.mem
  | @turn levels n m c q scope scope' _ hq ih =>
    have hq := mem_targets_of_visit hq.mem
    rw [← targets_erase] at hq
    exact .next ih hq
  | @inside levels n i m c q scope o _ ho hq ih =>
    have hq := mem_targets_of_inner ho.mem hq.mem i
    rw [← targets_erase] at hq
    exact .next ih hq

theorem Walked.reached (h : Walked settings maxDepth root c scope) :
    Reached settings root c scope.erase := by
  obtain ⟨levels, n, hvisit⟩ := h
  exact hvisit.reached

/-- What is reached is below the root. -/
theorem Reached.below_root (h : Reached settings root c s) : c.Below ⟨root, []⟩ := by
  induction h with
  | top hc => exact Cursor.below_of_mem_children (Cursor.mem_children_of_mem_namedChildren hc)
  | next _ hq ih => exact (below_of_mem_targets hq).trans ih

/-- The children of the root are reached from nowhere else. -/
theorem Reached.scope_of_child (h : Reached settings root c s)
    (hc : c ∈ (Cursor.mk root []).children) : s = {} := by
  cases h with
  | top _ => rfl
  | next hp hstep =>
    have hdepth := Cursor.depth_of_mem_children hc
    have hlower := (below_of_mem_targets hstep).depth_lt
    have hupper := hp.below_root.depth_lt
    omega

/-- What a place leads to lies within it. -/
theorem Leads.within {a b : Cursor × Scope} (h : Leads settings a b) : b.1.Within a.1 := by
  induction h with
  | refl => exact .refl _
  | tail _ hstep ih => exact (below_of_mem_targets hstep).within.trans ih

/-- A route to something else has a first step. -/
theorem Leads.eq_or_first {a b : Cursor × Scope} (h : Leads settings a b) :
    a = b ∨ ∃ q ∈ targets settings a.1 a.2, Leads settings q b :=
  Relation.ReflTransGen.cases_head h

/-- No route leads back. -/
theorem Leads.scope_eq (h : Leads settings (c, s) (c, t)) : s = t := by
  rcases h.eq_or_first with heq | ⟨q, hq, hrest⟩
  · exact (Prod.mk.inj heq).2
  · exact absurd (hrest.within.trans_below (below_of_mem_targets hq)) (Cursor.not_below_self c)

section Unique

variable (hfields : root.everywhere Node.fieldsApart = true)

include hfields

/-- From a place that is reached, the ways go apart. -/
theorem Reached.apart (h : Reached settings root c s) : Apart (targets settings c s) :=
  targets_apart (h.below_root.within.everywhere hfields)

/-- No node that is reached stands between a node and its target, where routes to it are known. -/
theorem Reached.within_of_below_target (hc : Reached settings root c s)
    (hq : (q, t) ∈ targets settings c s) (hroute : p.Within c → Leads settings (c, s) (p, scope))
    (hqp : q.Below p) : c.Within p := by
  rcases Cursor.within_total (below_of_mem_targets hq).within hqp.within with h | h
  · exact h
  · rcases (hroute h).eq_or_first with heq | ⟨⟨first, u⟩, hfirst, hrest⟩
    · rw [(Prod.mk.inj heq).1]
      exact .refl p
    · -- the first step of the route has `q` below it, so it is `q`
      have hsame := (hc.apart hfields hq hfirst (.refl q) (hqp.within.trans hrest.within)).1
      rw [← hsame] at hrest
      exact absurd (hrest.within.trans_below hqp) (Cursor.not_below_self p)

/-- **Of two nodes that are reached, one within the other, the upper one leads to the lower one.**
Induction on the depth of the lower one: its own last step comes from a node that the upper one
leads to. -/
theorem leads_of_reached (hp : Reached settings root p s) (hq : Reached settings root q t)
    (h : q.Within p) : Leads settings (p, s) (q, t) := by
  induction hdepth : q.depth using Nat.strongRecOn generalizing p q s t with
  | ind d ih =>
    subst hdepth
    rcases h.eq_or_below with rfl | hbelow
    · cases hq with
      | top hq =>
        rw [hp.scope_of_child (Cursor.mem_children_of_mem_namedChildren hq)]
        exact .refl
      | @next c _ u _ hc hstep =>
        cases hp with
        | top hp =>
          rw [(Reached.next hc hstep).scope_of_child (Cursor.mem_children_of_mem_namedChildren hp)]
          exact .refl
        | @next c' _ u' _ hc' hstep' =>
          -- two last steps to one node come from one node
          have hlt := (below_of_mem_targets hstep).depth_lt
          have hlt' := (below_of_mem_targets hstep').depth_lt
          have hwithin : c.Within c' := hc.within_of_below_target hfields hstep
            (fun h => ih _ hlt' hc hc' h rfl) (below_of_mem_targets hstep')
          have hwithin' : c'.Within c := hc'.within_of_below_target hfields hstep'
            (fun h => ih _ hlt hc' hc h rfl) (below_of_mem_targets hstep)
          obtain rfl := hwithin.antisymm hwithin'
          obtain rfl := (ih _ hlt hc' hc (.refl c) rfl).scope_eq
          rw [(hc.apart hfields hstep hstep' (.refl q) (.refl q)).2]
          exact .refl
    · cases hq with
      | top hq =>
        -- above a child of the root there is the root only
        have hdepth := Cursor.depth_of_mem_children (Cursor.mem_children_of_mem_namedChildren hq)
        have hlower := hbelow.depth_lt
        have hupper := hp.below_root.depth_lt
        omega
      | @next c _ u _ hc hstep =>
        have hwithin : c.Within p := hc.within_of_below_target hfields hstep
          (fun h => ih _ hbelow.depth_lt hc hp h rfl) hbelow
        exact .tail (ih _ (below_of_mem_targets hstep).depth_lt hp hc hwithin rfl) hstep

/-- **A node is reached in one scope.** -/
theorem Reached.unique (h : Reached settings root c s) (h' : Reached settings root c t) : s = t :=
  (leads_of_reached hfields h h' (.refl c)).scope_eq

end Unique

end CallAtlas.Extraction
