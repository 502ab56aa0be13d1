import CallAtlas.Proofs.WalkRoutes

/-!
# Proofs.CallCoverage — which calls inside of a declaration are recorded

A call such as `save(x)` is recorded when the walk comes to it. Most constructs are walked whole,
but some are walked in part: a declarator by its value, a class by its body, a client chain by its
arguments. A call elsewhere in them is lost, though it runs as any other.

* `Passes` — the places of each construct that are walked.
* `passes_iff` — they are where the turns of a visit lead.
* `bare_call_recorded_iff` — a call is recorded for the innermost declaration around it if every
  construct between passes it.
* `heritage_call_lost` — one that is not.
-/

namespace CallAtlas.Tree

/-- What has no name is punctuation, with nothing in it. -/
def Node.tokensBare (n : Node) : Bool := n.children.all fun m => m.isNamed || m.children.isEmpty

/-- What has a name or something in it lies in a named child, since nothing lies in punctuation. -/
theorem Cursor.exists_namedChild {p c : Cursor} (hp : p.node.tokensBare = true)
    (hc : c.node.isNamed = true ∨ c.node.children ≠ []) (h : c.Below p) :
    ∃ q ∈ p.namedChildren, c.Within q := by
  obtain ⟨q, hq, hwithin⟩ := below_iff_child.mp h
  refine ⟨q, List.mem_filter.mpr ⟨hq, ?_⟩, hwithin⟩
  obtain ⟨n, hn, rfl⟩ := List.mem_map.mp hq
  rcases Bool.or_eq_true_iff.mp (List.all_eq_true.mp hp n hn) with hnamed | hempty
  · exact hnamed
  · have hempty := List.isEmpty_iff.mp hempty
    rcases hwithin.eq_or_below with rfl | hbelow
    · exact hc.resolve_right (absurd hempty)
    · obtain ⟨x, hx, -⟩ := below_iff_child.mp hbelow
      simp [children, hempty] at hx

end CallAtlas.Tree

namespace CallAtlas.Extraction

open CallAtlas.Tree

/-! ## Where constructs are walked -/

/-- A visit of `p` in a scope goes on to the place of `c` below, if that is not in another
declaration. -/
def Passes (settings : ExtractionSettings) (p : Cursor) (scope : Scope) (c : Cursor) : Prop :=
  match Construct.of p.node with
  | .importStmt | .typeDecl | .skipped => False
  | .exportStmt =>
    (p.field? "source").isSome = false ∧
      match p.field? "declaration", p.field? "value" with
      | some declaration, _ => c.Within declaration
      | none, some value =>
        (unwrapped value).kind ≠ "identifier" ∧ functionValue? (unwrapped value) = none ∧
          c.Within (unwrapped value)
      | none, none => False
  | .classDecl => declaredName? p scope = none ∨ ∃ body, p.field? "body" = some body ∧ c.Below body
  | .fieldDecl =>
    (p.field? "name" <|> p.field? "property") = none ∨
      (p.field? "value").bind functionValue? = none ∨
      scope.classIndex = none
  | .variables =>
    ∃ d ∈ p.namedChildren, d.kind = "variable_declarator" ∧ ∃ value, d.field? "value" = some value ∧
      c.Within value ∧
      ((d.field? "name").filter (·.kind == "identifier") = none ∨ functionValue? value = none)
  | .callExpr =>
    ∀ target lists, CallShape.of settings p = .chain target lists → ∃ args ∈ lists, c.Below args
  | .tryStmt =>
    ∃ field ∈ ["body", "handler", "finalizer"], ∃ part, p.field? field = some part ∧ c.Below part
  | .functionDecl | .methodDecl | .branch | .element | .elementAttr | .throwStmt | .other => True

/-- Some turn leads to the node or above it. -/
def Covered (ts : List Turn) (c : Cursor) : Prop := ∃ t ∈ ts, t.Covers c

/-- The node is in no function that the turns declare. -/
def Outside (ts : List Turn) (c : Cursor) : Prop :=
  ∀ o f, .declare o ∈ ts → o.callable = some f → ¬ c.Within f

section Covered

variable {settings : ExtractionSettings} {root : Node} {c f p q x : Cursor} {scope s : Scope}
  {ts ts' : List Turn}

/-- Being covered by the turns of a place is lying within one of the nodes it leads to. -/
theorem covered_iff_target :
    Covered (turns settings p scope) c ↔ ∃ q ∈ targets settings p scope, c.Within q.1 := by
  constructor
  · rintro ⟨t, ht, q, hq, hc⟩
    exact ⟨q, List.mem_flatMap.mpr ⟨t, ht, hq⟩, hc⟩
  · rintro ⟨q, hq, hc⟩
    obtain ⟨t, ht, hq⟩ := List.mem_flatMap.mp hq
    exact ⟨t, ht, q, hq, hc⟩

theorem not_covered_nil : ¬ Covered [] c := by
  rintro ⟨t, ht, -⟩
  exact absurd ht List.not_mem_nil

theorem covered_singleton {t : Turn} : Covered [t] c ↔ t.Covers c := by
  simp only [Covered, List.mem_singleton, exists_eq_left]

/-- Two lists of turns cover together what either covers. -/
theorem covered_append : Covered (ts ++ ts') c ↔ Covered ts c ∨ Covered ts' c := by
  simp only [Covered, List.mem_append, or_and_right, exists_or]

theorem covered_flatMap {α : Type} {xs : List α} {g : α → List Turn} :
    Covered (xs.flatMap g) c ↔ ∃ a ∈ xs, Covered (g a) c := by
  simp only [Covered, List.mem_flatMap]
  constructor
  · rintro ⟨t, ⟨a, ha, ht⟩, hc⟩
    exact ⟨a, ha, t, ht, hc⟩
  · rintro ⟨a, ha, t, ht, hc⟩
    exact ⟨t, ⟨a, ha, ht⟩, hc⟩

theorem covered_visit : Covered [.visit q s] c ↔ c.Within q := by
  simp [covered_singleton, Turn.Covers, Turn.targets]

/-- A declared function leads to what is in it only. -/
theorem not_covered_callable {place : Cursor} {name : String} {kind : DeclarationKind}
    (hf : ¬ c.Within f) : ¬ Covered [.declare ⟨place, some f, name, kind, s⟩] c := by
  rw [covered_singleton]
  rintro ⟨p, hp, hc⟩
  obtain ⟨q, hq, rfl⟩ := List.mem_map.mp hp
  exact hf (hc.trans (Cursor.within_of_mem_namedChildren hq))

/-- An export covers its declaration; without one it covers its value, unless that is a name or a
function value, and a re-export covers nothing. -/
theorem covered_exportTurns (houtside : Outside (exportTurns p scope) c) :
    Covered (exportTurns p scope) c ↔
      (p.field? "source").isSome = false ∧
        match p.field? "declaration", p.field? "value" with
        | some declaration, _ => c.Within declaration
        | none, some value =>
          (unwrapped value).kind ≠ "identifier" ∧ functionValue? (unwrapped value) = none ∧
            c.Within (unwrapped value)
        | none, none => False := by
  unfold exportTurns at houtside ⊢
  cases hsource : (p.field? "source").isSome with
  | true => simp [not_covered_nil]
  | false =>
    cases hdeclaration : p.field? "declaration" with
    | some declaration => simp [covered_visit]
    | none =>
      cases hvalue : p.field? "value" with
      | none => simp [not_covered_nil]
      | some value =>
        by_cases hkind : (unwrapped value).kind = "identifier"
        · simp [hkind, not_covered_nil]
        · cases hf : functionValue? (unwrapped value) with
          | none => simp [hkind, hf, covered_visit]
          | some f =>
            -- a function value is a declaration of its own, and the node is outside of those
            simp only [hsource, hdeclaration, hvalue, hkind, hf, Bool.false_eq_true,
              if_false] at houtside
            have hnot : ¬ c.Within f := houtside _ f List.mem_cons_self rfl
            simp [hkind, hf, not_covered_callable hnot]

/-- A declarator covers its value, except for a function value that is declared under a plain name.
-/
theorem covered_declaratorTurns {d : Cursor} (houtside : Outside (declaratorTurns scope d) c) :
    Covered (declaratorTurns scope d) c ↔
      d.kind = "variable_declarator" ∧ ∃ value, d.field? "value" = some value ∧ c.Within value ∧
        ((d.field? "name").filter (·.kind == "identifier") = none ∨
          functionValue? value = none) := by
  unfold declaratorTurns at houtside ⊢
  by_cases hkind : d.kind = "variable_declarator"
  · cases hvalue : d.field? "value" with
    | none => simp [not_covered_nil]
    | some value =>
      cases hname : (d.field? "name").filter (·.kind == "identifier") with
      | none => simp [hkind, covered_visit]
      | some name =>
        cases hf : functionValue? value with
        | none => simp [hkind, hf, covered_visit]
        | some f =>
          -- the declared function is excluded by the assumption
          simp only [hkind, hvalue, hname, hf, if_true] at houtside
          have hnot : ¬ c.Within f := houtside _ f List.mem_cons_self rfl
          simp [hkind, hf, not_covered_callable hnot]
  · simp [hkind, not_covered_nil]

variable (htokens : root.everywhere Node.tokensBare = true) (hc : c.node.children ≠ [])

include htokens hc

/-- The named children of a node together cover everything with children below it. -/
theorem covered_childTurns (hx : x.Within ⟨root, []⟩) : Covered (childTurns x s) c ↔ c.Below x := by
  have hcovered : Covered (childTurns x s) c ↔ ∃ q ∈ x.namedChildren, c.Within q := by
    simp [Covered, childTurns, Turn.Covers, Turn.targets]
  rw [hcovered]
  constructor
  · rintro ⟨q, hq, hwithin⟩
    exact hwithin.trans_below (Cursor.below_of_mem_children
      (Cursor.mem_children_of_mem_namedChildren hq))
  · exact Cursor.exists_namedChild (hx.test htokens) (.inr hc)

/-- A part that is named by a field covers everything with children below it. -/
theorem covered_partTurns (hp : p.Within ⟨root, []⟩) {field : String} :
    Covered (partTurns p field s) c ↔ ∃ part, p.field? field = some part ∧ c.Below part := by
  unfold partTurns
  cases hpart : p.field? field with
  | none => simp [not_covered_nil]
  | some part =>
    rw [covered_childTurns htokens hc ((Cursor.within_of_field? hpart).trans hp)]
    simp

/-- A class covers what is below its body, and so nothing of its heritage. -/
theorem covered_class (hp : p.Within ⟨root, []⟩) {name : String} :
    Covered [.declare ⟨p, none, name, .classDecl, s⟩] c ↔
      ∃ body, p.field? "body" = some body ∧ c.Below body := by
  -- what is in a class are the children of its body, as with a part
  have hpart : Covered [.declare ⟨p, none, name, .classDecl, s⟩] c ↔
      Covered (partTurns p "body" s) c := by
    rw [covered_singleton]
    unfold partTurns
    cases hbody : p.field? "body" with
    | none => simp [Turn.Covers, Turn.targets, Origin.inner, hbody, not_covered_nil]
    | some body => simp [Turn.Covers, Turn.targets, Origin.inner, hbody, Covered, childTurns]
  rw [hpart, covered_partTurns htokens hc hp]

/-- A field covers all that is below it, unless it declares a method of the current class. -/
theorem covered_fieldTurns (hp : p.Within ⟨root, []⟩) (hbelow : c.Below p)
    (houtside : Outside (fieldTurns p scope) c) :
    Covered (fieldTurns p scope) c ↔
      (p.field? "name" <|> p.field? "property") = none ∨
        (p.field? "value").bind functionValue? = none ∨
        scope.classIndex = none := by
  have hchildren : Covered (childTurns p scope.plain) c :=
    (covered_childTurns htokens hc hp).mpr hbelow
  unfold fieldTurns at houtside ⊢
  cases hname : p.field? "name" <|> p.field? "property" with
  | none => simp [hchildren]
  | some name =>
    cases hf : (p.field? "value").bind functionValue? with
    | none => simp [hchildren]
    | some f =>
      cases hclass : scope.classIndex with
      | none => simp [hchildren]
      | some i =>
        -- here the field is a method, which the node is not in
        simp only [hname, hf, hclass, Option.isSome_some, if_true] at houtside
        have hnot : ¬ c.Within f := houtside _ f List.mem_cons_self rfl
        simp [not_covered_callable hnot]

/-- A call covers all that is below it; only a database chain restricts that, to its argument lists.
-/
theorem covered_callTurns (hp : p.Within ⟨root, []⟩) (hbelow : c.Below p)
    (howner : scope.owner.isSome = true) :
    Covered (callTurns settings p scope) c ↔
      ∀ target lists, CallShape.of settings p = .chain target lists →
        ∃ args ∈ lists, c.Below args := by
  have hchildren : Covered (childTurns p scope.plain) c :=
    (covered_childTurns htokens hc hp).mpr hbelow
  obtain ⟨i, hi⟩ := Option.isSome_iff_exists.mp howner
  unfold callTurns
  cases hshape : CallShape.of settings p with
  | plain | unrecorded => simp [hi, hchildren]
  | chain target lists =>
    -- a chain leads to its argument lists only
    have hlists : ∀ args ∈ lists, Covered (childTurns args scope.plain) c ↔
        c.Below args := fun args hargs =>
      covered_childTurns htokens hc ((CallShape.argumentLists_within hshape args hargs).trans hp)
    simp only [hi, covered_flatMap, CallShape.chain.injEq]
    constructor
    · rintro ⟨args, hargs, hcovered⟩ _ _ ⟨rfl, rfl⟩
      exact ⟨args, hargs, (hlists args hargs).mp hcovered⟩
    · intro h
      obtain ⟨args, hargs, hwithin⟩ := h target lists ⟨rfl, rfl⟩
      exact ⟨args, hargs, (hlists args hargs).mpr hwithin⟩

/-- **Where a visit goes on is where the construct passes.** -/
theorem passes_iff (hp : p.Within ⟨root, []⟩) (hbelow : c.Below p)
    (howner : scope.owner.isSome = true) (houtside : Outside (turns settings p scope) c) :
    Passes settings p scope c ↔ Covered (turns settings p scope) c := by
  have hchildren : ∀ s, Covered (childTurns p s) c := fun s =>
    (covered_childTurns htokens hc hp).mpr hbelow
  unfold Passes
  unfold turns at houtside ⊢
  cases hconstruct : Construct.of p.node with
  | importStmt | skipped => exact iff_of_false id not_covered_nil
  | exportStmt =>
    simp only [hconstruct] at houtside
    exact (covered_exportTurns houtside).symm
  | functionDecl =>
    simp only [hconstruct] at houtside
    cases hname : declaredName? p scope with
    | none => exact iff_of_true trivial (hchildren _)
    | some name =>
      -- the function is a declaration of its own, and the node is in it
      simp only [hname] at houtside
      exact absurd hbelow.within (houtside _ p List.mem_cons_self rfl)
  | methodDecl =>
    simp only [hconstruct] at houtside
    cases hname : p.field? "name" with
    | none => exact iff_of_true trivial (hchildren _)
    | some name =>
      by_cases hparent : p.parentKind? = some "class_body"
      · simp only [hname, hparent, if_true] at houtside
        exact absurd hbelow.within (houtside _ p List.mem_cons_self rfl)
      · simp only [hparent, if_false]
        exact iff_of_true trivial (hchildren _)
  | classDecl =>
    cases hname : declaredName? p scope with
    | none => exact iff_of_true (.inl rfl) (hchildren _)
    | some name => simp [covered_class htokens hc hp]
  | fieldDecl =>
    simp only [hconstruct] at houtside
    exact (covered_fieldTurns htokens hc hp hbelow houtside).symm
  | «variables» =>
    simp only [hconstruct] at houtside
    simp only [covered_flatMap]
    refine exists_congr fun d => and_congr_right fun hd => (covered_declaratorTurns ?_).symm
    exact fun o f ho => houtside o f (List.mem_flatMap.mpr ⟨d, hd, ho⟩)
  | typeDecl =>
    refine iff_of_false id ?_
    have htype : ∀ name, ¬ Covered [.declare ⟨p, none, name, .typeDecl, scope⟩] c := fun name => by
      simp [covered_singleton, Turn.Covers, Turn.targets, Origin.inner]
    cases p.field? "name" with
    | none => exact not_covered_nil
    | some name =>
      dsimp only
      split
      · exact htype name.text
      · exact not_covered_nil
  | callExpr => exact (covered_callTurns htokens hc hp hbelow howner).symm
  | tryStmt => simp [covered_append, covered_partTurns htokens hc hp]
  | branch | element | elementAttr | throwStmt | other => exact iff_of_true trivial (hchildren _)

end Covered

/-! ## Bare calls -/

/-- A call of a name, which is no request. -/
structure BareCall (settings : ExtractionSettings) (c : Cursor) (name : String) : Prop where
  call : Construct.of c.node = .callExpr
  callee : ∃ callee, c.field? "function" = some callee ∧ callee.kind = "identifier" ∧
    callee.text = name
  notRequest : name ≠ "fetch" ∧ name ∉ settings.httpClients
  notThis : name ≠ "this"

section BareCall

variable {settings : ExtractionSettings} {c : Cursor} {name : String}

theorem BareCall.kind (h : BareCall settings c name) : c.kind = "call_expression" :=
  kind_of_callExpr h.call

theorem BareCall.children (h : BareCall settings c name) : c.node.children ≠ [] := by
  obtain ⟨callee, hcallee, -⟩ := h.callee
  obtain ⟨n, hn, -⟩ := List.mem_map.mp (Cursor.mem_children_of_field? hcallee)
  exact List.ne_nil_of_mem hn

/-- A bare call is a chain of one call whose root is the called name. -/
theorem BareCall.read (h : BareCall settings c name) :
    ∃ callee, Chain.read c = ⟨callee, some c, []⟩ ∧ callee.kind = "identifier" ∧
      callee.text = name := by
  obtain ⟨callee, hcallee, hkind, htext⟩ := h.callee
  refine ⟨callee, ?_, hkind, htext⟩
  have hnode : c.node.kind = "call_expression" := h.kind
  have hidentifier : callee.node.kind = "identifier" := hkind
  have hnext : c.next? Chain.pick = some callee := by
    simp only [Cursor.next?, Chain.pick, hnode]
    exact hcallee
  have hspine : c.spine Chain.pick = [c, callee] := by
    rw [Cursor.spine_of_next? hnext, Cursor.spine_of_pick (by simp [Chain.pick, hidentifier])]
  simp [Chain.read, hspine, Chain.step, h.kind, hkind]

/-- A bare call is recorded as a call of its name. -/
theorem BareCall.shape (h : BareCall settings c name) :
    CallShape.of settings c = .plain (.plain name) := by
  obtain ⟨callee, hread, hkind, rfl⟩ := h.read
  obtain ⟨hfetch, hclient⟩ := h.notRequest
  simp [CallShape.of, hread, hkind, databaseTarget?, httpTarget?, namedTarget?, h.notThis,
    hfetch, hclient]

end BareCall

/-! ## The way to a call -/

section Way

variable {ctx : Context} {settings : ExtractionSettings} {maxDepth levels n i : Nat} {root : Node}
  {c f p : Cursor}
  {scope : Scope}

/-- The innermost function of a declaration around the node. -/
def Innermost (os : List Origin) (f c : Cursor) : Prop :=
  c.Below f ∧ ∀ j g, functionAt? os j = some g → c.Below g → f.Within g

/-- Inside of its innermost function a node is in none that is declared there. -/
theorem Visits.outside (h : Visits settings maxDepth root (levels + 1) p scope n)
    (hi : scope.owner = some i)
    (hf : functionAt? (origins (fileScript settings maxDepth root)) i = some f)
    (hinnermost : Innermost (origins (fileScript settings maxDepth root)) f c)
    (hkind : c.kind ∉ functionKinds) : Outside (turns settings p scope) c := by
  intro o g ho hg hwithin
  obtain ⟨j, hj⟩ := exists_comes (Turn.events (script settings levels)) ho n
  have hget : functionAt? (origins (fileScript settings maxDepth root)) j = some g := by
    rw [functionAt?, h.getElem?_origins hj]
    exact hg
  obtain ⟨f', hf', -, hpf⟩ := WalkedFor.below ⟨scope, ⟨levels, n, h⟩, hi⟩
  obtain rfl : f = f' := Option.some.inj (hf.symm.trans hf')
  cases turnOf_of_mem ho with
  | @callable place g' name kind scope' hgp hgkind =>
    obtain rfl : g' = g := Option.some.inj hg
    -- a function around the node is not below the innermost one
    rcases hwithin.eq_or_below with rfl | hbelow
    · exact hkind hgkind
    · have hfg := hinnermost.2 j g' hget hbelow
      exact Cursor.not_below_self f (hfg.trans_below (hgp.trans_below hpf))
  | classBody hclass => cases hg
  | type => cases hg

/-- Where a turn leads for the same declaration, the visit is one of it too. -/
theorem Visits.exists_visit_of_covered (h : Visits settings maxDepth root (levels + 1) p scope n)
    (hi : scope.owner = some i) (houtside : Outside (turns settings p scope) c)
    (hcovered : Covered (turns settings p scope) c) :
    ∃ q scope' m, Visits settings maxDepth root levels q scope' m ∧ scope'.owner = some i ∧
      c.Within q ∧ q.Below p := by
  obtain ⟨⟨q, s⟩, hq, hwithin⟩ := covered_iff_target.mp hcovered
  have hbelow : q.Below p := below_of_mem_targets hq
  rcases exists_turn_of_mem_targets hq with ⟨scope', ht, -⟩ | ⟨o, ho, hqo, -⟩
  · obtain ⟨m, hm⟩ := exists_comes (Turn.events (script settings levels)) ht n
    exact ⟨q, scope', m, .turn h hm, (turnOf_of_mem ht).owner_of_visit.trans hi, hwithin, hbelow⟩
  · obtain ⟨j, hj⟩ := exists_comes (Turn.events (script settings levels)) ho n
    obtain ⟨m, hm⟩ := exists_comes (fun q => script settings levels q (o.innerScope j)) hqo (j + 1)
    refine ⟨q, o.innerScope j, m, .inside h hj hm, ?_, hwithin, hbelow⟩
    cases turnOf_of_mem ho with
    | @callable place g name kind scope' hgp hgkind =>
      -- only here the owner would be another
      exact absurd (hwithin.trans (Cursor.within_of_mem_namedChildren hqo)) (houtside _ g ho rfl)
    | classBody hclass => exact hi
    | type => exact absurd hqo List.not_mem_nil

/-- The walk of a function starts with a visit above the node. -/
theorem exists_visit_of_function (htokens : root.everywhere Node.tokensBare = true)
    (hc : c.node.children ≠ [])
    (hf : functionAt? (origins (fileScript settings maxDepth root)) i = some f)
    (hbelow : c.Below f) :
    ∃ levels q scope n, Visits settings maxDepth root levels q scope n ∧ scope.owner = some i ∧
      c.Within q := by
  obtain ⟨o, ho, hof⟩ := Option.bind_eq_some_iff.mp hf
  obtain ⟨levels, p, scope, n, hvisit, hcomes⟩ := exists_visit_of_getElem?_origins ho
  cases turnOf_of_mem hcomes.mem with
  | @callable place g name kind scope' hgp hgkind =>
    obtain rfl : g = f := Option.some.inj hof
    have hroot := hgp.trans hvisit.reached.below_root.within
    obtain ⟨q, hq, hwithin⟩ := Cursor.exists_namedChild (hroot.test htokens) (.inr hc) hbelow
    obtain ⟨m, hm⟩ := exists_comes
      (fun q => script settings levels q
        ((⟨place, some g, name, kind, scope'⟩ : Origin).innerScope i)) hq (i + 1)
    exact ⟨levels, q, _, m, .inside hvisit hcomes hm, rfl, hwithin⟩
  | classBody hclass => cases hof
  | type => cases hof

/-- **What every construct on the way passes is visited.** Induction on the depth that is left. -/
theorem walkedFor_of_passes (htokens : root.everywhere Node.tokensBare = true)
    (hdepth : (extract ctx root).depthLimited = false) (hc : c.node.children ≠ [])
    (hkind : c.kind ∉ functionKinds)
    (hf : functionAt? (origins (fileScript ctx.settings ctx.maxDepth root)) i = some f)
    (hinnermost : Innermost (origins (fileScript ctx.settings ctx.maxDepth root)) f c)
    (hpasses : ∀ p scope, Walked ctx.settings ctx.maxDepth root p scope → scope.owner = some i →
      c.Below p → Passes ctx.settings p scope c)
    (h : Visits ctx.settings ctx.maxDepth root levels p scope n) (hi : scope.owner = some i)
    (hcp : c.Within p) : WalkedFor ctx.settings ctx.maxDepth root i c := by
  obtain ⟨levels', n', hvisit⟩ := h.walked hdepth
  -- by the distance that is left between the visited place and the call
  induction hk : c.depth - p.depth using Nat.strongRecOn generalizing levels n levels' n' p scope
    with
  | ind k ih =>
    rcases hcp.eq_or_below with rfl | hbelow
    · exact ⟨scope, ⟨levels', n', hvisit⟩, hi⟩
    · -- the place lets the call through, so one of the places it leads to contains it
      have houtside := hvisit.outside hi hf hinnermost hkind
      have howner : scope.owner.isSome = true := Option.isSome_of_eq_some hi
      have hcovered :=
        (passes_iff htokens hc hvisit.reached.below_root.within hbelow howner houtside).mp
        (hpasses p scope ⟨levels', n', hvisit⟩ hi hbelow)
      obtain ⟨q, scope', m, hq, hi', hcq, hqp⟩ :=
        hvisit.exists_visit_of_covered hi houtside hcovered
      obtain ⟨levels'', n'', hq'⟩ := hq.walked hdepth
      have hlt := hqp.depth_lt
      have hle := hcq.depth_le
      exact ih (c.depth - q.depth) (by omega) hq hi' hcq levels'' n'' hq' rfl

end Way

/-- **A call of a name is recorded for the innermost declaration around it if every construct on the
way passes it.** It has then a call site of its own, with that name, without a receiver, on its
line. Else it has none. -/
theorem bare_call_recorded_iff (ctx : Context) (root : Node) (i : Nat) (d : Declaration)
    (f c : Cursor) (name : String) (hfields : root.everywhere Node.fieldsApart = true)
    (htokens : root.everywhere Node.tokensBare = true)
    (hdepth : (extract ctx root).depthLimited = false)
    (hd : (extract ctx root).declarations[i]? = some d)
    (hf : functionAt? (origins (fileScript ctx.settings ctx.maxDepth root)) i = some f)
    (hcall : BareCall ctx.settings c name)
    (hinnermost : Innermost (origins (fileScript ctx.settings ctx.maxDepth root)) f c) :
    (∃ (k : Nat) (r : Recording) (site : CallSite),
      (fileRecordings ctx.settings ctx.maxDepth root)[k]? = some r ∧
        (extract ctx root).calls[k]? = some site ∧ r.node = c ∧ r.caller = i ∧
          site.callerId = d.id ∧
        site.target = .plain name ∧ site.line = c.line) ↔
      ∀ p scope, Walked ctx.settings ctx.maxDepth root p scope → scope.owner = some i → c.Below p →
        Passes ctx.settings p scope c := by
  have hkind : c.kind ∉ functionKinds := by
    rw [hcall.kind]
    decide
  constructor
  · rintro ⟨k, r, site, hr, -, rfl, rfl, -⟩ p scope ⟨levels, n, hvisit⟩ hi hbelow
    obtain ⟨hwalked, -⟩ := exists_walked_of_recording (List.mem_of_getElem? hr)
    have houtside := hvisit.outside hi hf hinnermost hkind
    refine (passes_iff htokens hcall.children hvisit.reached.below_root.within hbelow
      (Option.isSome_of_eq_some hi)
      houtside).mpr ?_
    -- the walk came from `p` to the call, so its first step led there
    rcases (leads_of_reached hfields hvisit.reached hwalked.reached hbelow.within).eq_or_first
      with heq | ⟨q, hq, hrest⟩
    · exact absurd ((Prod.mk.inj heq).1 ▸ hbelow) (Cursor.not_below_self _)
    · rw [targets_erase] at hq
      exact covered_iff_target.mpr ⟨q, hq, hrest.within⟩
  · intro hpasses
    obtain ⟨levels, q, scope, n, hvisit, hi, hcq⟩ :=
      exists_visit_of_function htokens hcall.children hf hinnermost.1
    obtain ⟨scope', hwalked, hi'⟩ :=
      walkedFor_of_passes htokens hdepth hcall.children hkind hf hinnermost hpasses hvisit hi hcq
    have hown : .record i (.plain name) c .direct scope' ∈ ownEvents ctx.settings c scope' := by
      simp [ownEvents, hcall.call, callEvents, hi', hcall.shape, CallShape.target?, recordEvents]
    obtain ⟨k, hk⟩ := List.mem_iff_getElem?.mp (hwalked.recording_mem hown)
    obtain ⟨site, hsite, htells⟩ := exists_site_of_recording hk
    obtain ⟨d', hd', hid⟩ := htells.caller
    obtain rfl : d = d' := Option.some.inj (hd.symm.trans hd')
    exact ⟨k, _, site, hk, hsite, rfl, rfl, hid, htells.target, htells.line⟩

/-! A function with a class in it, whose head calls for the class to extend, and with a call behind.
-/

def callNode (name : String) (fields : List String) : Node :=
  .mk { kind := "call_expression", fields }
    [.mk { kind := "identifier", text := name, fields := ["function"] } [],
      .mk { kind := "arguments", fields := ["arguments"] } []]

def extendsNode : Node := .mk { kind := "extends_clause" } [callNode "base" ["value"]]

def heritageNode : Node := .mk { kind := "class_heritage" } [extendsNode]

def classNode : Node :=
  .mk { kind := "class_declaration" }
    [.mk { kind := "type_identifier", text := "A", fields := ["name"] } [], heritageNode,
      .mk { kind := "class_body", fields := ["body"] } []]

def makeBody : Node :=
  .mk { kind := "statement_block", fields := ["body"] } [classNode, callNode "done" []]

def makeNode : Node :=
  .mk { kind := "function_declaration" }
    [.mk { kind := "identifier", text := "make", fields := ["name"] } [], makeBody]

def heritageTree : Node := .mk { kind := "program" } [makeNode]

def makeFunction : Cursor := ⟨makeNode, [heritageTree]⟩

def heritageCall : Cursor :=
  ⟨callNode "base" ["value"],
    [extendsNode, heritageNode, classNode, makeBody, makeNode, heritageTree]⟩

def doneCall : Cursor := ⟨callNode "done" [], [makeBody, makeNode, heritageTree]⟩

theorem functionAt?_heritageTree :
    functionAt? (origins (fileScript {} 400 heritageTree)) 0 = some makeFunction := by rfl

/-- The class has no function of its own, so there is one around both calls. -/
theorem innermost_heritageTree {c : Cursor} (hc : c.Below makeFunction) :
    Innermost (origins (fileScript {} 400 heritageTree)) makeFunction c := by
  refine ⟨hc, fun j g hg _ => ?_⟩
  match j with
  | 0 =>
    obtain rfl : makeFunction = g := Option.some.inj (functionAt?_heritageTree.symm.trans hg)
    exact .refl makeFunction
  | 1 =>
    have hclass : functionAt? (origins (fileScript {} 400 heritageTree)) 1 = none := by rfl
    cases hclass.symm.trans hg
  | j + 2 =>
    have hlength : (origins (fileScript {} 400 heritageTree)).length = 2 := by rfl
    have hnone : (origins (fileScript {} 400 heritageTree))[j + 2]? = none :=
      List.getElem?_eq_none (by rw [hlength]; omega)
    rw [functionAt?, hnone] at hg
    cases hg

/-- Both calls of the sample lie below the function. -/
theorem below_heritageTree : heritageCall.Below makeFunction ∧ doneCall.Below makeFunction := by
  have hstep : ∀ {n : Node} {p : Cursor}, n ∈ p.node.children →
      Cursor.Below ⟨n, p.node :: p.above⟩ p :=
    fun hn => Cursor.below_of_mem_children (List.mem_map_of_mem hn)
  have hbody : Cursor.Below ⟨makeBody, [makeNode, heritageTree]⟩ makeFunction :=
    hstep (.tail _ (.head _))
  have hclass : Cursor.Below ⟨classNode, [makeBody, makeNode, heritageTree]⟩ makeFunction :=
    (hstep (.head _)).trans hbody
  have hheritage : Cursor.Below ⟨heritageNode,
      [classNode, makeBody, makeNode, heritageTree]⟩ makeFunction :=
    (hstep (.tail _ (.head _))).trans hclass
  have hextends :
      Cursor.Below ⟨extendsNode,
        [heritageNode, classNode, makeBody, makeNode, heritageTree]⟩ makeFunction :=
    (hstep (.head _)).trans hheritage
  exact ⟨(hstep (.head _)).trans hextends, (hstep (.tail _ (.head _))).trans hbody⟩

theorem bareCall_callNode {name : String} {fields : List String} {above : List Node}
    (hrequest : name ≠ "fetch" ∧ name ∉ ({} : ExtractionSettings).httpClients)
    (hthis : name ≠ "this") : BareCall {} ⟨callNode name fields, above⟩ name :=
  ⟨rfl, ⟨_, rfl, rfl, rfl⟩, hrequest, hthis⟩

/-- The call behind the class is recorded, and so every construct passes it. The one in the head of
the class is not, so some construct does not pass it: it is the class. -/
theorem bare_call_recorded_iff_heritage :
    heritageTree.everywhere Node.fieldsApart = true ∧
      heritageTree.everywhere Node.tokensBare = true ∧
      (extract ⟨"a.ts", {}, 400⟩ heritageTree).depthLimited = false ∧ BareCall {} doneCall "done" ∧
      Innermost (origins (fileScript {} 400 heritageTree)) makeFunction doneCall ∧
      (∀ p scope, Walked {} 400 heritageTree p scope → scope.owner = some 0 → doneCall.Below p →
        Passes {} p scope doneCall) ∧
      ¬ ∀ p scope, Walked {} 400 heritageTree p scope → scope.owner = some 0 →
        heritageCall.Below p → Passes {} p scope heritageCall := by
  have hfields : heritageTree.everywhere Node.fieldsApart = true := by decide
  have htokens : heritageTree.everywhere Node.tokensBare = true := by decide
  have hdepth : (extract ⟨"a.ts", {}, 400⟩ heritageTree).depthLimited = false := by decide
  have hdone : BareCall {} doneCall "done" := bareCall_callNode (by decide) (by decide)
  have hbase : BareCall {} heritageCall "base" := bareCall_callNode (by decide) (by decide)
  have hinnerDone := innermost_heritageTree below_heritageTree.2
  have hinnerBase := innermost_heritageTree below_heritageTree.1
  have hr : (fileRecordings {} 400 heritageTree)[0]?
      = some ⟨0, .plain "done", doneCall, .direct, { owner := some 0 }⟩ := by rfl
  obtain ⟨site, hsite, htells⟩ := @exists_site_of_recording heritageTree ⟨"a.ts", {}, 400⟩ 0 _ hr
  obtain ⟨d, hd, hid⟩ := htells.caller
  refine ⟨hfields, htokens, hdepth, hdone, hinnerDone, ?_, fun hpasses => ?_⟩
  · exact (bare_call_recorded_iff ⟨"a.ts", {}, 400⟩ heritageTree 0 d makeFunction doneCall "done"
      hfields htokens hdepth hd functionAt?_heritageTree hdone hinnerDone).mp
      ⟨0, _, site, hr, hsite, rfl, rfl, hid, htells.target, htells.line⟩
  · -- the one recorded target is not the call in the heritage
    obtain ⟨k, r, site', -, hsite', -, -, -, htarget, -⟩ :=
      (bare_call_recorded_iff ⟨"a.ts", {}, 400⟩ heritageTree 0 d makeFunction heritageCall "base"
        hfields htokens hdepth hd functionAt?_heritageTree hbase hinnerBase).mpr hpasses
    have hcalls : (extract ⟨"a.ts", {}, 400⟩ heritageTree).calls.map (·.target)
        = [.plain "done"] := by decide
    have hmem : site'.target ∈ (extract ⟨"a.ts", {}, 400⟩ heritageTree).calls.map (·.target) :=
      List.mem_map_of_mem (List.mem_of_getElem? hsite')
    rw [hcalls, List.mem_singleton, htarget] at hmem
    exact absurd hmem (by decide)

/-- A call in the head of a class is not recorded, though the tree is in order and the call is
inside of a function. -/
theorem heritage_call_lost :
    heritageTree.everywhere (fun n => !n.isBroken) = true ∧
      heritageTree.everywhere Node.fieldsApart = true ∧
      heritageTree.everywhere Node.tokensBare = true ∧
      (extract ⟨"a.ts", {}, 400⟩ heritageTree).depthLimited = false ∧
      functionAt? (origins (fileScript {} 400 heritageTree)) 0 = some makeFunction ∧
      BareCall {} heritageCall "base" ∧
      Innermost (origins (fileScript {} 400 heritageTree)) makeFunction heritageCall ∧
      (extract ⟨"a.ts", {}, 400⟩ heritageTree).calls.map (·.target) = [.plain "done"] := by
  refine ⟨by decide, by decide, by decide, by decide, functionAt?_heritageTree, ?_, ?_, by decide⟩
  · exact bareCall_callNode (by decide) (by decide)
  · exact innermost_heritageTree below_heritageTree.1

end CallAtlas.Extraction
