import CallAtlas.Proofs.TreeDescent

/-!
# Proofs.ExtractionMoves — a walk makes four kinds of moves

Whatever the tree looks like, the rules of the walk touch declarations and calls in a few ways only.
`Move` lists them, and `walk_moves` says once for all rules that a walk is a sequence of moves. What
every move keeps then holds of every extraction, and no rule has to be looked at again.

A declaration is made in a scope, and the scope is not just any. Its owner is a declaration whose
place holds the new one, and its class is a class. `Fits` says so, and it is the other half of what
has to be known of each rule: a scope that fits a node is handed on to nodes below, where it fits
too, and later moves do not change what it depends on.

* `outline` — what stays of a declaration; `Extends` — declarations are added behind those that are
  there.
* `Fits` — a scope belongs to a node.
* `walk_moves` — in a scope that fits, every walk comes down to moves.
* `walked_induction` — so what every move keeps holds of all that is walked.
-/

namespace CallAtlas.Extraction

open CallAtlas.Tree

/-! ## Outlines -/

/-- A declaration apart from what may change after it is made. -/
def outline (d : Declaration) : Declaration := { d with exported := false, errors := {} }

@[simp] theorem outline_id (d : Declaration) : (outline d).id = d.id := rfl

@[simp] theorem outline_name (d : Declaration) : (outline d).name = d.name := rfl

@[simp] theorem outline_kind (d : Declaration) : (outline d).kind = d.kind := rfl

@[simp] theorem outline_span (d : Declaration) : (outline d).span = d.span := rfl

@[simp] theorem outline_filePath (d : Declaration) : (outline d).filePath = d.filePath := rfl

@[simp] theorem outline_container (d : Declaration) : (outline d).container = d.container := rfl

@[simp] theorem outline_enclosing (d : Declaration) : (outline d).enclosing = d.enclosing := rfl

/-- Changing one declaration within its outline leaves all outlines alone. -/
theorem map_outline_modify {f : Declaration → Declaration} (h : ∀ d, outline (f d) = outline d)
    (i : Nat) (ds : List Declaration) : (ds.modify i f).map outline = ds.map outline := by
  refine List.ext_getElem? fun j => ?_
  rw [List.getElem?_map, List.getElem?_map, List.getElem?_modify]
  cases ds[j]? with
  | none => rfl
  | some d => by_cases hj : i = j <;> simp [hj, h]

/-- The second list has the declarations of the first one, under the same numbers, and maybe
more. -/
def Extends (ds ds' : List Declaration) : Prop := ds.map outline <+: ds'.map outline

theorem Extends.of_outlines {ds ds' : List Declaration}
    (h : ds'.map outline = ds.map outline) : Extends ds ds' :=
  ⟨[], by rw [List.append_nil, h]⟩

/-- An extension keeps every declaration at its index, up to what an outline leaves out. -/
theorem Extends.getElem? {ds ds' : List Declaration} (h : Extends ds ds') {i : Nat}
    {d : Declaration} (hd : ds[i]? = some d) :
    ∃ d', ds'[i]? = some d' ∧ outline d' = outline d := by
  obtain ⟨rest, hrest⟩ := h
  have hi : i < (ds.map outline).length := by
    rw [List.length_map]
    exact (List.getElem?_eq_some_iff.mp hd).1
  have hsome : (ds'.map outline)[i]? = some (outline d) := by
    rw [← hrest, List.getElem?_append_left hi, List.getElem?_map, hd, Option.map_some]
  rw [List.getElem?_map] at hsome
  exact Option.map_eq_some_iff.mp hsome

/-! ## Scopes -/

variable {root c c' : Cursor} {ds ds' : List Declaration} {scope scope' : Scope}

/-- A scope belongs to a node of the tree: the node lies in the place of the owner, and the class is
one. -/
structure Fits (root : Cursor) (ds : List Declaration) (scope : Scope) (c : Cursor) : Prop where
  within : c.Within root
  owner : ∀ i, scope.owner = some i →
    ∃ d place, ds[i]? = some d ∧ d.span = place.span ∧ place.Within root ∧ c.Within place
  inClass : ∀ i, scope.classIndex = some i → ∃ d, ds[i]? = some d ∧ d.kind = .classDecl

namespace Fits

/-- It depends on the owner and the class only. -/
theorem of_eq (h : Fits root ds scope c) (howner : scope'.owner = scope.owner)
    (hclass : scope'.classIndex = scope.classIndex) : Fits root ds scope' c where
  within := h.within
  owner i hi := h.owner i (howner ▸ hi)
  inClass i hi := h.inClass i (hclass ▸ hi)

theorem plain (h : Fits root ds scope c) : Fits root ds scope.plain c := h.of_eq rfl rfl

/-- A scope can be handed down. -/
theorem down (h : Fits root ds scope c) (hc : c'.Within c) : Fits root ds scope c' where
  within := hc.trans h.within
  owner i hi := by
    obtain ⟨d, place, hd, hspan, hplace, hin⟩ := h.owner i hi
    exact ⟨d, place, hd, hspan, hplace, hc.trans hin⟩
  inClass := h.inClass

/-- More declarations do not matter. -/
theorem later (h : Fits root ds scope c) (hext : Extends ds ds') : Fits root ds' scope c where
  within := h.within
  owner i hi := by
    obtain ⟨d, place, hd, hspan, hplace, hin⟩ := h.owner i hi
    obtain ⟨d', hd', hsame⟩ := hext.getElem? hd
    have hspan' : d'.span = d.span := by simpa using congrArg Declaration.span hsame
    exact ⟨d', place, hd', hspan'.trans hspan, hplace, hin⟩
  inClass i hi := by
    obtain ⟨d, hd, hkind⟩ := h.inClass i hi
    obtain ⟨d', hd', hsame⟩ := hext.getElem? hd
    have hkind' : d'.kind = d.kind := by simpa using congrArg Declaration.kind hsame
    exact ⟨d', hd', hkind'.trans hkind⟩

end Fits

/-! ## Moves -/

/-- What a rule does to the declarations and the calls. -/
inductive Move (path : String) (root : Cursor) : State → State → Prop where
  | declare {place : Cursor} {scope : Scope} {st : State}
      (fits : Fits root st.declarations scope place)
      (callable : Option Cursor) (name : String) (kind : DeclarationKind) :
      Move path root st (st.declare path place callable name kind scope)
  | mark (scope : Scope) (mark : ErrorHandling → ErrorHandling) (st : State) :
      Move path root st (st.markErrors scope mark)
  | record (caller : Nat) (target : CallTarget) (node : Cursor) (via : CallVia) (scope : Scope)
      (st : State) :
      Move path root st (st.record caller target node via scope)
  | aside {st st' : State} (hdeclarations : st'.declarations = st.declarations)
      (hcalls : st'.calls = st.calls) :
      Move path root st st'

abbrev Moves (path : String) (root : Cursor) : State → State → Prop :=
  Relation.ReflTransGen (Move path root)

variable {path : String} {st st' : State}

/-- **A new declaration.** Its lines are those of its place, and its id starts with the path. The
rest comes from the scope, whose numbers are looked up among the earlier declarations. -/
theorem exists_declare (path : String) (place : Cursor) (callable : Option Cursor) (name : String)
    (kind : DeclarationKind) (scope : Scope) (st : State) :
    ∃ d, (st.declare path place callable name kind scope).declarations = st.declarations ++ [d] ∧
      d.name = name ∧ d.kind = kind ∧ d.span = place.span ∧
        d.exported = (scope.exported && scope.owner.isNone) ∧
      d.container = (scope.classIndex.bind (st.declarations[·]?)).map (·.name) ∧
      d.enclosing = (scope.owner.bind (st.declarations[·]?)).map (·.id) ∧ d.filePath = path ∧
      ∃ rest, d.id = freshId (st.declarations.map (·.id)) (path ++ ":" ++ rest) place.line := by
  refine ⟨_, rfl, rfl, rfl, rfl, rfl, rfl, rfl, rfl, ?_⟩
  -- the class of a member comes before its name
  cases (scope.classIndex.bind (st.declarations[·]?)).map (·.name) with
  | none => exact ⟨name, rfl⟩
  | some c => exact ⟨c ++ "." ++ name, by simp only [String.append_assoc]⟩

/-- Marking errors leaves the outlines alone. -/
theorem map_outline_markErrors (scope : Scope) (mark : ErrorHandling → ErrorHandling) (st : State) :
    (st.markErrors scope mark).declarations.map outline = st.declarations.map outline := by
  unfold State.markErrors
  split
  · rfl
  · exact map_outline_modify (f := fun d => { d with errors := mark d.errors }) (fun _ => rfl) _ _

/-- The declarations stay as they are, but for the errors that one of them handles, or one more is
added. -/
theorem Move.extends (h : Move path root st st') : Extends st.declarations st'.declarations := by
  cases h with
  | @declare place scope _ fits callable name kind =>
    obtain ⟨d, hds, -⟩ := exists_declare path place callable name kind scope st
    rw [Extends, hds, List.map_append]
    exact List.prefix_append _ _
  | mark scope mark =>
    exact .of_outlines (map_outline_markErrors scope mark st)
  | record caller target node via scope =>
    unfold State.record
    split <;> exact .of_outlines rfl
  | aside hdeclarations hcalls =>
    exact .of_outlines (congrArg (List.map outline) hdeclarations)

/-- A sequence of moves only extends the declarations. -/
theorem Moves.extends (h : Moves path root st st') : Extends st.declarations st'.declarations := by
  induction h with
  | refl => exact .of_outlines rfl
  | tail _ last ih => exact ih.trans last.extends

/-- In a scope that fits, walking a node comes down to moves. -/
def Steady (path : String) (root : Cursor) (walker : Walker) : Prop :=
  ∀ c scope st, Fits root st.declarations scope c → Moves path root st (walker c scope st)

/-! ## Rules -/

section Rules

variable {ctx : Context} {walker : Walker}

/-- Nodes that a scope fits are walked in order. Induction on the nodes: the moves for one leave the
scope fitting for the rest. -/
theorem foldl_moves {f : State → Cursor → State}
    (h : ∀ st c, Fits root st.declarations scope c → Moves path root st (f st c))
    {nodes : List Cursor} (hfits : ∀ c ∈ nodes, Fits root st.declarations scope c) :
    Moves path root st (nodes.foldl f st) := by
  induction nodes generalizing st with
  | nil => exact .refl
  | cons c rest ih =>
    have hfirst : Moves path root st (f st c) := h st c (hfits c List.mem_cons_self)
    refine hfirst.trans (ih fun c' hc' => ?_)
    exact (hfits c' (List.mem_cons_of_mem c hc')).later hfirst.extends

theorem walkChildren_moves (hw : Steady path root walker)
    (hfits : Fits root st.declarations scope c) :
    Moves path root st (walkChildren walker c scope st) :=
  foldl_moves (fun st c => hw c scope st) fun _ hc =>
    hfits.down (Cursor.within_of_mem_namedChildren hc)

/-- Declaring a function is one move, and its children then fit under it. -/
theorem declareCallable_moves (hw : Steady ctx.path root walker) {place callable : Cursor}
    (hfits : Fits root st.declarations scope place) (hcallable : callable.Within place)
    (name : String) (kind : DeclarationKind) :
    Moves ctx.path root st (declareCallable ctx walker place callable name kind scope st) := by
  have hdeclared : Move ctx.path root st
      (st.declare ctx.path place (some callable) name kind scope) :=
    .declare hfits (some callable) name kind
  refine .head hdeclared (walkChildren_moves hw ⟨hcallable.trans hfits.within, ?_,
    by simp [Scope.inside]⟩)
  -- the new owner is the declaration just appended
  rintro i hi
  cases hi
  obtain ⟨d, hds, -, -, hspan, -⟩ :=
    exists_declare ctx.path place (some callable) name kind scope st
  rw [hds]
  exact ⟨d, place, List.getElem?_concat_length, hspan, hfits.within, hcallable⟩

theorem importRule_moves (c : Cursor) (st : State) : Moves path root st (importRule c st) := by
  unfold importRule
  split
  · exact .refl
  · exact .single (.aside rfl rfl)

/-- An export visits its declaration or value, or only notes names. -/
theorem exportRule_moves (hw : Steady ctx.path root walker)
    (hfits : Fits root st.declarations scope c) :
    Moves ctx.path root st (exportRule ctx walker c scope st) := by
  have hexported : Fits root st.declarations
      { scope with exported := true, defaultExport := c.node.hasToken "default" } c :=
        hfits.of_eq rfl rfl
  unfold exportRule
  split
  · exact .refl
  · split
    · next hdeclaration => exact hw _ _ _ (hexported.down (Cursor.within_of_field? hdeclaration))
    · split
      · -- a value is a name, a function, or some other expression
        next value hvalue =>
        have hunwrapped : (unwrapped value).Within c :=
          (Cursor.follow_within _ value).trans (Cursor.within_of_field? hvalue)
        dsimp only
        split
        · exact .single (.aside rfl rfl)
        · split
          · next hcallable =>
            exact declareCallable_moves hw hexported
              ((functionValue?_within hcallable).trans hunwrapped) _ _
          · exact hw _ _ _ (hfits.plain.down hunwrapped)
      · exact .single (.aside rfl rfl)

theorem functionRule_moves (hw : Steady ctx.path root walker)
    (hfits : Fits root st.declarations scope c) :
    Moves ctx.path root st (functionRule ctx walker c scope st) := by
  unfold functionRule
  split
  · exact declareCallable_moves hw hfits (.refl c) _ _
  · exact walkChildren_moves hw hfits.plain

/-- A class is declared first, and the members of its body then find it as their class. -/
theorem classRule_moves (hw : Steady ctx.path root walker)
    (hfits : Fits root st.declarations scope c) :
    Moves ctx.path root st (classRule ctx walker c scope st) := by
  unfold classRule
  split
  · exact walkChildren_moves hw hfits.plain
  · next name _ =>
    have hdeclared : Move ctx.path root st (st.declare ctx.path c none name .classDecl scope) :=
      .declare hfits none name .classDecl
    dsimp only
    split
    · exact .single hdeclared
    · next body hbody =>
      have hbelow := (hfits.later hdeclared.extends).down (Cursor.within_of_field? hbody)
      refine .head hdeclared (walkChildren_moves hw ⟨hbelow.within, hbelow.owner, ?_⟩)
      -- the class that the members see is the declaration just appended
      rintro i hi
      cases hi
      obtain ⟨d, hds, -, hkind, -⟩ := exists_declare ctx.path c none name .classDecl scope st
      rw [hds]
      exact ⟨d, List.getElem?_concat_length, hkind⟩

theorem methodRule_moves (hw : Steady ctx.path root walker)
    (hfits : Fits root st.declarations scope c) :
    Moves ctx.path root st (methodRule ctx walker c scope st) := by
  unfold methodRule
  split
  · split
    · exact declareCallable_moves hw hfits (.refl c) _ _
    · exact walkChildren_moves hw hfits.plain
  · exact walkChildren_moves hw hfits.plain

theorem fieldRule_moves (hw : Steady ctx.path root walker)
    (hfits : Fits root st.declarations scope c) :
    Moves ctx.path root st (fieldRule ctx walker c scope st) := by
  unfold fieldRule
  dsimp only
  split
  · next hcallable =>
    split
    · -- a function value of a field is declared as a method
      obtain ⟨value, hvalue, hfunction⟩ := Option.bind_eq_some_iff.mp hcallable
      have hwithin := (functionValue?_within hfunction).trans (Cursor.within_of_field? hvalue)
      exact declareCallable_moves hw hfits hwithin _ _
    · exact walkChildren_moves hw hfits.plain
  · exact walkChildren_moves hw hfits.plain

/-- A declarator declares a function value under its name and visits any other value. -/
theorem declaratorRule_moves (hw : Steady ctx.path root walker)
    (hfits : Fits root st.declarations scope c) :
    Moves ctx.path root st (declaratorRule ctx walker scope st c) := by
  unfold declaratorRule
  split
  · split
    · exact .refl
    · next value hvalue =>
      have hwithin : value.Within c := Cursor.within_of_field? hvalue
      split
      · next hcallable =>
        exact declareCallable_moves hw hfits ((functionValue?_within hcallable).trans hwithin) _ _
      · exact hw _ _ _ (hfits.plain.down hwithin)
  · exact .refl

theorem variablesRule_moves (hw : Steady ctx.path root walker)
    (hfits : Fits root st.declarations scope c) :
    Moves ctx.path root st (variablesRule ctx walker c scope st) :=
  foldl_moves (fun _ _ => declaratorRule_moves hw) fun _ hc =>
    hfits.down (Cursor.within_of_mem_namedChildren hc)

theorem typeRule_moves (hfits : Fits root st.declarations scope c) :
    Moves ctx.path root st (typeRule ctx c scope st) := by
  unfold typeRule
  split
  · split
    · exact .single (.declare hfits none _ .typeDecl)
    · exact .refl
  · exact .refl

/-- A mark that is set on a condition. -/
theorem mark_moves (scope : Scope) (mark : ErrorHandling → ErrorHandling) (condition : Bool)
    (st : State) : Moves path root st (if condition then st.markErrors scope mark else st) := by
  split
  · exact .single (.mark scope mark st)
  · exact .refl

/-- A part of a statement that may be absent. -/
theorem part_moves (hw : Steady path root walker) (hfits : Fits root st.declarations scope c)
    (field : String) :
    Moves path root st (match c.field? field with
      | some part => walkChildren walker part scope st
      | none => st) := by
  split
  · next hpart => exact walkChildren_moves hw (hfits.down (Cursor.within_of_field? hpart))
  · exact .refl

/-- A try statement marks its function, then visits body, handler and finalizer in this order. -/
theorem tryRule_moves (hw : Steady path root walker) (hfits : Fits root st.declarations scope c) :
    Moves path root st (tryRule walker c scope st) := by
  have hmark : Moves path root st (if (c.field? "handler").isSome then
      st.markErrors scope fun e => { e with tryCatch := true } else st) := mark_moves _ _ _ _
  have hmarked := hfits.plain.later hmark.extends
  have hguarded : Fits root _
      { scope.plain with guarded := scope.guarded || (c.field? "handler").isSome } c :=
    hmarked.of_eq rfl rfl
  -- each part starts from what the part before it left
  have hbody := part_moves hw hguarded "body"
  have hleft := hmarked.later hbody.extends
  have hhandler := part_moves hw hleft "handler"
  have hfinalizer := part_moves hw (hleft.later hhandler.extends) "finalizer"
  exact hmark.trans (hbody.trans (hhandler.trans hfinalizer))

theorem throwRule_moves (hw : Steady path root walker) (hfits : Fits root st.declarations scope c) :
    Moves path root st (throwRule walker c scope st) := by
  have hmark : Moves path root st
      (if scope.guarded then st else st.markErrors scope fun e => { e with throws := true }) := by
    split
    · exact .refl
    · exact .single (.mark scope _ st)
  exact hmark.trans (walkChildren_moves hw (hfits.plain.later hmark.extends))

/-- A call marks, records, and then visits its children or, for a chain, its argument lists. -/
theorem callRule_moves (hw : Steady path root walker) (hfits : Fits root st.declarations scope c) :
    Moves path root st (callRule ctx walker c scope st) := by
  unfold callRule
  split
  · exact walkChildren_moves hw hfits.plain
  · next caller _ =>
    have hmark : Moves path root st (if invokesMember c "catch" then
        st.markErrors scope fun e => { e with promiseCatch := true } else st) := mark_moves _ _ _ _
    refine hmark.trans ?_
    have hmarked := hfits.plain.later hmark.extends
    -- from here on it does not matter whether the mark was set
    generalize (if invokesMember c "catch" then
      st.markErrors scope fun e => { e with promiseCatch := true } else st)
      = marked at hmarked
    dsimp only
    split
    · next target _ =>
      have hrecorded : Move path root marked (marked.record caller target c .direct scope) :=
        .record ..
      exact .head hrecorded (walkChildren_moves hw (hmarked.later hrecorded.extends))
    · next target argumentLists hshape =>
      have hrecorded : Move path root marked (marked.record caller target c .direct scope) :=
        .record ..
      refine .head hrecorded (foldl_moves (fun _ _ => walkChildren_moves hw) fun args hargs => ?_)
      exact (hmarked.later hrecorded.extends).down
        (CallShape.argumentLists_within hshape args hargs)
    · exact walkChildren_moves hw hmarked

/-- A call that is recorded if there is an owner and a target. -/
theorem record_moves (owner : Option Nat) (target : Option CallTarget) (c : Cursor) (via : CallVia)
    (scope : Scope) (st : State) :
    Moves path root st (match owner, target with
      | some caller, some target => st.record caller target c via scope
      | _, _ => st) := by
  split
  · exact .single (.record _ _ c via scope st)
  · exact .refl

theorem elementRule_moves (hw : Steady path root walker)
    (hfits : Fits root st.declarations scope c) :
    Moves path root st (elementRule walker c scope st) := by
  have hjsx : Moves path root st { st with hasJsx := true } := .single (.aside rfl rfl)
  have hrecord : Moves path root { st with hasJsx := true } _ := record_moves scope.owner
    (((elementTag? c).bind (·.field? "name")).bind fun name =>
      componentTarget? name.text) c .render scope _
  exact hjsx.trans (hrecord.trans (walkChildren_moves hw (hfits.plain.later hrecord.extends)))

theorem attributeRule_moves (hw : Steady path root walker)
    (hfits : Fits root st.declarations scope c) :
    Moves path root st (attributeRule walker c scope st) := by
  have hrecord : Moves path root st _ :=
    record_moves scope.owner (attributeTarget? c) c .handler scope st
  exact hrecord.trans (walkChildren_moves hw (hfits.plain.later hrecord.extends))

/-- **Every rule comes down to moves**, if the walk of the nodes below does. -/
theorem rule_moves (hw : Steady ctx.path root walker) : Steady ctx.path root (rule ctx walker) := by
  intro c scope st hfits
  unfold rule
  -- one rule for each construct, in the order of the definition
  split
  · exact importRule_moves c st
  · exact exportRule_moves hw hfits
  · exact functionRule_moves hw hfits
  · exact classRule_moves hw hfits
  · exact methodRule_moves hw hfits
  · exact fieldRule_moves hw hfits
  · exact variablesRule_moves hw hfits
  · exact typeRule_moves hfits
  · exact callRule_moves hw hfits
  · exact elementRule_moves hw hfits
  · exact attributeRule_moves hw hfits
  · exact walkChildren_moves hw (hfits.of_eq rfl rfl)
  · exact tryRule_moves hw hfits
  · exact throwRule_moves hw hfits
  · exact .refl
  · exact walkChildren_moves hw hfits.plain

/-- **A walk comes down to moves.** Induction on the levels that are left. -/
theorem walk_moves (ctx : Context) (root : Cursor) (budget : Nat) :
    Steady ctx.path root (walk ctx budget) := by
  induction budget with
  | zero => exact fun _ _ _ _ => .single (.aside rfl rfl)
  | succ budget ih => exact rule_moves ih

end Rules

/-- All that is found in a tree before the file is closed. -/
def walked (ctx : Context) (root : Node) : State :=
  walkChildren (walk ctx ctx.maxDepth) ⟨root, []⟩ {} {}

/-- The walk over a file is a sequence of moves from the empty state. -/
theorem walked_moves (ctx : Context) (root : Node) :
    Moves ctx.path ⟨root, []⟩ {} (walked ctx root) :=
  walkChildren_moves (walk_moves ctx ⟨root, []⟩ ctx.maxDepth) ⟨.refl _, by simp, by simp⟩

/-- **What every move keeps holds of all that is walked.** -/
theorem walked_induction (ctx : Context) (root : Node) {holds : State → Prop} (hempty : holds {})
    (hmove : ∀ {st st' : State}, Move ctx.path ⟨root, []⟩ st st' → holds st → holds st') :
    holds (walked ctx root) := by
  suffices h : ∀ st, Moves ctx.path ⟨root, []⟩ {} st → holds st from h _ (walked_moves ctx root)
  intro st hmoves
  induction hmoves with
  | refl => exact hempty
  | tail _ last ih => exact hmove last ih

theorem extract_eq (ctx : Context) (root : Node) : extract ctx root = (walked ctx root).close := rfl

end CallAtlas.Extraction
