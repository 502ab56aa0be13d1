import CallAtlas.Proofs.ExtractionNesting

/-!
# Proofs.ExtractionScript — what a walk does, listed before it is done

A walk reads the tree and changes a state. What it reads does not depend on the state: only the
numbers of the declarations do, and for these it is enough to know how many there are. So all that a
walk does can be listed beforehand, from the tree alone, and be done afterwards.

The list keeps what the state forgets. A declaration shows its name, its kind and its lines; the
event that makes it also shows the node where it stands and the scope there.

* `Event`, `replay` — single changes, and doing them one after the other.
* `ownEvents`, `turns` — what a node does itself and what it goes on to, construct by construct.
* `script` — the events of a walk, from both of them.
* `rule_eq_takeAll` — every rule does its own events, then takes its turns.
* `walk_eq_replay`, `walked_eq_replay` — a walk does what its script lists.
* `Made`, `allMade_replay` — the declarations, one by one, from the events that make them.
-/

namespace CallAtlas.Extraction

open CallAtlas.Tree

/-! ## Events -/

/-- What a declaration is made from. -/
structure Origin where
  place : Cursor
  callable : Option Cursor
  name : String
  kind : DeclarationKind
  scope : Scope

inductive Event where
  | declare (origin : Origin)
  | mark (scope : Scope) (change : ErrorHandling → ErrorHandling)
  | record (caller : Nat) (target : CallTarget) (node : Cursor) (via : CallVia) (scope : Scope)
  | bring (statement : Cursor)
  | exportNames (names : List String)
  | markup
  /-- The node was nested too deep. -/
  | refuse (node : Cursor)

namespace Event

def run (path : String) : Event → State → State
  | declare o, st => st.declare path o.place o.callable o.name o.kind o.scope
  | mark scope change, st => st.markErrors scope change
  | record caller target node via scope, st => st.record caller target node via scope
  | bring statement, st => importRule statement st
  | exportNames names, st => { st with exportedNames := st.exportedNames ++ names }
  | markup, st => { st with hasJsx := true }
  | refuse _, st => { st with depthLimited := true }

def origin? : Event → Option Origin
  | declare o => some o
  | _ => none

theorem eq_declare_of_origin? {e : Event} {o : Origin}
    (h : e.origin? = some o) : e = .declare o := by
  cases e with
  | declare o' => rw [Option.some.inj h]
  | mark | record | bring | exportNames | markup | refuse => cases h

end Event

/-- The declarations that events make, in order. -/
def origins (events : List Event) : List Origin := events.filterMap Event.origin?

def replay (path : String) (events : List Event) (st : State) : State :=
  events.foldl (fun st e => e.run path st) st

variable {path : String} {st : State}

/-- A script is replayed piece by piece. -/
theorem replay_append (path : String) (events events' : List Event) (st : State) :
    replay path (events ++ events') st = replay path events' (replay path events st) :=
  List.foldl_append

theorem origins_append (events events' : List Event) :
    origins (events ++ events') = origins events ++ origins events' :=
  List.filterMap_append

theorem length_declare (path : String) (place : Cursor) (callable : Option Cursor) (name : String)
    (kind : DeclarationKind) (scope : Scope) (st : State) :
    (st.declare path place callable name kind scope).declarations.length
      = st.declarations.length + 1 := by
  obtain ⟨d, hds, -⟩ := exists_declare path place callable name kind scope st
  rw [hds, List.length_append, List.length_singleton]

/-- An event that makes no declaration changes none, but for the errors that it handles. -/
theorem map_outline_run {e : Event} (h : e.origin? = none) (path : String) (st : State) :
    (e.run path st).declarations.map outline = st.declarations.map outline := by
  cases e with
  | declare o => cases h
  | mark scope change => exact map_outline_markErrors scope change st
  | record caller target node via scope =>
    show (st.record caller target node via scope).declarations.map outline = _
    unfold State.record
    split <;> rfl
  | bring statement =>
    show (importRule statement st).declarations.map outline = _
    unfold importRule
    split <;> rfl
  | exportNames names => rfl
  | markup => rfl
  | refuse node => rfl

/-- An event adds as many declarations as it has origins. -/
theorem length_run (path : String) (e : Event) (st : State) :
    (e.run path st).declarations.length = st.declarations.length + (origins [e]).length := by
  cases horigin : e.origin? with
  | none =>
    have hlength := congrArg List.length (map_outline_run horigin path st)
    rw [List.length_map, List.length_map] at hlength
    rw [hlength, origins, List.filterMap_cons_none horigin, List.filterMap_nil,
      List.length_nil, Nat.add_zero]
  | some o =>
    obtain rfl := Event.eq_declare_of_origin? horigin
    exact length_declare path _ _ _ _ _ st

/-- **Each declare event makes one declaration.** -/
theorem length_replay (path : String) (events : List Event) (st : State) :
    (replay path events st).declarations.length
      = st.declarations.length + (origins events).length := by
  induction events generalizing st with
  | nil => rfl
  | cons e events ih =>
    have hsplit : origins (e :: events) = origins [e] ++ origins events := origins_append [e] events
    have hstep : replay path (e :: events) st = replay path events (e.run path st) := rfl
    rw [hstep, ih, length_run, hsplit, List.length_append, Nat.add_assoc]

/-! ## Turns

All rules of the walk have one form. First a node does something itself: it records a call, sets a
mark, takes a name. Then it has its turns, one after the other. -/

/-- The scope of the members of a class. -/
def memberScope (scope : Scope) (i : Nat) : Scope :=
  { scope with
    classIndex := some i, exported := scope.exported && scope.owner.isNone, defaultExport := false
    conditional := false }

namespace Origin

/-- The nodes inside of a declaration: what is in the function, or in the body of the class. -/
def inner (o : Origin) : List Cursor :=
  match o.callable, o.kind with
  | some f, _ => f.namedChildren
  | none, .classDecl =>
    match o.place.field? "body" with
    | some body => body.namedChildren
    | none => []
  | none, _ => []

/-- Their scope, if the declaration has number `i`. -/
def innerScope (o : Origin) (i : Nat) : Scope :=
  match o.callable with
  | some _ => o.scope.inside i
  | none => memberScope o.scope i

end Origin

/-- The visit of a node below, or a declaration together with the visits of the nodes inside. -/
inductive Turn where
  | visit (c : Cursor) (scope : Scope)
  | declare (o : Origin)

def childTurns (c : Cursor) (scope : Scope) : List Turn := c.namedChildren.map (.visit · scope)

/-- A part of a statement that may be absent. -/
def partTurns (c : Cursor) (field : String) (scope : Scope) : List Turn :=
  match c.field? field with
  | some part => childTurns part scope
  | none => []

def exportTurns (c : Cursor) (scope : Scope) : List Turn :=
  if (c.field? "source").isSome then []
  else
    let exported := { scope with exported := true, defaultExport := c.node.hasToken "default" }
    match c.field? "declaration", c.field? "value" with
    | some declaration, _ => [.visit declaration exported]
    | none, some value =>
      if (unwrapped value).kind = "identifier" then []
      else
        match functionValue? (unwrapped value) with
        | some f =>
          let name := ((f.field? "name").map Cursor.text).getD "default"
          [.declare ⟨c, some f, name, callableKind f, exported⟩]
        | none => [.visit (unwrapped value) scope.plain]
    | none, none => []

def declaratorTurns (scope : Scope) (c : Cursor) : List Turn :=
  if c.kind = "variable_declarator" then
    match c.field? "value" with
    | none => []
    | some value =>
      match (c.field? "name").filter (·.kind == "identifier"), functionValue? value with
      | some name, some f => [.declare ⟨c, some f, name.text, callableKind f, scope⟩]
      | _, _ => [.visit value scope.plain]
  else []

def fieldTurns (c : Cursor) (scope : Scope) : List Turn :=
  match c.field? "name" <|> c.field? "property", (c.field? "value").bind functionValue? with
  | some name, some f =>
    if scope.classIndex.isSome then [.declare ⟨c, some f, name.text, .method, scope⟩]
    else childTurns c scope.plain
  | _, _ => childTurns c scope.plain

def callTurns (settings : ExtractionSettings) (c : Cursor) (scope : Scope) : List Turn :=
  match scope.owner, CallShape.of settings c with
  | some _, .chain _ argumentLists => argumentLists.flatMap (childTurns · scope.plain)
  | _, _ => childTurns c scope.plain

/-- What a node goes on to. -/
def turns (settings : ExtractionSettings) (c : Cursor) (scope : Scope) : List Turn :=
  match Construct.of c.node with
  | .importStmt | .skipped => []
  | .exportStmt => exportTurns c scope
  | .functionDecl =>
    match declaredName? c scope with
    | some name => [.declare ⟨c, some c, name, .function, scope⟩]
    | none => childTurns c scope.plain
  | .classDecl =>
    match declaredName? c scope with
    | some name => [.declare ⟨c, none, name, .classDecl, scope⟩]
    | none => childTurns c scope.plain
  | .methodDecl =>
    match c.field? "name" with
    | some name =>
      if c.parentKind? = some "class_body" then [.declare ⟨c, some c, name.text, .method, scope⟩]
      else childTurns c scope.plain
    | none => childTurns c scope.plain
  | .fieldDecl => fieldTurns c scope
  | .variables => c.namedChildren.flatMap (declaratorTurns scope)
  | .typeDecl =>
    match c.field? "name" with
    | some name =>
      if scope.exported && scope.owner.isNone then
        [.declare ⟨c, none, name.text, .typeDecl, scope⟩]
      else []
    | none => []
  | .callExpr => callTurns settings c scope
  | .branch => childTurns c { scope.plain with conditional := true }
  | .tryStmt =>
    -- the handler guards the body, but neither itself nor the finalizer
    let guarded := scope.guarded || (c.field? "handler").isSome
    partTurns c "body" { scope.plain with guarded } ++
      (partTurns c "handler" scope.plain ++ partTurns c "finalizer" scope.plain)
  | .element | .elementAttr | .throwStmt | .other => childTurns c scope.plain

/-! ## Own events -/

/-- The names that an export statement takes. -/
def exportEvents (c : Cursor) : List Event :=
  if (c.field? "source").isSome then []
  else
    match c.field? "declaration", c.field? "value" with
    | some _, _ => []
    | none, some value =>
      if (unwrapped value).kind = "identifier" then [.exportNames [(unwrapped value).text]] else []
    | none, none => [.exportNames (clauseNames c)]

/-- The target of a call that is recorded. -/
def CallShape.target? : CallShape → Option CallTarget
  | plain target => some target
  | chain target _ => some target
  | unrecorded => none

/-- A call that is recorded if there is an owner and a target. -/
def recordEvents (scope : Scope) (target : Option CallTarget) (c : Cursor) (via : CallVia) :
    List Event :=
  match scope.owner, target with
  | some caller, some target => [.record caller target c via scope]
  | _, _ => []

def catchEvents (c : Cursor) (scope : Scope) : List Event :=
  if invokesMember c "catch" then [.mark scope fun e => { e with promiseCatch := true }] else []

def callEvents (settings : ExtractionSettings) (c : Cursor) (scope : Scope) : List Event :=
  match scope.owner with
  | none => []
  | some _ =>
    catchEvents c scope ++ recordEvents scope (CallShape.of settings c).target? c .direct

/-- The component that an element renders. -/
def elementTarget? (c : Cursor) : Option CallTarget :=
  ((elementTag? c).bind (·.field? "name")).bind fun name => componentTarget? name.text

/-- What a node does itself. -/
def ownEvents (settings : ExtractionSettings) (c : Cursor) (scope : Scope) : List Event :=
  match Construct.of c.node with
  | .importStmt => [.bring c]
  | .exportStmt => exportEvents c
  | .callExpr => callEvents settings c scope
  | .element => .markup :: recordEvents scope (elementTarget? c) c .render
  | .elementAttr => recordEvents scope (attributeTarget? c) c .handler
  | .tryStmt =>
    if (c.field? "handler").isSome then [.mark scope fun e => { e with tryCatch := true }] else []
  | .throwStmt => if scope.guarded then [] else [.mark scope fun e => { e with throws := true }]
  | _ => []

theorem origins_recordEvents (scope : Scope) (target : Option CallTarget) (c : Cursor)
    (via : CallVia) : origins (recordEvents scope target c via) = [] := by
  unfold recordEvents
  split <;> rfl

theorem origins_catchEvents (c : Cursor) (scope : Scope) : origins (catchEvents c scope) = [] := by
  unfold catchEvents
  split <;> rfl

/-- A node makes no declaration but in its turns. -/
theorem origins_ownEvents (settings : ExtractionSettings) (c : Cursor) (scope : Scope) :
    origins (ownEvents settings c scope) = [] := by
  unfold ownEvents
  split
  · rfl
  · unfold exportEvents
    repeat' split
    all_goals rfl
  · unfold callEvents
    split
    · rfl
    · rw [origins_append, origins_catchEvents, origins_recordEvents]
      rfl
  · exact origins_recordEvents scope _ c .render
  · exact origins_recordEvents scope _ c .handler
  · split <;> rfl
  · split <;> rfl
  · rfl

/-! ## Scripts -/

/-- The events of the walk of a node in a scope, when there are some declarations already. -/
abbrev Script := Cursor → Scope → Nat → List Event

/-- Parts that follow each other. -/
def inSequence : List (Nat → List Event) → Nat → List Event
  | [], _ => []
  | part :: parts, n => part n ++ inSequence parts (n + (origins (part n)).length)

def Turn.events (script : Script) : Turn → Nat → List Event
  | visit c scope, n => script c scope n
  | declare o, n => .declare o :: inSequence (o.inner.map (script · (o.innerScope n))) (n + 1)

/-- All that the turns list. -/
def turnEvents (script : Script) (ts : List Turn) (n : Nat) : List Event :=
  inSequence (ts.map (Turn.events script)) n

/-- The events of the walk of one node with some levels of nesting left. -/
def script (settings : ExtractionSettings) : Nat → Script
  | 0, c, _, _ => [.refuse c]
  | budget + 1, c, scope, n =>
    ownEvents settings c scope ++ turnEvents (script settings budget) (turns settings c scope) n

/-- The events of the walk of a whole tree. -/
def fileScript (settings : ExtractionSettings) (maxDepth : Nat) (root : Node) : List Event :=
  inSequence ((Cursor.namedChildren ⟨root, []⟩).map (script settings maxDepth · {})) 0

/-! ## Rules are events and turns -/

/-- Takes a turn. -/
def Turn.take (path : String) (walker : Walker) : Turn → State → State
  | visit c scope, st => walker c scope st
  | declare o, st =>
    walkAll walker o.inner (o.innerScope st.declarations.length)
      (st.declare path o.place o.callable o.name o.kind o.scope)

def takeAll (path : String) (walker : Walker) (ts : List Turn) (st : State) : State :=
  ts.foldl (fun st t => t.take path walker st) st

section Rules

variable (ctx : Context) (walker : Walker) (c : Cursor) (scope : Scope) (st : State)

theorem takeAll_append (path : String) (ts ts' : List Turn) :
    takeAll path walker (ts ++ ts') st = takeAll path walker ts' (takeAll path walker ts st) :=
  List.foldl_append

/-- Turns that come from a list are taken along that list. -/
theorem takeAll_flatMap {α : Type} (path : String) (f : α → List Turn) (xs : List α) :
    takeAll path walker (xs.flatMap f) st
      = xs.foldl (fun st x => takeAll path walker (f x) st) st := by
  induction xs generalizing st with
  | nil => rfl
  | cons x xs ih => rw [List.flatMap_cons, takeAll_append, ih, List.foldl_cons]

/-- The turns into the children are the walk over the children. -/
theorem takeAll_childTurns (path : String) :
    takeAll path walker (childTurns c scope) st = walkChildren walker c scope st :=
  List.foldl_map

theorem takeAll_partTurns (path field : String) :
    takeAll path walker (partTurns c field scope) st
      = match c.field? field with
        | some part => walkChildren walker part scope st
        | none => st := by
  unfold partTurns
  cases c.field? field with
  | some part => exact takeAll_childTurns walker part scope st path
  | none => rfl

/-- An export notes its names and then takes its turns. -/
theorem exportRule_eq :
    exportRule ctx walker c scope st
      = takeAll ctx.path walker (exportTurns c scope) (replay ctx.path (exportEvents c) st) := by
  unfold exportRule exportTurns exportEvents
  split
  · rfl
  · cases c.field? "declaration" with
    | some declaration => rfl
    | none =>
      cases c.field? "value" with
      | none => rfl
      | some value =>
        dsimp only
        split
        · rfl
        · cases functionValue? (unwrapped value) <;> rfl

/-- A named class is one declaring turn; without a name its children are visited. -/
theorem classRule_eq :
    classRule ctx walker c scope st = takeAll ctx.path walker (match declaredName? c scope with
      | some name => [.declare ⟨c, none, name, .classDecl, scope⟩]
      | none => childTurns c scope.plain) st := by
  unfold classRule
  cases declaredName? c scope with
  | none => exact (takeAll_childTurns walker c scope.plain st ctx.path).symm
  | some name =>
    simp only [takeAll, List.foldl_cons, List.foldl_nil, Turn.take, Origin.inner]
    cases c.field? "body" <;> rfl

theorem fieldRule_eq :
    fieldRule ctx walker c scope st = takeAll ctx.path walker (fieldTurns c scope) st := by
  unfold fieldRule fieldTurns
  have hplain := (takeAll_childTurns walker c scope.plain st ctx.path).symm
  cases c.field? "name" <|> c.field? "property" with
  | none => exact hplain
  | some name =>
    cases (c.field? "value").bind functionValue? with
    | none => exact hplain
    | some f =>
      dsimp only
      split
      · rfl
      · exact hplain

theorem declaratorRule_eq :
    declaratorRule ctx walker scope st c
      = takeAll ctx.path walker (declaratorTurns scope c) st := by
  unfold declaratorRule declaratorTurns
  split
  · cases c.field? "value" with
    | none => rfl
    | some value =>
      dsimp only
      cases (c.field? "name").filter (·.kind == "identifier") with
      | none => rfl
      | some name => cases functionValue? value <;> rfl
  · rfl

theorem tryRule_eq (path : String) :
    tryRule walker c scope st
      = takeAll path walker
          (partTurns c "body"
              { scope.plain with guarded := scope.guarded || (c.field? "handler").isSome } ++
            (partTurns c "handler" scope.plain ++ partTurns c "finalizer" scope.plain))
          (replay path (if (c.field? "handler").isSome then
            [.mark scope fun e => { e with tryCatch := true }] else []) st) := by
  rw [takeAll_append, takeAll_append, takeAll_partTurns, takeAll_partTurns, takeAll_partTurns]
  unfold tryRule
  cases c.field? "handler" <;> rfl

theorem replay_recordEvents (path : String) (target : Option CallTarget) (via : CallVia) :
    replay path (recordEvents scope target c via) st
      = match scope.owner, target with
        | some caller, some target => st.record caller target c via scope
        | _, _ => st := by
  unfold recordEvents
  cases scope.owner with
  | none => rfl
  | some caller => cases target <;> rfl

/-- A call marks, records and then takes its turns. -/
theorem callRule_eq :
    callRule ctx walker c scope st
      = takeAll ctx.path walker (callTurns ctx.settings c scope)
          (replay ctx.path (callEvents ctx.settings c scope) st) := by
  unfold callRule callEvents callTurns
  cases howner : scope.owner with
  | none => exact (takeAll_childTurns walker c scope.plain st ctx.path).symm
  | some caller =>
    -- a catch in the chain marks the function before the call is recorded
    have hmark : replay ctx.path (catchEvents c scope) st
        = if invokesMember c "catch" then
            st.markErrors scope fun e => { e with promiseCatch := true }
          else st := by
      unfold catchEvents
      split <;> rfl
    dsimp only
    rw [replay_append, hmark, replay_recordEvents, howner]
    cases CallShape.of ctx.settings c with
    | plain target => exact (takeAll_childTurns walker c scope.plain _ ctx.path).symm
    | unrecorded => exact (takeAll_childTurns walker c scope.plain _ ctx.path).symm
    | chain target argumentLists =>
      simp only [takeAll_flatMap, takeAll_childTurns, CallShape.target?]

/-- **Every rule is events and turns.** -/
theorem rule_eq_takeAll :
    rule ctx walker c scope st
      = takeAll ctx.path walker (turns ctx.settings c scope)
          (replay ctx.path (ownEvents ctx.settings c scope) st) := by
  have hplain (st : State) := (takeAll_childTurns walker c scope.plain st ctx.path).symm
  unfold rule ownEvents turns
  -- construct by construct; the constructs with a longer rule have their own equation above
  cases Construct.of c.node with
  | importStmt | skipped => rfl
  | exportStmt => exact exportRule_eq ctx walker c scope st
  | functionDecl =>
    simp only [functionRule]
    cases declaredName? c scope with
    | some name => rfl
    | none => exact hplain st
  | classDecl => exact classRule_eq ctx walker c scope st
  | methodDecl =>
    simp only [methodRule]
    cases c.field? "name" with
    | none => exact hplain st
    | some name =>
      dsimp only
      split
      · rfl
      · exact hplain st
  | fieldDecl => exact fieldRule_eq ctx walker c scope st
  | «variables» =>
    simp only [variablesRule, takeAll_flatMap, ← declaratorRule_eq]
    rfl
  | typeDecl =>
    simp only [typeRule]
    cases c.field? "name" <;> split <;> rfl
  | callExpr => exact callRule_eq ctx walker c scope st
  | element =>
    show elementRule walker c scope st = takeAll ctx.path walker (childTurns c scope.plain)
      (replay ctx.path (recordEvents scope (elementTarget? c) c .render) { st with hasJsx := true })
    rw [replay_recordEvents, takeAll_childTurns]
    rfl
  | elementAttr =>
    dsimp only
    rw [replay_recordEvents, takeAll_childTurns]
    rfl
  | branch => exact (takeAll_childTurns walker c _ st ctx.path).symm
  | tryStmt => exact tryRule_eq walker c scope st ctx.path
  | throwStmt =>
    dsimp only
    rw [takeAll_childTurns, throwRule]
    cases scope.guarded <;> rfl
  | other => exact hplain st

end Rules

/-! ## Walks follow their scripts -/

/-- The walk of a node does what the script lists. -/
def Follows (path : String) (walker : Walker) (script : Script) : Prop :=
  ∀ c scope st, walker c scope st = replay path (script c scope st.declarations.length) st

/-- What is done step by step is done in sequence. Induction on the steps, each of which leaves as
many declarations as the rest of the script starts with. -/
theorem foldl_eq_replay {α : Type} {step : State → α → State} {part : α → Nat → List Event}
    (h : ∀ st x, step st x = replay path (part x st.declarations.length) st) (xs : List α)
    (st : State) :
    xs.foldl step st = replay path (inSequence (xs.map part) st.declarations.length) st := by
  induction xs generalizing st with
  | nil => rfl
  | cons x xs ih =>
    rw [List.foldl_cons, ih, List.map_cons, inSequence, replay_append, ← h st x, h st x,
      length_replay]

section Following

variable {walker : Walker} {script : Script}

theorem walkAll_eq_replay (hw : Follows path walker script) (nodes : List Cursor) (scope : Scope)
    (st : State) :
    walkAll walker nodes scope st
      = replay path (inSequence (nodes.map (script · scope)) st.declarations.length) st :=
  foldl_eq_replay (fun st c => hw c scope st) nodes st

/-- A turn is the replay of its events, under a walker that follows the script. -/
theorem Turn.take_eq_replay (hw : Follows path walker script) (st : State) (t : Turn) :
    t.take path walker st = replay path (t.events script st.declarations.length) st := by
  cases t with
  | visit c scope => exact hw c scope st
  | declare o =>
    rw [Turn.take, walkAll_eq_replay hw, length_declare]
    rfl

/-- Turns are the replay of their events one after another. -/
theorem takeAll_eq_replay (hw : Follows path walker script) (ts : List Turn) (st : State) :
    takeAll path walker ts st = replay path (turnEvents script ts st.declarations.length) st :=
  foldl_eq_replay (Turn.take_eq_replay hw) ts st

end Following

/-- **A walk does what its script lists.** Induction on the levels that are left. The events of the
node itself make no declaration, so the turns start with as many as the node does. -/
theorem walk_eq_replay (ctx : Context) (budget : Nat) :
    Follows ctx.path (walk ctx budget) (script ctx.settings budget) := by
  induction budget with
  | zero => exact fun _ _ _ => rfl
  | succ budget ih =>
    intro c scope st
    rw [walk, rule_eq_takeAll, takeAll_eq_replay ih, length_replay, origins_ownEvents, script,
      replay_append]
    rfl

/-- **The walk over a file is the replay of its script.** -/
theorem walked_eq_replay (ctx : Context) (root : Node) :
    walked ctx root = replay ctx.path (fileScript ctx.settings ctx.maxDepth root) {} :=
  walkAll_eq_replay (walk_eq_replay ctx ctx.maxDepth) (Cursor.namedChildren ⟨root, []⟩) {} {}

/-! ## Declarations and their origins -/

/-- A declaration that is made from an origin, when there are some declarations already. -/
structure Made (path : String) (before : List Declaration) (o : Origin)
    (d : Declaration) : Prop where
  name : d.name = o.name
  kind : d.kind = o.kind
  container : d.container = (o.scope.classIndex.bind (before[·]?)).map (·.name)
  enclosing : d.enclosing = (o.scope.owner.bind (before[·]?)).map (·.id)
  id : d.id = freshId (before.map (·.id)) (path ++ ":" ++ d.qualifiedName) o.place.line

/-- A declaring event appends the declaration that its origin describes. -/
theorem exists_made (path : String) (o : Origin) (st : State) :
    ∃ d, (Event.run path (.declare o) st).declarations = st.declarations ++ [d] ∧
      Made path st.declarations o d := by
  refine ⟨_, rfl, ⟨rfl, rfl, rfl, rfl, ?_⟩⟩
  -- the qualified name is written into the id in two ways that agree
  show freshId _ (match (o.scope.classIndex.bind (st.declarations[·]?)).map (·.name) with
      | some c => path ++ ":" ++ c ++ "." ++ o.name
      | none => path ++ ":" ++ o.name) _
    = freshId _ (path ++ ":" ++ match (o.scope.classIndex.bind (st.declarations[·]?)).map
      (·.name) with
      | some c => c ++ "." ++ o.name
      | none => o.name) _
  cases (o.scope.classIndex.bind (st.declarations[·]?)).map (·.name) with
  | none => rfl
  | some c => simp only [String.append_assoc]

/-- What an outline keeps of the declaration at an index depends on the outlines alone. -/
theorem getElem?_map_of_outlines {α : Type} {before before' : List Declaration}
    {g : Declaration → α} (hg : ∀ d, g (outline d) = g d)
    (h : before'.map outline = before.map outline) (i : Option Nat) :
    (i.bind (before'[·]?)).map g = (i.bind (before[·]?)).map g := by
  cases i with
  | none => rfl
  | some i =>
    have hget : ∀ ds : List Declaration, ds[i]?.map g = ((ds.map outline)[i]?).map g := by
      intro ds
      rw [List.getElem?_map, Option.map_map]
      congr 1
      funext d
      exact (hg d).symm
    show before'[i]?.map g = before[i]?.map g
    rw [hget before', h, ← hget before]

/-- What may change after a declaration is made does not matter for how it was made. -/
theorem Made.of_outlines {before before' : List Declaration} {o : Origin} {d d' : Declaration}
    (h : Made path before o d) (hbefore : before'.map outline = before.map outline)
    (hd : outline d' = outline d) :
    Made path before' o d' where
  name := by
    have hname : d'.name = d.name := by simpa using congrArg Declaration.name hd
    rw [hname, h.name]
  kind := by
    have hkind : d'.kind = d.kind := by simpa using congrArg Declaration.kind hd
    rw [hkind, h.kind]
  container := by
    have hcontainer : d'.container = d.container := by simpa using congrArg Declaration.container hd
    rw [hcontainer, h.container, getElem?_map_of_outlines (fun _ => rfl) hbefore]
  enclosing := by
    have henclosing : d'.enclosing = d.enclosing := by simpa using congrArg Declaration.enclosing hd
    rw [henclosing, h.enclosing, getElem?_map_of_outlines (fun _ => rfl) hbefore]
  -- the id depends on the ids before it, which outlines keep
  id := by
    have hid : d'.id = d.id := by simpa using congrArg Declaration.id hd
    have hqualified : (outline d').qualifiedName = (outline d).qualifiedName := by rw [hd]
    change d'.qualifiedName = d.qualifiedName at hqualified
    rw [hid, h.id, hqualified, map_id_of_outlines hbefore]

/-- Declarations, one by one made from origins. -/
structure AllMade (path : String) (os : List Origin) (ds : List Declaration) : Prop where
  length : ds.length = os.length
  made : ∀ {i o d}, os[i]? = some o → ds[i]? = some d → Made path (ds.take i) o d

theorem AllMade.of_outlines {os : List Origin} {ds ds' : List Declaration} (h : AllMade path os ds)
    (houtlines : ds'.map outline = ds.map outline) : AllMade path os ds' where
  length := by
    have hlength := congrArg List.length houtlines
    rw [List.length_map, List.length_map] at hlength
    rw [hlength, h.length]
  made {i o d'} ho hd' := by
    obtain ⟨d, hd, hsame⟩ := (Extends.of_outlines houtlines.symm).getElem? hd'
    refine (h.made ho hd).of_outlines ?_ hsame.symm
    rw [List.map_take, List.map_take, houtlines]

/-- One more origin matches one more declaration. -/
theorem AllMade.snoc {os : List Origin} {ds : List Declaration} {o : Origin} {d : Declaration}
    (h : AllMade path os ds) (hd : Made path ds o d) : AllMade path (os ++ [o]) (ds ++ [d]) where
  length := by rw [List.length_append, List.length_append, h.length]; rfl
  made {i o' d'} ho' hd' := by
    -- the index is one of the old ones or the last on both sides
    rcases Nat.lt_or_ge i ds.length with hi | hi
    · rw [List.getElem?_append_left (h.length ▸ hi)] at ho'
      rw [List.getElem?_append_left hi] at hd'
      rw [List.take_append_of_le_length (Nat.le_of_lt hi)]
      exact h.made ho' hd'
    · have hlast : i = ds.length := by
        have hlength := (List.getElem?_eq_some_iff.mp hd').1
        rw [List.length_append, List.length_singleton] at hlength
        omega
      subst hlast
      rw [List.getElem?_concat_length] at hd'
      rw [h.length, List.getElem?_concat_length] at ho'
      cases hd'
      cases ho'
      rw [List.take_left]
      exact hd

/-- **The declarations are made from the origins.** Induction on the events. -/
theorem allMade_replay {os : List Origin} (h : AllMade path os st.declarations)
    (events : List Event) :
    AllMade path (os ++ origins events) (replay path events st).declarations := by
  -- an event without an origin changes no outline, so what is made so far stays made
  induction events generalizing os st with
  | nil =>
    rw [show origins [] = [] from rfl, List.append_nil]
    exact h
  | cons e events ih =>
    show AllMade path _ (replay path events (e.run path st)).declarations
    cases horigin : e.origin? with
    | none =>
      rw [show origins (e :: events) = origins events from List.filterMap_cons_none horigin]
      exact ih (h.of_outlines (map_outline_run horigin path st))
    | some o =>
      rw [show origins (e :: events) = o :: origins events from List.filterMap_cons_some horigin]
      obtain rfl := Event.eq_declare_of_origin? horigin
      obtain ⟨d, hds, hd⟩ := exists_made path o st
      rw [List.append_cons]
      apply ih
      rw [hds]
      exact h.snoc hd

/-- **The declarations of a file are made by the origins of its script, in order.** -/
theorem allMade_extract (ctx : Context) (root : Node) :
    AllMade ctx.path (origins (fileScript ctx.settings ctx.maxDepth root))
      (extract ctx root).declarations := by
  have hempty : AllMade ctx.path [] ({} : State).declarations := ⟨rfl, fun ho => by simp at ho⟩
  have hwalked := allMade_replay hempty (fileScript ctx.settings ctx.maxDepth root)
  rw [← walked_eq_replay, List.nil_append] at hwalked
  rw [extract_eq]
  exact hwalked.of_outlines (map_outline_close _)

end CallAtlas.Extraction
