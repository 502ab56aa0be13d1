import CallAtlas.Text.CaseMap
import CallAtlas.Settings.Basic
import CallAtlas.Extraction.Literal

/-!
# Extraction.Chain — the shape of a call expression

A call is read as a chain: a root expression followed by member segments, some of which are invoked.
The chain `supabase.from('users').select('*')` has the root `supabase` and the segments `from()` and
`select()`. The chain decides whether the call is a database call, a request, a call of a name, or
something without a name.
-/

namespace CallAtlas.Extraction

open CallAtlas.Tree

/-- A member access of a chain, with the call that invokes it. -/
structure Segment where
  name : String
  call : Option Cursor

structure Chain where
  root : Cursor
  /-- The call that invokes the root itself. -/
  rootCall : Option Cursor
  /-- In the order from the root outwards. -/
  segments : List Segment

namespace Chain

/-- Chains go through callees, objects, parentheses and assertions. -/
def pick (n : Node) : Option Selector :=
  match n.kind with
  | "call_expression" => some (.field "function")
  | "member_expression" => some (.field "object")
  | "parenthesized_expression" | "non_null_expression" => some .firstNamed
  | _ => none

/-- One node of the spine: a call waits for the member that it invokes. -/
def step (acc : List Segment × Option Cursor) (c : Cursor) : List Segment × Option Cursor :=
  match c.kind with
  | "call_expression" => (acc.1, some c)
  | "member_expression" =>
    let name := ((c.field? "property").map Cursor.text).getD ""
    (⟨name, acc.2⟩ :: acc.1, none)
  | _ => acc

def read (call : Cursor) : Chain :=
  let spine := call.spine pick
  let (segments, pending) := spine.foldl step ([], none)
  ⟨spine.getLastD call, pending, segments⟩

/-- The argument lists of all calls of the chain. -/
def argumentLists (chain : Chain) : List Cursor :=
  (chain.rootCall.toList ++ chain.segments.filterMap (·.call)).filterMap (·.field? "arguments")

end Chain

/-! ## Arguments -/

/-- The arguments of a call, without comments. -/
def arguments (call : Cursor) : List Cursor :=
  match call.field? "arguments" with
  | none => []
  | some args => args.namedChildren.filter (·.kind != "comment")

/-- The value of a key of an object literal. -/
def objectProperty? (object : Cursor) (key : String) : Option Cursor :=
  if object.kind = "object" then do
    let pair ← object.namedChildren.find? fun p =>
      p.kind == "pair" && (p.field? "key").any fun k => unquote k.text == key
    pair.field? "value"
  else none

/-- The method that an options object asks for. -/
def methodOption? (options : Cursor) : Option HttpMethod := do
  let value ← objectProperty? options "method"
  HttpMethod.parse? (← literalText? value.node)

/-- The address in the first argument. -/
def firstAddress (args : List Cursor) : String :=
  match args.head? with
  | some a => addressOf a.node
  | none => CallTarget.dynamicPath

/-- The method in the options of the second argument. -/
def secondMethod (args : List Cursor) : HttpMethod := ((args[1]?).bind methodOption?).getD .get

/-! ## Targets -/

/-- A call `client({ method, url })` or `client(url, { method })`. -/
def requestTarget? (args : List Cursor) : Option CallTarget := do
  let first ← args.head?
  if first.kind = "object" then
    let method := (methodOption? first).getD .get
    let path :=
      match objectProperty? first "url" with
      | some u => addressOf u.node
      | none => CallTarget.dynamicPath
    some (.http method path)
  else some (.http (secondMethod args) (addressOf first.node))

def httpTarget? (settings : ExtractionSettings) (chain : Chain) (root : String) (call : Cursor) :
    Option CallTarget :=
  let args := arguments call
  let isClient := settings.httpClients.contains root
  match chain.segments with
  | [] =>
    if root = "fetch" then some (.http (secondMethod args) (firstAddress args))
    else if isClient then requestTarget? args
    else none
  | [verb] =>
    if isClient && chain.rootCall.isNone then
      if verb.name = "request" then requestTarget? args
      else (HttpMethod.parse? verb.name).map fun method => .http method (firstAddress args)
    else none
  | _ => none

/-- The operation of a client chain: the first family that one of its methods belongs to. -/
def dbOperation (methods : List String) : DbOperation :=
  let has (names : List String) : Bool := methods.any names.contains
  if has ["auth"] then .auth
  else if has ["rpc", "$queryRaw", "$executeRaw"] then .rpc
  else if has ["upsert"] then .upsert
  else if has ["insert", "create", "createMany"] then .insert
  else if has ["update", "updateMany"] then .update
  else if has ["delete", "deleteMany", "remove"] then .delete
  else if has ["select", "findMany", "findUnique", "findFirst", "findUniqueOrThrow",
    "findFirstOrThrow", "count",
      "aggregate", "groupBy"] then .select
  else .query

/-- A receiver is a data client when its name contains the name of one, in either case. -/
def isDataClient (settings : ExtractionSettings) (name : String) : Bool :=
  settings.dataClients.any fun c => Text.contains (Text.lower name) (Text.lower c)

/-- The table of a client chain: the literal argument of `from` or `rpc`, else the model before the
method. -/
def tableOf? (methods : List Segment) : Option String :=
  let named := do
    let segment ← methods.find? fun s => (s.name == "from" || s.name == "rpc") && s.call.isSome
    let call ← segment.call
    literalText? (← (arguments call).head?).node
  named <|>
    match methods with
    | model :: _ :: _ => if model.call.isNone && model.name != "auth" then some model.name else none
    | _ => none

def databaseTarget? (settings : ExtractionSettings) (chain : Chain)
    (root : String) : Option CallTarget := do
  let (client, methods) ←
    if root = "this" then
      match chain.segments with
      | [] => none
      | first :: rest => some (first.name, rest)
    else if chain.rootCall.isSome then none
    else some (root, chain.segments)
  if isDataClient settings client && methods.any (·.call.isSome) then
    some (.database client (dbOperation (methods.map (·.name))) (tableOf? methods))
  else none

def namedTarget? (chain : Chain) (root : String) : Option CallTarget :=
  match chain.segments.getLast? with
  | none => if root = "this" then none else some (.plain root)
  | some last =>
    let receivers := chain.segments.dropLast
    if chain.rootCall.isSome || receivers.any (·.call.isSome) then none
    else some (.member (Text.join "." (root :: receivers.map (·.name))) last.name)

/-! ## Shapes -/

/-- How a call expression is treated. -/
inductive CallShape where
  /-- The target is recorded and the whole call is walked. -/
  | plain (target : CallTarget)
  /-- A client chain is recorded once, and only these argument lists are walked. -/
  | chain (target : CallTarget) (argumentLists : List Cursor)
  /-- Nothing is recorded, and the whole call is walked. -/
  | unrecorded

def CallShape.of (settings : ExtractionSettings) (call : Cursor) : CallShape :=
  let chain := Chain.read call
  if chain.root.kind = "identifier" ∨ chain.root.kind = "this" then
    let root := chain.root.text
    match databaseTarget? settings chain root with
    | some target => .chain target chain.argumentLists
    | none =>
      match httpTarget? settings chain root call with
      | some target => .plain target
      | none =>
        match namedTarget? chain root with
        | some target => .plain target
        | none => .unrecorded
  else .unrecorded

end CallAtlas.Extraction
