import CallAtlas.Extraction.State

/-!
# Extraction.Walk — declarations, imports and calls of a syntax tree

The walk is one pass over the tree. Each node is one of a few constructs, and every construct has
one rule. A rule gets the walk of the nodes below as an argument, so that it can be studied on its
own; `walk` ties the knot on a budget of nesting levels. Broken nodes are skipped with all below
them, so a file with a syntax error still yields its well-formed declarations.
-/

namespace CallAtlas.Extraction

open CallAtlas.Tree

inductive Construct where
  | importStmt | exportStmt | functionDecl | classDecl | methodDecl | fieldDecl | variables
  | typeDecl | callExpr | element | elementAttr | branch | tryStmt | throwStmt | skipped | other
deriving DecidableEq, Repr

def Construct.of (n : Node) : Construct :=
  if n.isBroken then .skipped
  else
    match n.kind with
    | "import_statement" => .importStmt
    | "export_statement" => .exportStmt
    | "function_declaration" | "generator_function_declaration" => .functionDecl
    | "class_declaration" | "abstract_class_declaration" => .classDecl
    | "method_definition" => .methodDecl
    | "public_field_definition" | "field_definition" => .fieldDecl
    | "lexical_declaration" | "variable_declaration" => .variables
    | "interface_declaration" | "type_alias_declaration" | "enum_declaration" => .typeDecl
    | "call_expression" => .callExpr
    | "jsx_element" | "jsx_self_closing_element" => .element
    | "jsx_attribute" => .elementAttr
    | "if_statement" | "ternary_expression" | "switch_statement" => .branch
    | "try_statement" => .tryStmt
    | "throw_statement" => .throwStmt
    | "comment" => .skipped
    | _ => .other

/-! ## Function values -/

/-- Expressions that only wrap another one. -/
def isWrapper (kind : String) : Bool :=
  kind == "parenthesized_expression" || kind == "as_expression" || kind == "satisfies_expression"
    || kind == "non_null_expression"

/-- The expression inside parentheses, casts and assertions. -/
def unwrapped (c : Cursor) : Cursor :=
  c.follow fun n => if isWrapper n.kind then some .firstNamed else none

/-- Calls whose function argument is the real body of a declaration. -/
def functionWrappers : List String :=
  ["memo", "forwardRef", "useCallback", "observer", "React.memo", "React.forwardRef",
    "React.useCallback"]

/-- A call of one of these. -/
def isWrapperCall (n : Node) : Bool :=
  n.kind == "call_expression" &&
    (n.children.find? (·.fills "function")).any fun callee => functionWrappers.contains callee.text

def isFunctionKind (kind : String) : Bool :=
  kind == "arrow_function" || kind == "function_expression" || kind == "function" ||
    kind == "generator_function"

mutual

/-- The function that a node comes to: wrapping expressions are seen through, and so are wrapper
calls. -/
def functionFrom (above : List Node) : Node → Option Cursor
  | .mk label children =>
    let n : Node := .mk label children
    if isWrapper n.kind then functionOfFirst (n :: above) children
    else if isFunctionKind n.kind then some ⟨n, above⟩
    else if isWrapperCall n then functionOfArguments (n :: above) children
    else none

/-- The function that the first named one of some siblings comes to. -/
def functionOfFirst (above : List Node) : List Node → Option Cursor
  | [] => none
  | n :: rest => if n.isNamed then functionFrom above n else functionOfFirst above rest

/-- The function that the first argument of a call comes to. -/
def functionOfArguments (above : List Node) : List Node → Option Cursor
  | [] => none
  | .mk label children :: rest =>
    let n : Node := .mk label children
    if n.fills "arguments" then functionOfFirst (n :: above) children
    else functionOfArguments above rest

end

/-- The function behind a bound value. -/
def functionValue? (value : Cursor) : Option Cursor := functionFrom value.above value.node

def callableKind (callable : Cursor) : DeclarationKind :=
  if callable.kind = "arrow_function" then .arrowFn else .function

/-! ## Rules -/

/-- What is fixed during the walk of one file. -/
structure Context where
  path : String
  settings : ExtractionSettings
  /-- Levels of nesting that are walked. -/
  maxDepth : Nat := 400

/-- The walk of one node in a scope. -/
abbrev Walker := Cursor → Scope → State → State

/-- Walks nodes in order. -/
def walkAll (walker : Walker) (nodes : List Cursor) (scope : Scope) (st : State) : State :=
  nodes.foldl (fun st c => walker c scope st) st

/-- Walks the named children. -/
def walkChildren (walker : Walker) (c : Cursor) (scope : Scope) (st : State) : State :=
  walkAll walker c.namedChildren scope st

/-- Declares a callable and walks its body as the new owner. -/
def declareCallable (ctx : Context) (walker : Walker) (place callable : Cursor) (name : String)
    (kind : DeclarationKind) (scope : Scope) (st : State) : State :=
  let i := st.declarations.length
  walkChildren walker callable (scope.inside i)
    (st.declare ctx.path place (some callable) name kind scope)

/-- The names that one part of an import clause binds. -/
def clauseBindings (part : Cursor) : List ImportBinding :=
  match part.kind with
  | "identifier" => [⟨part.text, "default", false⟩]
  | "namespace_import" =>
    match part.namedChildren.find? (·.kind == "identifier") with
    | some c => [⟨c.text, "*", true⟩]
    | none => []
  | "named_imports" =>
    part.namedChildren.filterMap fun spec =>
      if spec.kind = "import_specifier" then
        (spec.field? "name").map fun name =>
          let imported := unquote name.text
          ⟨((spec.field? "alias").map Cursor.text).getD imported, imported, false⟩
      else none
  | _ => []

def importRule (c : Cursor) (st : State) : State :=
  match c.field? "source" with
  | none => st
  | some source =>
    let clauses := c.namedChildren.filter (·.kind == "import_clause")
    let info : ImportInfo :=
      { source := unquote source.text
        bindings := clauses.flatMap fun clause => clause.namedChildren.flatMap clauseBindings
        typeOnly := c.node.hasToken "type"
        line := c.line }
    { st with imports := st.imports ++ [info] }

/-- The names listed in the clauses of an export statement. -/
def clauseNames (c : Cursor) : List String :=
  (c.namedChildren.filter (·.kind == "export_clause")).flatMap fun clause =>
    clause.namedChildren.filterMap fun spec => (spec.field? "name").map Cursor.text

/-- An export from another module declares nothing. -/
def exportRule (ctx : Context) (walker : Walker) (c : Cursor) (scope : Scope)
    (st : State) : State :=
  if (c.field? "source").isSome then st
  else
    let exported := { scope with exported := true, defaultExport := c.node.hasToken "default" }
    match c.field? "declaration" with
    | some declaration => walker declaration exported st
    | none =>
      match c.field? "value" with
      | some value =>
        let value := unwrapped value
        if value.kind = "identifier" then
          { st with exportedNames := st.exportedNames ++ [value.text] }
        else
          match functionValue? value with
          | some callable =>
            let name := ((callable.field? "name").map Cursor.text).getD "default"
            declareCallable ctx walker c callable name (callableKind callable) exported st
          | none => walker value scope.plain st
      | none => { st with exportedNames := st.exportedNames ++ clauseNames c }

/-- The name of a declaration; a default export may go without. -/
def declaredName? (c : Cursor) (scope : Scope) : Option String :=
  match c.field? "name" with
  | some name => some name.text
  | none => if scope.defaultExport then some "default" else none

def functionRule (ctx : Context) (walker : Walker) (c : Cursor) (scope : Scope)
    (st : State) : State :=
  match declaredName? c scope with
  | some name => declareCallable ctx walker c c name .function scope st
  | none => walkChildren walker c scope.plain st

def classRule (ctx : Context) (walker : Walker) (c : Cursor) (scope : Scope) (st : State) : State :=
  match declaredName? c scope with
  | none => walkChildren walker c scope.plain st
  | some name =>
    let i := st.declarations.length
    let st := st.declare ctx.path c none name .classDecl scope
    match c.field? "body" with
    | none => st
    | some body =>
      let members :=
        { scope with
          classIndex := some i, exported := scope.exported && scope.owner.isNone, defaultExport :=
            false
          conditional := false }
      walkChildren walker body members st

/-- A method of an object literal belongs to whoever builds the object. -/
def methodRule (ctx : Context) (walker : Walker) (c : Cursor) (scope : Scope)
    (st : State) : State :=
  match c.field? "name" with
  | some name =>
    if c.parentKind? = some "class_body" then
      declareCallable ctx walker c c name.text .method scope st
    else walkChildren walker c scope.plain st
  | none => walkChildren walker c scope.plain st

def fieldRule (ctx : Context) (walker : Walker) (c : Cursor) (scope : Scope) (st : State) : State :=
  let name := c.field? "name" <|> c.field? "property"
  let callable := (c.field? "value").bind functionValue?
  match name, callable with
  | some name, some callable =>
    if scope.classIndex.isSome then declareCallable ctx walker c callable name.text .method scope st
    else walkChildren walker c scope.plain st
  | _, _ => walkChildren walker c scope.plain st

def declaratorRule (ctx : Context) (walker : Walker) (scope : Scope) (st : State)
    (c : Cursor) : State :=
  if c.kind = "variable_declarator" then
    match c.field? "value" with
    | none => st
    | some value =>
      match (c.field? "name").filter (·.kind == "identifier"), functionValue? value with
      | some name, some callable =>
        declareCallable ctx walker c callable name.text (callableKind callable) scope st
      | _, _ => walker value scope.plain st
  else st

def variablesRule (ctx : Context) (walker : Walker) (c : Cursor) (scope : Scope)
    (st : State) : State :=
  c.namedChildren.foldl (declaratorRule ctx walker scope) st

/-- Only exported types outside functions are declarations. -/
def typeRule (ctx : Context) (c : Cursor) (scope : Scope) (st : State) : State :=
  if scope.exported && scope.owner.isNone then
    match c.field? "name" with
    | some name => st.declare ctx.path c none name.text .typeDecl scope
    | none => st
  else st

/-- The body is guarded when there is a handler; handler and finalizer are not. -/
def tryRule (walker : Walker) (c : Cursor) (scope : Scope) (st : State) : State :=
  let handler := c.field? "handler"
  let st := if handler.isSome then st.markErrors scope fun e => { e with tryCatch := true } else st
  let st :=
    match c.field? "body" with
    | some body =>
      walkChildren walker body { scope.plain with guarded := scope.guarded || handler.isSome } st
    | none => st
  let st :=
    match handler with
    | some part => walkChildren walker part scope.plain st
    | none => st
  match c.field? "finalizer" with
  | some part => walkChildren walker part scope.plain st
  | none => st

def throwRule (walker : Walker) (c : Cursor) (scope : Scope) (st : State) : State :=
  let st := if scope.guarded then st else st.markErrors scope fun e => { e with throws := true }
  walkChildren walker c scope.plain st

def callRule (ctx : Context) (walker : Walker) (c : Cursor) (scope : Scope) (st : State) : State :=
  match scope.owner with
  | none => walkChildren walker c scope.plain st
  | some caller =>
    let st :=
      if invokesMember c "catch" then
        st.markErrors scope fun e => { e with promiseCatch := true } else st
    match CallShape.of ctx.settings c with
    | .plain target => walkChildren walker c scope.plain (st.record caller target c .direct scope)
    | .chain target argumentLists =>
      argumentLists.foldl (fun st args => walkChildren walker args scope.plain st)
        (st.record caller target c .direct scope)
    | .unrecorded => walkChildren walker c scope.plain st

/-- Elements such as `<UserCard />` and `<Layout.Header />` render components, `<div>` does not. -/
def componentTarget? (tag : String) : Option CallTarget :=
  if (tag.toList.head?).any Text.isUpper then
    match Text.splitLast? '.' tag with
    | some (receiver, name) => some (.member receiver name)
    | none => some (.plain tag)
  else none

/-- The node that names the component of an element. -/
def elementTag? (c : Cursor) : Option Cursor :=
  if c.kind = "jsx_element" then c.namedChildren.find? (·.kind == "jsx_opening_element") else some c

def elementRule (walker : Walker) (c : Cursor) (scope : Scope) (st : State) : State :=
  let st := { st with hasJsx := true }
  let target := ((elementTag? c).bind (·.field? "name")).bind fun name => componentTarget? name.text
  let st :=
    match scope.owner, target with
    | some caller, some target => st.record caller target c .render scope
    | _, _ => st
  walkChildren walker c scope.plain st

/-- Names such as `onClick`. -/
def isHandlerName (name : String) : Bool :=
  match name.toList with
  | 'o' :: 'n' :: c :: _ => Text.isUpper c
  | _ => false

/-- What an event attribute wires up: a name, or a method of this object. -/
def handlerTarget? (c : Cursor) : Option CallTarget :=
  match c.kind with
  | "identifier" => some (.plain c.text)
  | "member_expression" => do
    let object ← c.field? "object"
    let property ← c.field? "property"
    if object.kind = "this" then some (.member "this" property.text) else none
  | _ => none

def attributeTarget? (c : Cursor) : Option CallTarget :=
  if (c.namedChild? 0).any fun attr => isHandlerName attr.text then do
    let value ← c.namedChild? 1
    if value.kind = "jsx_expression" then handlerTarget? (← value.namedChild? 0) else none
  else none

def attributeRule (walker : Walker) (c : Cursor) (scope : Scope) (st : State) : State :=
  let st :=
    match scope.owner, attributeTarget? c with
    | some caller, some target => st.record caller target c .handler scope
    | _, _ => st
  walkChildren walker c scope.plain st

/-- The rule of each construct. -/
def rule (ctx : Context) (walker : Walker) (c : Cursor) (scope : Scope) (st : State) : State :=
  match Construct.of c.node with
  | .importStmt => importRule c st
  | .exportStmt => exportRule ctx walker c scope st
  | .functionDecl => functionRule ctx walker c scope st
  | .classDecl => classRule ctx walker c scope st
  | .methodDecl => methodRule ctx walker c scope st
  | .fieldDecl => fieldRule ctx walker c scope st
  | .variables => variablesRule ctx walker c scope st
  | .typeDecl => typeRule ctx c scope st
  | .callExpr => callRule ctx walker c scope st
  | .element => elementRule walker c scope st
  | .elementAttr => attributeRule walker c scope st
  | .branch => walkChildren walker c { scope.plain with conditional := true } st
  | .tryStmt => tryRule walker c scope st
  | .throwStmt => throwRule walker c scope st
  | .skipped => st
  | .other => walkChildren walker c scope.plain st

/-- The walk of one node with some levels of nesting left. -/
def walk (ctx : Context) : Nat → Walker
  | 0, _, _, st => { st with depthLimited := true }
  | budget + 1, c, scope, st => rule ctx (walk ctx budget) c scope st

/-- All that one file declares, imports and calls. -/
def extract (ctx : Context) (root : Node) : State :=
  (walkChildren (walk ctx ctx.maxDepth) ⟨root, []⟩ {} {}).close

end CallAtlas.Extraction
