import CallAtlas.Text.Blank
import CallAtlas.Code.File
import CallAtlas.Extraction.Chain

/-!
# Extraction.State — what a walk over a file has found so far

Declarations are numbered in the order in which they are met, and the walk refers to them by number:
a `Scope` knows which declaration owns the calls at a point and which class body the point is in.
-/

namespace CallAtlas.Extraction

open CallAtlas.Tree

/-- What a node inherits from the nodes above it. -/
structure Scope where
  /-- The declaration that owns calls at this point. -/
  owner : Option Nat := none
  /-- The class whose body this is. -/
  classIndex : Option Nat := none
  exported : Bool := false
  defaultExport : Bool := false
  conditional : Bool := false
  /-- Inside a `try` body whose statement has a `catch` clause. -/
  guarded : Bool := false
deriving DecidableEq, Repr

namespace Scope

/-- The same owner, not an export any more. -/
def plain (s : Scope) : Scope := { s with exported := false, defaultExport := false }

/-- The body of declaration `i`. Only the direct members of a class body belong to the class. -/
def inside (s : Scope) (i : Nat) : Scope :=
  { s.plain with owner := some i, classIndex := none, conditional := false, guarded := false }

end Scope

structure State where
  declarations : List Declaration := []
  imports : List ImportInfo := []
  calls : List CallSite := []
  hasJsx : Bool := false
  /-- Some node was nested too deep to be walked. -/
  depthLimited : Bool := false
  /-- Names exported by a statement of their own. -/
  exportedNames : List String := []

/-! ## Ids -/

/-- The first of `base#n`, `base#(n+1)`, … that is free; one of `taken.length + 1` candidates is. -/
def numberedId (taken : List String) (base : String) : Nat → Nat → String
  | 0, n => base ++ "#" ++ Text.decimal n
  | fuel + 1, n =>
    let candidate := base ++ "#" ++ Text.decimal n
    if taken.contains candidate then numberedId taken base fuel (n + 1) else candidate

/-- The wished id, or if it is taken the id with its line, or if that is taken too a numbered
one. -/
def freshId (taken : List String) (wish : String) (line : Nat) : String :=
  if taken.contains wish then
    let base := wish ++ "@" ++ Text.decimal line
    if taken.contains base then numberedId taken base taken.length 2 else base
  else wish

/-! ## Callables -/

/-- Parameters and return annotation on one line of at most a hundred characters. -/
def signature (callable : Cursor) (isAsync : Bool) : String :=
  let params :=
    match callable.field? "parameters" <|> callable.field? "parameter" with
    | some p => p.text
    | none => "()"
  let params := if Text.startsWith params "(" then params else "(" ++ params ++ ")"
  let returns := ((callable.field? "return_type").map Cursor.text).getD ""
  Text.shorten 100 97 "..." (Text.collapse ((if isAsync then "async " else "") ++
    params ++ returns))

/-- Levels of a body that are searched for markup. -/
def maxMarkupDepth : Nat := 400

/-- Whether markup occurs within `budget` levels. -/
def containsJsx : Nat → Node → Bool
  | 0, _ => false
  | budget + 1, n =>
    n.kind == "jsx_element" || n.kind == "jsx_self_closing_element" || n.kind == "jsx_fragment"
      || (n.children.filter Node.isNamed).any (containsJsx budget)

/-! ## Recording -/

namespace State

/-- Adds a declaration; its number is the number of earlier ones. `place` gives its lines,
`callable` its body. -/
def declare (path : String) (place : Cursor) (callable : Option Cursor) (name : String)
    (kind : DeclarationKind) (scope : Scope) (st : State) : State :=
  let container := (scope.classIndex.bind (st.declarations[·]?)).map (·.name)
  let wish :=
    match container with
    | some c => path ++ ":" ++ c ++ "." ++ name
    | none => path ++ ":" ++ name
  let isAsync := callable.any (·.node.hasToken "async")
  let decl : Declaration :=
    { id := freshId (st.declarations.map (·.id)) wish place.line
      name, kind
      exported := scope.exported && scope.owner.isNone
      signature := (callable.map (signature · isAsync)).getD ""
      span := ⟨place.line, place.node.endLine⟩
      filePath := path
      container
      enclosing := (scope.owner.bind (st.declarations[·]?)).map (·.id)
      isAsync
      returnsUi := (callable.bind (·.field? "body")).any (containsJsx maxMarkupDepth ·.node) }
  { st with declarations := st.declarations ++ [decl] }

/-- Changes the error handling of the owner. -/
def markErrors (scope : Scope) (mark : ErrorHandling → ErrorHandling) (st : State) : State :=
  match scope.owner with
  | none => st
  | some i =>
    { st with declarations := st.declarations.modify i fun d => { d with errors := mark d.errors } }

end State

/-- The call is `<object>.<method>(...)`. -/
def invokesMember (call : Cursor) (method : String) : Bool :=
  match call.field? "function" with
  | some f => f.kind == "member_expression" && (f.field? "property").any (·.text == method)
  | none => false

/-- A later link of the chain that starts at the call is a `.catch`, within `links` links. -/
def hasChainedCatch : Nat → Cursor → Bool
  | 0, _ => false
  | links + 1, call =>
    match call.parent? with
    | none => false
    | some member =>
      if member.kind = "member_expression" then
        match member.parent? with
        | none => false
        | some next =>
          if next.kind = "call_expression" then
            invokesMember next "catch" || hasChainedCatch links next
          else false
      else false

/-- Links that are followed in search of a `.catch`. -/
def maxChainLinks : Nat := 32

namespace State

/-- Adds a call site of declaration `caller`. -/
def record (caller : Nat) (target : CallTarget) (node : Cursor) (via : CallVia) (scope : Scope)
    (st : State) : State :=
  match st.declarations[caller]? with
  | none => st
  | some d =>
    let flags : CallFlags :=
      { awaited := node.parentKind? == some "await_expression"
        conditional := scope.conditional
        guarded := scope.guarded || hasChainedCatch maxChainLinks node }
    { st with calls := st.calls ++ [{ callerId := d.id, target, line := node.line, via, flags }] }

/-! ## Closing a file -/

/-- Top-level declarations that an export statement names are exported. -/
def exportNamed (names : List String) (d : Declaration) : Declaration :=
  if d.isTopLevel && names.contains d.name then { d with exported := true } else d

/-- Members of an exported class are exported, unless they are nested in a function. -/
def exportMember (classes : List String) (d : Declaration) : Declaration :=
  if d.enclosing.isNone && d.container.any classes.contains then { d with exported := true } else d

/-- The module that a name is imported from; a later import of the name wins. -/
def moduleOf? (imports : List ImportInfo) (name : String) : Option String :=
  (imports.filter (!·.typeOnly)).foldl
    (fun found i => if i.bindings.any (·.localName = name) then some i.source else found) none

/-- The imported name that a call goes through: the first part of its receiver, or its own name. -/
def importedName? : CallTarget → Option String
  | .named _ (some receiver) => (Text.split '.' receiver).head?
  | .named name none => some name
  | .database client _ _ => some client
  | .http .. => none

/-- Exports and imports are known only when the whole file is walked. -/
def close (st : State) : State :=
  let declarations := st.declarations.map (exportNamed st.exportedNames)
  let classes := (declarations.filter fun d => d.kind = .classDecl && d.exported).map (·.name)
  { st with
    declarations := declarations.map (exportMember classes)
    calls := st.calls.map fun s =>
      { s with calleeModule := (importedName? s.target).bind (moduleOf? st.imports) } }

end State

end CallAtlas.Extraction
