import CallAtlas.Text.Basic

/-!
# Code.Call — what a declaration calls, and how

A call site is recorded before its target is known: a `CallTarget` says what was written, and the
flags say in which context it stands.
-/

namespace CallAtlas

inductive HttpMethod where
  | get | post | put | patch | delete | head | options
deriving DecidableEq, Repr

namespace HttpMethod

/-- All methods, in the order in which route tables list them. -/
def all : List HttpMethod := [.get, .post, .put, .patch, .delete, .head, .options]

def name : HttpMethod → String
  | .get => "GET"
  | .post => "POST"
  | .put => "PUT"
  | .patch => "PATCH"
  | .delete => "DELETE"
  | .head => "HEAD"
  | .options => "OPTIONS"

/-- The method with this name, in upper or lower case. -/
def parse? (s : String) : Option HttpMethod := all.find? fun m => Text.sameIgnoringCase m.name s

end HttpMethod

inductive DbOperation where
  | select | insert | update | delete | upsert | rpc | auth | query
deriving DecidableEq, Repr

namespace DbOperation

def all : List DbOperation := [.select, .insert, .update, .delete, .upsert, .rpc, .auth, .query]

def name : DbOperation → String
  | .select => "select"
  | .insert => "insert"
  | .update => "update"
  | .delete => "delete"
  | .upsert => "upsert"
  | .rpc => "rpc"
  | .auth => "auth"
  | .query => "query"

end DbOperation

/-- What a call site invokes. -/
inductive CallTarget where
  /-- A call `name()` or `receiver.name()`. -/
  | named (name : String) (receiver : Option String)
  /-- A request to a path. -/
  | http (method : HttpMethod) (path : String)
  /-- A call chain on a database or service client. -/
  | database (client : String) (operation : DbOperation) (table : Option String)
deriving DecidableEq, Repr

namespace CallTarget

/-- The path of a request whose address is not a literal. -/
def dynamicPath : String := "<dynamic>"

def plain (name : String) : CallTarget := .named name none

def member (receiver name : String) : CallTarget := .named name (some receiver)

/-- The callee as it is shown. -/
def displayName : CallTarget → String
  | .named name (some receiver) => receiver ++ "." ++ name
  | .named name none => name
  | .http method path => method.name ++ " " ++ path
  | .database client operation (some table) =>
    client ++ "." ++ operation.name ++ "(" ++ table ++ ")"
  | .database client operation none => client ++ "." ++ operation.name

def isNamed : CallTarget → Bool
  | .named .. => true
  | .http .. | .database .. => false

end CallTarget

/-- How a call site was written. -/
inductive CallVia where
  /-- A call expression. -/
  | direct
  /-- An element `<Component />`. -/
  | render
  /-- An event attribute `onClick={handleClick}`. -/
  | handler
deriving DecidableEq, Repr

namespace CallVia

def all : List CallVia := [.direct, .render, .handler]

def name : CallVia → String
  | .direct => "direct"
  | .render => "render"
  | .handler => "handler"

end CallVia

/-- Context of a call at its site. -/
structure CallFlags where
  /-- The call is the operand of `await`. -/
  awaited : Bool := false
  /-- Inside an `if`, a `switch` or a ternary. -/
  conditional : Bool := false
  /-- A failure is caught at the site. -/
  guarded : Bool := false
deriving DecidableEq, Repr

structure CallSite where
  callerId : String
  target : CallTarget
  /-- Import source of the callee or its receiver, when it is imported. -/
  calleeModule : Option String := none
  line : Nat
  via : CallVia := .direct
  flags : CallFlags := {}
deriving DecidableEq, Repr

namespace CallSite

def calleeName (s : CallSite) : String := s.target.displayName

/-- Requests and database calls leave the analysed code whatever it holds. -/
def isExternal (s : CallSite) : Bool := !s.target.isNamed

end CallSite

end CallAtlas
