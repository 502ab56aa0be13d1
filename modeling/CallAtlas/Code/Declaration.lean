/-!
# Code.Declaration — named functions, classes, methods and types of one file
-/

namespace CallAtlas

inductive DeclarationKind where
  /-- A `function` declaration, or a function expression bound to a name. -/
  | function
  /-- A class method, or a class property that holds a function. -/
  | method
  | classDecl
  /-- An exported interface, type alias or enum. -/
  | typeDecl
  /-- An arrow function bound to a name. -/
  | arrowFn
deriving DecidableEq, Repr

namespace DeclarationKind

def all : List DeclarationKind := [.function, .method, .classDecl, .typeDecl, .arrowFn]

def name : DeclarationKind → String
  | .function => "function"
  | .method => "method"
  | .classDecl => "class"
  | .typeDecl => "type"
  | .arrowFn => "arrowFn"

/-- Whether the declaration has a body that can make calls. -/
def isCallable : DeclarationKind → Bool
  | .function | .method | .arrowFn => true
  | .classDecl | .typeDecl => false

end DeclarationKind

/-- Lines of a declaration, counted from one, both ends included. -/
structure LineSpan where
  startLine : Nat
  endLine : Nat
deriving DecidableEq, Repr

namespace LineSpan

def covers (s : LineSpan) (line : Nat) : Bool := s.startLine ≤ line && line ≤ s.endLine

end LineSpan

/-- How the body of a callable deals with failures; nested declarations have their own. -/
structure ErrorHandling where
  /-- A `try` with a `catch` clause. -/
  tryCatch : Bool := false
  /-- A `.catch(...)` chained onto a promise. -/
  promiseCatch : Bool := false
  /-- A `throw` outside any local `try`. -/
  throws : Bool := false
deriving DecidableEq, Repr

namespace ErrorHandling

def handles (e : ErrorHandling) : Bool := e.tryCatch || e.promiseCatch

end ErrorHandling

structure Declaration where
  /-- The form is `<path>:<name>` or `<path>:<Class>.<method>`. -/
  id : String
  name : String
  kind : DeclarationKind
  exported : Bool
  /-- Parameter list and return annotation. -/
  signature : String
  span : LineSpan
  filePath : String
  /-- Class name of a method. -/
  container : Option String := none
  /-- Id of the declaration that this one is nested in. -/
  enclosing : Option String := none
  isAsync : Bool := false
  /-- The body produces markup. -/
  returnsUi : Bool := false
  errors : ErrorHandling := {}
deriving DecidableEq, Repr

namespace Declaration

/-- Neither nested in a function nor a class member. -/
def isTopLevel (d : Declaration) : Bool := d.enclosing.isNone && d.container.isNone

/-- Gives `Class.method` for methods, the plain name otherwise. -/
def qualifiedName (d : Declaration) : String :=
  match d.container with
  | some c => c ++ "." ++ d.name
  | none => d.name

end Declaration

end CallAtlas
