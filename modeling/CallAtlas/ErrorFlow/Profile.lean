import CallAtlas.ErrorFlow.Trace

/-!
# ErrorFlow.Profile — how each callable deals with failures

A declaration raises when its own body lets an error out: by a `throw` outside any local `try`, or
by a request or database call that is not guarded where it stands.
-/

namespace CallAtlas

inductive ErrorRisk where
  /-- No error leaves the declaration. -/
  | safe
  /-- Errors leave it and stay below the entry points. -/
  | warning
  /-- An entry point lets an error through. -/
  | danger
deriving DecidableEq, Repr

namespace ErrorRisk

def all : List ErrorRisk := [.safe, .warning, .danger]

def name : ErrorRisk → String
  | .safe => "safe"
  | .warning => "warning"
  | .danger => "danger"

end ErrorRisk

structure ErrorProfile where
  id : String
  name : String
  filePath : String
  line : Nat
  isAsync : Bool
  handling : ErrorHandling
  /-- What lets an error out of the body itself. -/
  raises : List String
  /-- Declarations whose errors arrive here, by id. -/
  receivesFrom : List String
  /-- Some caller gets an error without catching it. -/
  propagatesToCallers : Bool
  risk : ErrorRisk
  reason : Option String
deriving DecidableEq, Repr

namespace CallGraph

/-- Why errors can leave the body of a declaration. -/
def raiseSources (g : CallGraph) (d : Declaration) : List String :=
  let unguarded := (g.externalsFrom d.id).filter fun e => e.kind != .unresolved && !e.flags.guarded
  (if d.errors.throws then ["throw"] else []) ++ unguarded.map (·.target)

/-- Another declaration calls this one at a site that is not guarded. -/
def hasUnguardedCaller (g : CallGraph) (id : String) : Bool :=
  (g.callerEdges id).any fun (caller, e) => e.kind = .calls && !e.flags.guarded && caller.id != id

end CallGraph

namespace ErrorProfile

def escapes (p : ErrorProfile) : Bool := !p.raises.isEmpty || !p.receivesFrom.isEmpty

/-- The profile of a declaration, given what it raises and whose errors arrive. -/
def make (g : CallGraph) (d : Declaration) (raises receivesFrom : List String) : ErrorProfile :=
  let escaping := !raises.isEmpty || !receivesFrom.isEmpty
  let propagates := escaping && g.hasUnguardedCaller d.id
  let (risk, reason) :=
    if !escaping then (ErrorRisk.safe, none)
    else if g.isEntryPoint d.id then (.danger, some "unhandled errors reach an entry point")
    else if propagates then (.warning, some "errors propagate to callers")
    else (.warning, some "errors escape with no unguarded caller")
  { id := d.id
    name := d.name
    filePath := d.filePath
    line := d.span.startLine
    isAsync := d.isAsync
    handling := d.errors
    raises, receivesFrom
    propagatesToCallers := propagates
    risk, reason }

/-- The profiles of all callables, by id. -/
def all (g : CallGraph) (settings : ErrorSettings) : List ErrorProfile :=
  let callables := (g.declarations.filter (·.kind.isCallable)).map fun d => (d, g.raiseSources d)
  let traces :=
    (callables.filter (!·.2.isEmpty)).map fun (d, _) => ErrorTrace.start g settings.limits d
  callables.map fun (d, raises) =>
    make g d raises ((traces.filter fun t => t.reached.any (·.1 = d.id)).map (·.originId))

end ErrorProfile

end CallAtlas
