import CallAtlas.Graph.Query
import CallAtlas.Journey.Label
import CallAtlas.Settings.Basic

/-!
# Journey — what happens, in order, from a declaration on

A journey is a depth-first walk over the calls in the order in which they are written. Calls that
leave the analysed code are steps without successors. A declaration that is already on the path is a
step once more, marked as looped, and is not entered again. The walk stops for good at the visit
limit and does not go below the depth limit.
-/

namespace CallAtlas

inductive StepKind where
  | entry | call | render | apiRequest | external
deriving DecidableEq, Repr

namespace StepKind

def name : StepKind → String
  | .entry => "entry"
  | .call => "call"
  | .render => "render"
  | .apiRequest => "api_request"
  | .external => "external"

def ofEdge (e : EdgeData) : StepKind :=
  match e.kind, e.via with
  | .apiRequest, _ => .apiRequest
  | .calls, .render => .render
  | .calls, .direct | .calls, .handler => .call

end StepKind

structure JourneyStep where
  /-- Position in the journey, from one. -/
  order : Nat
  /-- Id of a declaration, or of an external call. -/
  declarationId : String
  label : String
  isExternalCall : Bool
  /-- The declaration was already on the path. -/
  looped : Bool
  depth : Nat
  kind : StepKind
  /-- Line of the call that led here, none at the start. -/
  line : Option Nat
  awaited : Bool
  conditional : Bool
deriving DecidableEq, Repr

structure Journey where
  entryId : String
  title : String
  trigger : Trigger
  steps : List JourneyStep
  /-- A limit cut the walk short. -/
  truncated : Bool
deriving DecidableEq, Repr

namespace Journey

def externalSteps (j : Journey) : List JourneyStep := j.steps.filter (·.isExternalCall)

def conditionalSteps (j : Journey) : List JourneyStep := j.steps.filter (·.conditional)

/-- What a walk still has to do. -/
inductive Task where
  | visit (d : Declaration) (depth : Nat) (kind : StepKind) (line : Option Nat) (flags : CallFlags)
  | leaveCode (e : ExternalEdge) (depth : Nat)
  /-- All below this declaration is done. -/
  | finish (id : String)
deriving DecidableEq, Repr

namespace Task

def line : Task → Nat
  | visit _ _ _ line _ => line.getD 0
  | leaveCode e _ => e.line
  | finish _ => 0

/-- The step of a task, given its position and the declarations on the path. -/
def step? (g : CallGraph) (path : List String) (order : Nat) : Task → Option JourneyStep
  | visit d depth kind line flags =>
    some {
      order, depth, kind, line
      declarationId := d.id
      label := d.stepLabel (g.file? d.filePath)
      isExternalCall := false
      looped := path.contains d.id
      awaited := flags.awaited
      conditional := flags.conditional }
  | leaveCode e depth =>
    some {
      order, depth
      declarationId := e.stepId
      label := e.label
      isExternalCall := true
      looped := false
      kind := .external
      line := some e.line
      awaited := e.flags.awaited
      conditional := e.flags.conditional }
  | finish _ => none

end Task

/-- Whether an external call is shown. A request that a handler serves continues there instead. -/
def shows (settings : JourneySettings) (e : ExternalEdge) : Bool :=
  match e.kind with
  | .http => e.matchedHandler.isNone
  | .database => true
  | .unresolved => settings.includeUnresolved

/-- What follows a declaration, by line; on one line internal calls come first. -/
def children (g : CallGraph) (settings : JourneySettings) (d : Declaration)
    (depth : Nat) : List Task :=
  let inner := (g.calleeEdges d.id).map fun (callee, e) =>
    Task.visit callee depth (.ofEdge e) (some e.line) e.flags
  let outer := ((g.externalsFrom d.id).filter (shows settings)).map (Task.leaveCode · depth)
  Order.sortOn Order.count Task.line (inner ++ outer)

/-- A walk in progress. -/
structure Progress where
  todo : List Task
  /-- Declarations whose calls are being followed. -/
  path : List String := []
  steps : List JourneyStep := []
  truncated : Bool := false
deriving DecidableEq, Repr

namespace Progress

/-- Records the step of a task. -/
def record (p : Progress) (g : CallGraph) (task : Task) : Progress :=
  { p with steps := p.steps ++ (task.step? g p.path (p.steps.length + 1)).toList }

/-- Does one task other than `finish`. -/
def perform (p : Progress) (g : CallGraph) (settings : JourneySettings) (task : Task) : Progress :=
  let done := p.record g task
  match task with
  | .leaveCode .. | .finish _ => done
  | .visit d depth .. =>
    if p.path.contains d.id then done
    else
      match children g settings d (depth + 1) with
      | [] => done
      | below =>
        if settings.limits.maxDepth ≤ depth then { done with truncated := true }
        else { done with todo := below ++ .finish d.id :: p.todo, path := d.id :: p.path }

/-- Works off the tasks. Every round finishes a declaration, makes a step, or is the last. -/
def run (g : CallGraph) (settings : JourneySettings) : Nat → Progress → Progress
  | 0, p => p
  | fuel + 1, p =>
    match p.todo with
    | [] => p
    | .finish id :: todo => run g settings fuel { p with todo, path := p.path.erase id }
    | task :: todo =>
      if settings.limits.maxVisits ≤ p.steps.length then { p with todo, truncated := true }
      else run g settings fuel ({ p with todo }.perform g settings task)

end Progress

/-- The journey from a declaration of the graph. -/
def start (g : CallGraph) (settings : JourneySettings) (d : Declaration) : Journey :=
  let begun : Progress := { todo := [.visit d 0 .entry none {}] }
  let ended := begun.run g settings (2 * settings.limits.maxVisits + 2)
  let file := g.file? d.filePath
  { entryId := d.id
    title := d.stepLabel file
    trigger := .infer d file
    steps := ended.steps
    truncated := ended.truncated }

/-- The journey from an id or a name. -/
def synthesize (g : CallGraph) (settings : JourneySettings) (query : String) :
    Except AnalysisError Journey :=
  (g.resolveTarget query).map (start g settings)

/-- One journey for each entry point, by id. -/
def synthesizeAll (g : CallGraph) (settings : JourneySettings) : List Journey :=
  (g.entryPoints.filterMap g.node?).map (start g settings)

end Journey

end CallAtlas
