import CallAtlas.Text.Basic

/-!
# DataFlow — where a value comes from and where it goes

A trace follows one identifier inside one file. Sources are declarations, assignments and
parameters; destinations are the places where the value is used.
-/

namespace CallAtlas.DataFlow

inductive Direction where
  | backward | forward | both
deriving DecidableEq, Repr

namespace Direction

def all : List Direction := [.backward, .forward, .both]

def name : Direction → String
  | .backward => "backward"
  | .forward => "forward"
  | .both => "both"

def parse? (s : String) : Option Direction := all.find? (·.name = s)

/-- Why a text is no direction. -/
def problem (s : String) : String :=
  "unknown direction \x60" ++ s ++ "\x60 (expected backward, forward or both)"

def wantsSources (d : Direction) : Bool := d != .forward

def wantsDestinations (d : Direction) : Bool := d != .backward

end Direction

inductive SourceKind where
  | userInput | apiResponse | database | localStorage | urlParam | state | constant | computed
  /-- Copied from another variable. -/
  | alias
  | parameter
deriving DecidableEq, Repr

namespace SourceKind

def all : List SourceKind :=
  [.userInput, .apiResponse, .database, .localStorage, .urlParam, .state, .constant, .computed,
    .alias, .parameter]

def name : SourceKind → String
  | .userInput => "user_input"
  | .apiResponse => "api_response"
  | .database => "database"
  | .localStorage => "local_storage"
  | .urlParam => "url_param"
  | .state => "state"
  | .constant => "constant"
  | .computed => "computed"
  | .alias => "alias"
  | .parameter => "parameter"

/-- The kind in words. -/
def label : SourceKind → String
  | .userInput => "user input"
  | .apiResponse => "API response"
  | .database => "database"
  | .localStorage => "browser storage"
  | .urlParam => "URL parameter"
  | .state => "component state"
  | .constant => "constant"
  | .computed => "computed value"
  | .alias => "another variable"
  | .parameter => "parameter"

end SourceKind

inductive DestinationKind where
  | uiDisplay | apiRequest | database | localStorage | stateUpdate | log | returned | argument
  /-- Part of the value of another variable. -/
  | derived
deriving DecidableEq, Repr

namespace DestinationKind

def all : List DestinationKind :=
  [.uiDisplay, .apiRequest, .database, .localStorage, .stateUpdate, .log, .returned,
    .argument, .derived]

def name : DestinationKind → String
  | .uiDisplay => "ui_display"
  | .apiRequest => "api_request"
  | .database => "database"
  | .localStorage => "local_storage"
  | .stateUpdate => "state_update"
  | .log => "log"
  | .returned => "return"
  | .argument => "argument"
  | .derived => "derived"

/-- The kind in words. -/
def label : DestinationKind → String
  | .uiDisplay => "screen"
  | .apiRequest => "API request"
  | .database => "database"
  | .localStorage => "browser storage"
  | .stateUpdate => "state update"
  | .log => "log"
  | .returned => "return value"
  | .argument => "function argument"
  | .derived => "another variable"

end DestinationKind

structure Source where
  kind : SourceKind
  line : Nat
  /-- Text of the value, shortened. -/
  detail : String
  /-- Innermost declaration around the line. -/
  declarationId : Option String := none
  /-- Callers that pass a parameter, or the function that computes the value. -/
  linkedIds : List String := []
deriving DecidableEq, Repr

structure Destination where
  kind : DestinationKind
  line : Nat
  detail : String
  declarationId : Option String := none
  /-- The function that gets the value as an argument. -/
  calleeId : Option String := none
deriving DecidableEq, Repr

structure Trace where
  file : String
  identifier : String
  /-- The declaration to which the query's line restricts the trace. -/
  scopeId : Option String := none
  /-- By line. -/
  sources : List Source
  /-- By line. -/
  destinations : List Destination
  /-- A limit cut the trace short. -/
  truncated : Bool
deriving DecidableEq, Repr

namespace Trace

/-- One sentence on where the value comes from and where it goes. -/
def summary (t : Trace) : String :=
  let at_ (label : String) (line : Nat) : String := label ++ " (line " ++ Text.decimal line ++ ")"
  let origins := t.sources.map fun s => at_ s.kind.label s.line
  let uses := t.destinations.map fun d => at_ d.kind.label d.line
  let name := "\x60" ++ t.identifier ++ "\x60"
  match origins, uses with
  | [], [] => name ++ " has no traced sources or destinations"
  | _ :: _, [] => name ++ " comes from " ++ Text.join ", " origins
  | [], _ :: _ => name ++ " goes to " ++ Text.join ", " uses
  | _ :: _, _ :: _ =>
    name ++ " comes from " ++ Text.join ", " origins ++ " and goes to " ++ Text.join ", " uses

end Trace

structure Query where
  identifier : String
  /-- Restricts the trace to the innermost declaration around this line. -/
  line : Option Nat := none
  direction : Direction := .both
deriving DecidableEq, Repr

end CallAtlas.DataFlow
