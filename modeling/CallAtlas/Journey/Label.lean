import CallAtlas.Code.Edge
import CallAtlas.Code.File
import CallAtlas.Code.Naming
import CallAtlas.Journey.Wording
import CallAtlas.Route.Pattern

/-!
# Journey.Label — what the steps of a journey say, and what starts it

Labels are inferred from names, from the kind of a file and from the target of a call.
-/

namespace CallAtlas

inductive TriggerKind where
  | click | submit | load | api | effect | timer | external
deriving DecidableEq, Repr

namespace TriggerKind

def all : List TriggerKind := [.click, .submit, .load, .api, .effect, .timer, .external]

def name : TriggerKind → String
  | .click => "click"
  | .submit => "submit"
  | .load => "load"
  | .api => "api"
  | .effect => "effect"
  | .timer => "timer"
  | .external => "external"

end TriggerKind

/-- What starts a journey. -/
structure Trigger where
  kind : TriggerKind
  /-- What the user interacts with. -/
  element : Option String := none
  handler : String
  label : String
deriving DecidableEq, Repr

namespace Declaration

/-- Method and address of a request handler in a route file. -/
def route? (d : Declaration) : Option String :=
  if Naming.isMethodHandler d then
    (RoutePattern.ofFile? d.filePath).map fun p => d.name ++ " " ++ p.render
  else none

def isScreen (d : Declaration) (file : Option FileSummary) : Bool :=
  d.returnsUi || (file.any (·.isComponent) && Naming.isPascalCase d.name)

/-- The label of a step at this declaration. -/
def stepLabel (d : Declaration) (file : Option FileSummary) : String :=
  match d.route? with
  | some route => "Server handles " ++ route
  | none =>
    if d.isScreen file then Wording.humanize d.name ++ " screen"
    else if Naming.isHook d.name then Wording.humanize (.ofList (d.name.toList.drop 3)) ++ " logic"
    else
      match d.container with
      | some c => Wording.humanize d.name ++ " (" ++ Wording.humanize c ++ ")"
      | none => Wording.humanize d.name

end Declaration

namespace DbOperation

def stepLabel (operation : DbOperation) (client : String) (table : Option String) : String :=
  let data := (table.map (· ++ " data")).getD "data"
  match operation with
  | .select => "Reads " ++ data
  | .insert => "Saves new " ++ data
  | .update => "Updates " ++ data
  | .upsert => "Saves " ++ data
  | .delete => "Deletes " ++ data
  | .rpc => (table.map ("Runs database function " ++ ·)).getD "Runs a database function"
  | .auth => "Checks sign-in with " ++ client
  | .query => "Queries the database"

end DbOperation

namespace ExternalEdge

def label (e : ExternalEdge) : String :=
  match e.kind, e.call with
  | .http, .http method path => "Calls API " ++ method.name ++ " " ++ path
  | .database, .database client operation table => operation.stepLabel client table
  | _, _ => "Calls " ++ e.target

end ExternalEdge

namespace Trigger

/-- What an event handler is called after: the part after `handle` or `on`, of ASCII letters and
digits with a capital first. -/
def eventSubject? (name : String) : Option String := do
  let subject ← Text.stripLead? "handle" name <|> Text.stripLead? "on" name
  let first ← subject.toList.head?
  if Text.isUpper first && subject.toList.all (fun c => Text.isUpper c || Text.isLower c ||
    Text.isDigit c) then
    some subject
  else none

/-- Event words at the end of a handler's name, which are not part of the element. -/
def eventWords : List String := ["Submit", "Click", "Press"]

def timerWords : List String := ["timer", "interval", "poll", "cron", "schedule"]

def ofEvent (name subject : String) : Trigger :=
  let bare := (eventWords.findSome? (Text.stripTail? · subject)).getD subject
  let element := if bare.isEmpty then none else some (Wording.humanize bare)
  let named := element.map Text.lower
  if Text.contains (Text.lower name) "submit" then
    ⟨.submit, element, name, (named.map ("Submits " ++ · ++ " form")).getD "Submits a form"⟩
  else
    ⟨.click, element, name, (named.map ("Clicks " ++ ·)).getD "Clicks a button"⟩

/-- What starts a journey at a declaration. -/
def infer (d : Declaration) (file : Option FileSummary) : Trigger :=
  let lower := Text.lower d.name
  match d.route?, eventSubject? d.name with
  | some route, _ => ⟨.api, none, d.name, "Request to " ++ route⟩
  | none, some subject => ofEvent d.name subject
  | none, none =>
    if timerWords.any (Text.contains lower ·) then
      ⟨.timer, none, d.name, "Runs on a schedule: " ++ Wording.phrase d.name⟩
    else if Text.contains lower "effect" || Naming.isHook d.name then
      ⟨.effect, none, d.name, "Runs automatically: " ++ Wording.phrase d.name⟩
    else if d.isScreen file then
      ⟨.load, none, d.name, "Opens " ++ Wording.phrase d.name ++ " screen"⟩
    else
      ⟨.external, none, d.name, "Called from outside: " ++ Wording.phrase d.name⟩

end Trigger

end CallAtlas
