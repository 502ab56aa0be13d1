import CallAtlas.Order
import CallAtlas.Pipeline

/-!
# Job.Table — analyses in the background

A job is submitted, starts, passes through phases and finishes. Each of these is one step on the
table of all jobs, and steps of different jobs come in any order. Finished jobs are kept up to a
number, those that finished first are dropped first; a job that is not finished is never dropped.
-/

namespace CallAtlas

abbrev JobId := Nat

inductive JobState where
  | pending
  | running (phase : Option Phase)
  | completed (summary : RunSummary)
  | failed (error : String)
deriving DecidableEq, Repr

namespace JobState

def isFinished : JobState → Bool
  | pending | running _ => false
  | completed _ | failed _ => true

end JobState

structure JobStatus where
  id : JobId
  state : JobState := .pending
  /-- Number of files to analyse. -/
  files : Nat
  /-- Times are readings of one clock. -/
  submittedAt : Nat
  startedAt : Option Nat := none
  finishedAt : Option Nat := none
deriving DecidableEq, Repr

structure JobEntry where
  status : JobStatus
  /-- What a completed job produced. -/
  output : Option RunOutput := none

namespace JobEntry

/-- An entry with its result. -/
def finish (e : JobEntry) (result : Except String RunOutput) (now : Nat) : JobEntry :=
  match result with
  | .ok output =>
    { status := { e.status with state := .completed output.summary, finishedAt := some now }
      output := some output }
  | .error error =>
    { e with status := { e.status with state := .failed error, finishedAt := some now } }

end JobEntry

structure JobTable where
  /-- One entry for each id. -/
  entries : List JobEntry := []
  /-- Number of finished jobs that are kept. -/
  retention : Nat := 100

namespace JobTable

def entry? (t : JobTable) (id : JobId) : Option JobEntry := t.entries.find? (·.status.id = id)

def status? (t : JobTable) (id : JobId) : Option JobStatus := (t.entry? id).map (·.status)

/-- The output of a completed job. -/
def output? (t : JobTable) (id : JobId) : Option RunOutput := (t.entry? id).bind (·.output)

/-- All jobs, those submitted first first. -/
def list (t : JobTable) : List JobStatus :=
  Order.sortOn Order.count (·.submittedAt) (t.entries.map (·.status))

/-- Changes the entry of a job, if there is one. -/
def update (t : JobTable) (id : JobId) (f : JobEntry → JobEntry) : JobTable :=
  { t with entries := t.entries.map fun e => if e.status.id = id then f e else e }

/-! ## Steps -/

def submit (t : JobTable) (id : JobId) (files now : Nat) : JobTable :=
  { t with entries := t.entries ++ [{ status := { id, files, submittedAt := now } }] }

def start (t : JobTable) (id : JobId) (now : Nat) : JobTable :=
  t.update id fun e =>
    { e with status := { e.status with state := .running none, startedAt := some now } }

def enterPhase (t : JobTable) (id : JobId) (phase : Phase) : JobTable :=
  t.update id fun e => { e with status := { e.status with state := .running (some phase) } }

/-- The order in which finished jobs are dropped: by the time they finished, then by id. -/
def evictionKey (s : JobStatus) : Nat × JobId := (s.finishedAt.getD s.submittedAt, s.id)

/-- The finished jobs that are too many. -/
def excess (t : JobTable) : List JobId :=
  let finished := (t.entries.map (·.status)).filter (·.state.isFinished)
  let sorted := Order.sortOn (Order.lex Order.count Order.count) evictionKey finished
  (sorted.take (finished.length - t.retention)).map (·.id)

def evict (t : JobTable) : JobTable :=
  { t with entries := t.entries.filter fun e => !t.excess.contains e.status.id }

/-- A job that is no longer in the table stays out of it. -/
def finish (t : JobTable) (id : JobId) (result : Except String RunOutput) (now : Nat) : JobTable :=
  if (t.entry? id).isSome then (t.update id (·.finish result now)).evict else t

/-- Whether a job can be removed: it must be finished. -/
def isRemovable (t : JobTable) (id : JobId) : Bool := (t.status? id).any (·.state.isFinished)

def remove (t : JobTable) (id : JobId) : JobTable :=
  if t.isRemovable id then { t with entries := t.entries.filter (·.status.id != id) } else t

end JobTable

end CallAtlas
