import CallAtlas.Job.Table

/-!
# Job.Queue — workers for a table of jobs

Jobs are taken up in the order in which they were submitted, as many at a time as there are workers,
and only while someone waits for a job. The work on a job that was taken up goes on when nobody
waits any more, but its result comes into the table with the next wait. Then all the results that
are there by now are entered before the one who waits looks at the table.
-/

namespace CallAtlas

structure JobQueue where
  pipeline : Pipeline
  /-- Number of jobs that are worked on at the same time. -/
  workers : Nat := 1
  table : JobTable := {}
  /-- Jobs that no worker has taken up, with their files. -/
  waiting : List (JobId × List SourceFile) := []
  /-- Jobs that are worked on, the one taken up first first. -/
  active : List (JobId × List SourceFile) := []
  /-- Results that are not in the table yet. -/
  ready : List (JobId × RunOutput) := []
  /-- Number of jobs submitted so far; the next id. -/
  submitted : Nat := 0
  clock : Nat := 0

namespace JobQueue

/-- There is at least one worker, and at least one finished job is kept. -/
def make (pipeline : Pipeline) (workers retention : Nat) : JobQueue :=
  { pipeline, workers := max workers 1, table := { retention := max retention 1 } }

/-- Submits a job, whose id is the number of jobs before it. -/
def submit (q : JobQueue) (files : List SourceFile) : JobQueue :=
  { q with
    table := q.table.submit q.submitted files.length q.clock
    waiting := q.waiting ++ [(q.submitted, files)]
    submitted := q.submitted + 1
    clock := q.clock + 1 }

/-- Phases that a run enters, in their order. -/
def phasesOf (events : List ProgressEvent) : List Phase :=
  events.filterMap fun e =>
    match e with
    | .started phase _ => some phase
    | .completed .. => none

/-- A free worker takes up the next job. A worker is free again when the result of its job is in the
table. -/
def takeUp (q : JobQueue) : JobQueue :=
  match q.waiting with
  | [] => q
  | (id, files) :: rest =>
    if q.active.length + q.ready.length < q.workers then
      { q with
        table := q.table.start id q.clock
        waiting := rest
        active := q.active ++ [(id, files)]
        clock := q.clock + 1 }
    else q

/-- The work on the job that was taken up first ends, with all its phases behind it. -/
def endWork (q : JobQueue) : JobQueue :=
  match q.active with
  | [] => q
  | (id, files) :: rest =>
    let output := q.pipeline.run files
    { q with
      table := (phasesOf (Pipeline.runEvents files.length output)).foldl (·.enterPhase id ·) q.table
      active := rest
      ready := q.ready ++ [(id, output)] }

/-- Enough time passes for all the work that was taken up to end. -/
def pause (q : JobQueue) : JobQueue := q.active.foldl (fun q _ => q.endWork) q

/-- The first result is entered into the table. -/
def record (q : JobQueue) : JobQueue :=
  match q.ready with
  | [] => q
  | (id, output) :: rest =>
    { q with table := q.table.finish id (.ok output) q.clock, ready := rest, clock := q.clock + 1 }

/-- What happens until the one who waits looks at the table again: the free workers take up jobs,
and the results that are there, or else the first one to come, are entered. -/
def round (q : JobQueue) : JobQueue :=
  let started := q.waiting.foldl (fun q _ => q.takeUp) q
  let worked := if started.ready.isEmpty then started.endWork else started
  worked.ready.foldl (fun q _ => q.record.takeUp) worked

/-- Number of jobs that are not finished. -/
def unfinished (q : JobQueue) : Nat := q.waiting.length + q.active.length + q.ready.length

/-- Goes on until a job is no longer pending or running. -/
def runUntil (q : JobQueue) (id : JobId) : JobQueue :=
  let next := q.round
  if (next.table.status? id).any (!·.state.isFinished) ∧ next.unfinished < q.unfinished then
    next.runUntil id else next
termination_by q.unfinished
decreasing_by
  rename_i hleft
  exact hleft.2

/-- Waits until a job is finished. An unknown job is not waited for. -/
def wait (q : JobQueue) (id : JobId) : Option JobStatus × JobQueue :=
  match q.table.status? id with
  | none => (none, q)
  | some s =>
    if s.state.isFinished then (some s, q)
    else
      let done := q.runUntil id
      (done.table.status? id, done)

/-- Removes a finished job. -/
def remove (q : JobQueue) (id : JobId) : Option JobStatus × JobQueue :=
  (if q.table.isRemovable id then
    q.table.status? id else none, { q with table := q.table.remove id })

end JobQueue

end CallAtlas
