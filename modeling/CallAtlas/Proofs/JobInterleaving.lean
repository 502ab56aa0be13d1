import CallAtlas.Proofs.JobEviction
import Mathlib.Data.List.Induction
import Mathlib.Data.List.Permutation

/-!
# Proofs.JobInterleaving — a table of jobs under any interleaving

Everything that changes the table does so while it holds the table's lock: a job when it is
submitted, when it starts, when it enters a phase and when it finishes, and whoever removes a
finished job. A `JobSection` is one of these. Each job goes through its own sections in this order,
and the sections of different jobs come in any order, with any readings of the clock.

* `Accounted` — what a table owes to the sections behind it; `Accounted.perform` is the step,
  `accounted_after` the run.
* `Accounted.vanishes_running_iff` — when a running job disappears.
* `table_invariant` — what holds of every table, and what the next section may do to it.
-/

namespace CallAtlas

/-! ## Sections -/

inductive JobSection where
  | submit (id : JobId) (files now : Nat)
  | start (id : JobId) (now : Nat)
  | enterPhase (id : JobId) (phase : Phase)
  | finish (id : JobId) (result : Except String RunOutput) (now : Nat)
  | remove (id : JobId)

/-- How far a job is in its own sections. -/
inductive JobStage where
  | unknown | submitted | started | over
deriving DecidableEq, Repr

namespace JobSection

/-- The job that does this. Removing is up to others. -/
def job? : JobSection → Option JobId
  | submit id _ _ | start id _ | enterPhase id _ | finish id _ _ => some id
  | remove _ => none

/-- The stage from which a job does this, and the stage to which it comes. -/
def stages : JobSection → JobStage × JobStage
  | submit _ _ _ => (.unknown, .submitted)
  | start _ _ => (.submitted, .started)
  | enterPhase _ _ => (.started, .started)
  | finish _ _ _ => (.started, .over)
  | remove _ => (.over, .over)

/-- What becomes of the entry of the job that does this. -/
def change : JobSection → JobEntry → JobEntry
  | start _ now, e =>
    { e with status := { e.status with state := .running none, startedAt := some now } }
  | enterPhase _ phase, e => { e with status := { e.status with state := .running (some phase) } }
  | finish _ result now, e => e.finish result now
  | submit _ _ _, e | remove _, e => e

@[simp] theorem id_change (next : JobSection) (e : JobEntry) :
    (next.change e).status.id = e.status.id := by
  cases next with
  | finish id result now => cases result <;> rfl
  | submit | start | enterPhase | remove => rfl

end JobSection

/-- A job does nothing out of its order. -/
def JobStage.next? (stage : JobStage) (next : JobSection) : Option JobStage :=
  if stage = next.stages.1 then some next.stages.2 else none

/-- The stage that a job has come to, if it has kept to the order. -/
def stageOf (id : JobId) (sections : List JobSection) : Option JobStage :=
  (sections.filter (·.job? == some id)).foldlM JobStage.next? .unknown

/-- Every job keeps to its own order. -/
def Interleaving (sections : List JobSection) : Prop := ∀ id, (stageOf id sections).isSome = true

section Stages

variable {sections : List JobSection} {next : JobSection} {id : JobId}

/-- A section of another job leaves a job at its stage. -/
theorem stageOf_append_of_ne (h : next.job? ≠ some id) :
    stageOf id (sections ++ [next]) = stageOf id sections := by
  simp [stageOf, h]

/-- A section of the job itself moves it on, if it is next in program order. -/
theorem stageOf_append_of_eq (h : next.job? = some id) :
    stageOf id (sections ++ [next]) = (stageOf id sections).bind (·.next? next) := by
  simp [stageOf, h]

/-- Without its last section an interleaving is an interleaving. -/
theorem Interleaving.init (h : Interleaving (sections ++ [next])) : Interleaving sections := by
  intro id
  have hid := h id
  by_cases hjob : next.job? = some id
  · rw [stageOf_append_of_eq hjob] at hid
    exact Option.isSome_of_isSome_bind hid
  · rwa [stageOf_append_of_ne hjob] at hid

theorem Interleaving.of_append {first rest : List JobSection} (h : Interleaving (first ++ rest)) :
    Interleaving first := by
  induction rest using List.reverseRecOn with
  | nil => rwa [List.append_nil] at h
  | append_singleton rest next ih =>
    rw [← List.append_assoc] at h
    exact ih h.init

/-- A section applies at one stage and leads to one stage. -/
theorem JobStage.next?_eq_some_iff {stage later : JobStage} :
    stage.next? next = some later ↔ stage = next.stages.1 ∧ next.stages.2 = later := by
  rw [next?, Option.ite_none_right_eq_some, Option.some.injEq]

/-- A job's section takes it from the stage before to the stage after. -/
theorem Interleaving.stages (h : Interleaving (sections ++ [next])) (hjob : next.job? = some id) :
    stageOf id sections = some next.stages.1 ∧
      stageOf id (sections ++ [next]) = some next.stages.2 := by
  obtain ⟨later, hlater⟩ := Option.isSome_iff_exists.mp (h id)
  have hbind := hlater
  rw [stageOf_append_of_eq hjob] at hbind
  obtain ⟨stage, hstage, hnext⟩ := Option.bind_eq_some_iff.mp hbind
  obtain ⟨rfl, rfl⟩ := JobStage.next?_eq_some_iff.mp hnext
  exact ⟨hstage, hlater⟩

/-- Only the jobs that do something have to be looked at. -/
theorem interleaving_of_jobs
    (h : ∀ id ∈ sections.filterMap JobSection.job?, (stageOf id sections).isSome = true) :
    Interleaving sections := by
  intro id
  by_cases hid : id ∈ sections.filterMap JobSection.job?
  · exact h id hid
  · have hnone : sections.filter (·.job? == some id) = [] := by
      rw [List.filter_eq_nil_iff]
      intro next hnext hjob
      exact hid (List.mem_filterMap.mpr ⟨next, hnext, by simpa using hjob⟩)
    rw [stageOf, hnone]
    rfl

end Stages

/-! ## Entries -/

namespace JobState

/-- The stage of a job in this state. -/
def stage : JobState → JobStage
  | pending => .submitted
  | running _ => .started
  | completed _ | failed _ => .over

/-- What a state can become in one section. -/
inductive Moves : JobState → JobState → Prop
  | stay (s : JobState) : Moves s s
  | start : Moves pending (running none)
  | enterPhase (before : Option Phase)
      (phase : Phase) : Moves (running before) (running (some phase))
  | complete (before : Option Phase)
      (summary : RunSummary) : Moves (running before) (completed summary)
  | fail (before : Option Phase) (error : String) : Moves (running before) (failed error)

/-- A job is over when it is finished. -/
theorem stage_eq_over_iff {s : JobState} : s.stage = .over ↔ s.isFinished = true := by
  cases s <;> simp [stage, isFinished]

theorem stage_eq_submitted_iff {s : JobState} : s.stage = .submitted ↔ s = .pending := by
  cases s <;> simp [stage]

theorem stage_eq_started_iff {s : JobState} : s.stage = .started ↔ ∃ phase, s = .running phase := by
  cases s <;> simp [stage]

end JobState

namespace JobEntry

/-- The fields of an entry that go with its state. -/
structure Coherent (e : JobEntry) : Prop where
  output_iff : e.output.isSome = true ↔ ∃ summary, e.status.state = .completed summary
  finishedAt_iff : e.status.finishedAt.isSome = true ↔ e.status.state.isFinished = true
  startedAt_iff : e.status.startedAt.isSome = true ↔ e.status.state ≠ .pending

/-- **A job's own section on its entry.** -/
theorem Coherent.change {e : JobEntry} (he : e.Coherent) {next : JobSection}
    (hjob : next.job? = some e.status.id) (hstage : e.status.state.stage = next.stages.1) :
    (next.change e).Coherent ∧ (next.change e).status.state.stage = next.stages.2 ∧
      e.status.state.Moves (next.change e).status.state ∧ e.status.state.isFinished = false := by
  obtain ⟨⟨id, state, files, submittedAt, startedAt, finishedAt⟩, output⟩ := e
  obtain ⟨houtput, hfinished, hstarted⟩ := he
  -- program order decides the state before, and the section determines the state after
  cases next with
  | submit => cases state <;> cases hstage
  | remove => cases hjob
  | start id now =>
    obtain rfl : state = .pending := JobState.stage_eq_submitted_iff.mp hstage
    have houtput : output = none := by simpa using houtput
    have hfinished : finishedAt = none := by simpa [JobState.isFinished] using hfinished
    refine ⟨⟨?_, ?_, ?_⟩, rfl, .start, rfl⟩ <;> simp [JobSection.change, JobState.isFinished,
      houtput, hfinished]
  | enterPhase id entered =>
    obtain ⟨phase, rfl⟩ : ∃ phase, state = .running phase := JobState.stage_eq_started_iff.mp hstage
    have houtput : output = none := by simpa using houtput
    have hfinished : finishedAt = none := by simpa [JobState.isFinished] using hfinished
    have hstarted : startedAt.isSome = true := by simpa using hstarted
    refine ⟨⟨?_, ?_, ?_⟩, rfl, .enterPhase phase entered, rfl⟩ <;>
      simp [JobSection.change, JobState.isFinished, houtput, hfinished, hstarted]
  | finish id result now =>
    obtain ⟨phase, rfl⟩ : ∃ phase, state = .running phase := JobState.stage_eq_started_iff.mp hstage
    have houtput : output = none := by simpa using houtput
    have hstarted : startedAt.isSome = true := by simpa using hstarted
    cases result with
    | ok run =>
      refine ⟨⟨?_, ?_, ?_⟩, rfl, .complete phase run.summary, rfl⟩ <;>
        simp [JobSection.change, finish, JobState.isFinished, hstarted]
    | error error =>
      refine ⟨⟨?_, ?_, ?_⟩, rfl, .fail phase error, rfl⟩ <;>
        simp [JobSection.change, finish, JobState.isFinished, houtput, hstarted]

end JobEntry

/-! ## Tables -/

namespace JobTable

variable {t : JobTable} {sections : List JobSection} {next : JobSection} {id : JobId} {r : Nat}

/-- The table after one section. -/
def perform (t : JobTable) : JobSection → JobTable
  | .submit id files now => t.submit id files now
  | .start id now => t.start id now
  | .enterPhase id phase => t.enterPhase id phase
  | .finish id result now => t.finish id result now
  | .remove id => t.remove id

/-- The table after some sections, from an empty one that keeps so many finished jobs. -/
def after (retention : Nat) (sections : List JobSection) : JobTable :=
  sections.foldl perform { retention }

/-- The table after one more section is one step on. -/
theorem after_append (r : Nat) (sections : List JobSection) (next : JobSection) :
    after r (sections ++ [next]) = (after r sections).perform next := by
  simp [after]

theorem mem_ids : id ∈ t.ids ↔ ∃ e ∈ t.entries, e.status.id = id := List.mem_map

/-- An update in place keeps the ids in their order. -/
theorem ids_update {f : JobEntry → JobEntry} (hf : ∀ e, (f e).status.id = e.status.id) :
    (t.update id f).ids = t.ids := by
  rw [ids, update, List.map_map, ids]
  refine List.map_congr_left fun e _ => ?_
  by_cases h : e.status.id = id
  · simp [h, hf]
  · simp [h]

theorem mem_update {f : JobEntry → JobEntry} {e : JobEntry} :
    e ∈ (t.update id f).entries ↔ ∃ old ∈ t.entries,
      (if old.status.id = id then f old else old) = e :=
  List.mem_map

/-- The status of an id is that of its one entry. -/
theorem status?_eq_some_iff (hids : t.ids.Nodup) {s : JobStatus} :
    t.status? id = some s ↔ ∃ e ∈ t.entries, e.status = s ∧ s.id = id := by
  rw [status?, entry?, Option.map_eq_some_iff]
  constructor
  · rintro ⟨e, he, rfl⟩
    exact ⟨e, List.mem_of_find?_eq_some he, rfl, by simpa using List.find?_some he⟩
  · rintro ⟨e, he, rfl, hid⟩
    have hfound : (t.entries.find? (·.status.id = id)).isSome :=
      List.find?_isSome.mpr ⟨e, he, by simpa using hid⟩
    obtain ⟨e', he'⟩ := Option.isSome_iff_exists.mp hfound
    have hid' : e'.status.id = id := by simpa using List.find?_some he'
    obtain rfl : e' = e := eq_of_id_eq hids (List.mem_of_find?_eq_some he') he (hid'.trans hid.symm)
    exact ⟨e', he', rfl⟩

theorem isSome_entry?_iff : (t.entry? id).isSome = true ↔ id ∈ t.ids := by
  rw [JobTable.entry?, List.find?_isSome, mem_ids]
  simp

/-- What a table owes to the sections behind it. -/
structure Accounted (t : JobTable) (sections : List JobSection) : Prop where
  nodup : t.ids.Nodup
  coherent : ∀ e ∈ t.entries, e.Coherent
  stage : ∀ e ∈ t.entries, stageOf e.status.id sections = some e.status.state.stage
  present : ∀ id, stageOf id sections = some .submitted ∨
    stageOf id sections = some .started → id ∈ t.ids

/-- The empty table accounts for the empty history. -/
theorem accounted_empty (r : Nat) : Accounted { retention := r } [] where
  nodup := List.nodup_nil
  coherent e he := by cases he
  stage e he := by cases he
  present id h := by rcases h with h | h <;> cases h

/-- A new job has no entry yet. -/
theorem Accounted.not_mem_of_unknown (h : t.Accounted sections)
    (hstage : stageOf id sections = some .unknown) : id ∉ t.ids := by
  intro hmem
  obtain ⟨e, he, rfl⟩ := mem_ids.mp hmem
  have hsame : JobStage.unknown = e.status.state.stage :=
    Option.some.inj (hstage.symm.trans (h.stage e he))
  cases hstate : e.status.state <;> rw [hstate] at hsame <;> cases hsame

/-- A submission files a new id as a pending job and leaves the other jobs alone. -/
theorem Accounted.submit (h : t.Accounted sections) {files now : Nat}
    (hnext : Interleaving (sections ++ [.submit id files now])) :
    (t.submit id files now).Accounted (sections ++ [.submit id files now]) := by
  obtain ⟨hstage, hnew⟩ := hnext.stages rfl
  have hfresh := h.not_mem_of_unknown hstage
  -- only the stage of the submitted job changes
  have hother : ∀ other, other ≠ id →
      stageOf other (sections ++ [.submit id files now]) = stageOf other sections :=
    fun other hne => stageOf_append_of_ne fun heq => hne (Option.some.inj heq).symm
  have hids : (t.submit id files now).ids = t.ids ++ [id] := by simp [JobTable.submit, ids]
  -- distinct ids, coherent entries, stages, presence of open jobs
  refine ⟨?_, ?_, ?_, ?_⟩
  · rw [hids]
    exact h.nodup.append (List.nodup_singleton id) (by simpa using hfresh)
  · intro e he
    rcases List.mem_append.mp he with he | he
    · exact h.coherent e he
    · obtain rfl := List.mem_singleton.mp he
      exact ⟨by simp, by simp [JobState.isFinished], by simp⟩
  · intro e he
    rcases List.mem_append.mp he with he | he
    · rw [hother _ fun heq => hfresh (heq ▸ mem_ids.mpr ⟨e, he, rfl⟩)]
      exact h.stage e he
    · obtain rfl := List.mem_singleton.mp he
      exact hnew
  · intro other hopen
    rw [hids, List.mem_append]
    by_cases heq : other = id
    · exact Or.inr (by simp [heq])
    · rw [hother other heq] at hopen
      exact Or.inl (h.present other hopen)

/-- A job that has been submitted does the next of its sections. -/
theorem Accounted.change (h : t.Accounted sections) (hnext : Interleaving (sections ++ [next]))
    (hjob : next.job? = some id) (hopen : next.stages.1 = .submitted ∨ next.stages.1 = .started) :
    (t.update id next.change).Accounted (sections ++ [next]) := by
  obtain ⟨hstage, hnew⟩ := hnext.stages hjob
  have hother : ∀ other, other ≠ id → stageOf other (sections ++ [next]) = stageOf other sections :=
    fun other hne => stageOf_append_of_ne fun heq => hne (Option.some.inj (heq.symm.trans hjob))
  have hids : (t.update id next.change).ids = t.ids := ids_update next.id_change
  -- the entry of the job itself moves on coherently
  have hown : ∀ e ∈ t.entries, e.status.id = id → (next.change e).Coherent ∧
      (next.change e).status.state.stage = next.stages.2 := by
    rintro e he rfl
    have hspec := (h.coherent e he).change hjob (Option.some.inj ((h.stage e he).symm.trans hstage))
    exact ⟨hspec.1, hspec.2.1⟩
  refine ⟨by rw [hids]; exact h.nodup, ?_, ?_, ?_⟩
  · intro e he
    obtain ⟨old, hold, rfl⟩ := mem_update.mp he
    by_cases heq : old.status.id = id
    · rw [if_pos heq]
      exact (hown old hold heq).1
    · rw [if_neg heq]
      exact h.coherent old hold
  · intro e he
    obtain ⟨old, hold, rfl⟩ := mem_update.mp he
    by_cases heq : old.status.id = id
    · rw [if_pos heq, JobSection.id_change, heq, hnew, (hown old hold heq).2]
    · rw [if_neg heq, hother _ heq]
      exact h.stage old hold
  · intro other hlater
    rw [hids]
    by_cases heq : other = id
    · subst heq
      refine h.present other (hopen.imp ?_ ?_) <;> exact fun hfrom => hfrom ▸ hstage
    · rw [hother other heq] at hlater
      exact h.present other hlater

/-- Dropping some finished entries takes nothing from what is owed. -/
theorem Accounted.restrict (h : t.Accounted sections) {entries : List JobEntry}
    (hsub : entries.Sublist t.entries)
    (hopen : ∀ e ∈ t.entries, e.status.state.isFinished = false → e ∈ entries) :
    Accounted { t with entries } sections where
  nodup := h.nodup.sublist (hsub.map _)
  coherent e he := h.coherent e (hsub.subset he)
  stage e he := h.stage e (hsub.subset he)
  present id hstage := by
    obtain ⟨e, he, rfl⟩ := mem_ids.mp (h.present id hstage)
    rw [h.stage e he] at hstage
    refine mem_ids.mpr ⟨e, hopen e he ?_, rfl⟩
    rw [Bool.eq_false_iff, Ne, ← JobState.stage_eq_over_iff]
    intro hover
    rw [hover] at hstage
    rcases hstage with h | h <;> cases h

/-- Eviction takes finished jobs only. -/
theorem Accounted.evict (h : t.Accounted sections) : t.evict.Accounted sections :=
  h.restrict List.filter_sublist fun _ he hopen => mem_evict_of_open h.nodup he hopen

/-- A removal takes a finished job or nothing. -/
theorem Accounted.remove (h : t.Accounted sections) :
    (t.remove id).Accounted (sections ++ [.remove id]) := by
  have hstages : ∀ other, stageOf other (sections ++ [.remove id]) = stageOf other sections :=
    fun other => stageOf_append_of_ne (by simp [JobSection.job?])
  have hkept : (t.remove id).Accounted sections := by
    unfold JobTable.remove
    split
    · next hremovable =>
      refine h.restrict List.filter_sublist fun e he hopen => List.mem_filter.mpr ⟨he, ?_⟩
      -- the entry that goes is a finished one
      rw [isRemovable, Option.any_eq_true_iff_get] at hremovable
      obtain ⟨hsome, hfinished⟩ := hremovable
      obtain ⟨gone, hgone, hstatus, hid⟩ :=
        (status?_eq_some_iff h.nodup).mp (Option.some_get hsome).symm
      rw [bne_iff_ne]
      rintro rfl
      have hsame : gone = e := eq_of_id_eq h.nodup hgone he (by rw [hstatus]; exact hid)
      rw [← hstatus, hsame, hopen] at hfinished
      cases hfinished
    · exact h
  exact ⟨hkept.nodup, hkept.coherent, fun e he => by rw [hstages]; exact hkept.stage e he,
    fun other hopen => hkept.present other (by rwa [hstages] at hopen)⟩

/-- A job that has started is there when it finishes. -/
theorem Accounted.perform_finish (h : t.Accounted sections) {result : Except String RunOutput}
    {now : Nat} (hnext : Interleaving (sections ++ [.finish id result now])) :
    t.perform (.finish id result now)
      = (t.update id (JobSection.finish id result now).change).evict := by
  have hmem : id ∈ t.ids := h.present id (Or.inr (hnext.stages rfl).1)
  exact if_pos (isSome_entry?_iff.mpr hmem)

/-- **The step.** -/
theorem Accounted.perform (h : t.Accounted sections) (hnext : Interleaving (sections ++ [next])) :
    (t.perform next).Accounted (sections ++ [next]) := by
  cases next with
  | submit id files now => exact h.submit hnext
  | start id now => exact h.change hnext rfl (Or.inl rfl)
  | enterPhase id phase => exact h.change hnext rfl (Or.inr rfl)
  | finish id result now =>
    rw [h.perform_finish hnext]
    exact (h.change hnext rfl (Or.inr rfl)).evict
  | remove id => exact h.remove

/-- **The run.** -/
theorem accounted_after (r : Nat) (h : Interleaving sections) :
    (after r sections).Accounted sections := by
  induction sections using List.reverseRecOn with
  | nil => exact accounted_empty r
  | append_singleton sections next ih =>
    rw [after_append]
    exact (ih h.init).perform h

/-! ## The bound -/

theorem retention_perform (t : JobTable) (next : JobSection) :
    (t.perform next).retention = t.retention := by
  cases next with
  | submit | start | enterPhase => rfl
  | finish id result now =>
    show (t.finish id result now).retention = t.retention
    unfold finish
    split <;> rfl
  | remove id =>
    show (t.remove id).retention = t.retention
    unfold remove
    split <;> rfl

/-- The retention is fixed. -/
theorem retention_after (r : Nat) (sections : List JobSection) :
    (after r sections).retention = r := by
  induction sections using List.reverseRecOn with
  | nil => rfl
  | append_singleton sections next ih => rw [after_append, retention_perform, ih]

/-- A job that is finished neither before nor after a change does not count. -/
theorem finished_update {f : JobEntry → JobEntry}
    (h : ∀ e ∈ t.entries, e.status.id = id →
      e.status.state.isFinished = false ∧ (f e).status.state.isFinished = false) :
    (t.update id f).finished = t.finished := by
  unfold finished update
  generalize t.entries = entries at h
  induction entries with
  | nil => rfl
  | cons e rest ih =>
    have htail := ih fun e he => h e (List.mem_cons_of_mem _ he)
    by_cases heq : e.status.id = id
    · have hopen := h e List.mem_cons_self heq
      simpa [heq, hopen] using htail
    · simp only [List.map_cons, if_neg heq, List.filter_cons]
      rw [htail]

/-- No section leaves more finished jobs than are retained. -/
theorem Accounted.length_finished_perform (h : t.Accounted sections)
    (hnext : Interleaving (sections ++ [next])) (hbound : t.finished.length ≤ t.retention) :
    (t.perform next).finished.length ≤ t.retention := by
  -- a job that starts or enters a phase is running afterwards
  have hopen : ∀ id, next.job? = some id → next.stages.1 = .submitted ∨ next.stages.1 = .started →
      next.stages.2 = .started → (t.update id next.change).finished = t.finished := by
    intro id hjob hfrom hto
    refine finished_update ?_
    rintro e he rfl
    have hstage : e.status.state.stage = next.stages.1 :=
      Option.some.inj ((h.stage e he).symm.trans (hnext.stages hjob).1)
    obtain ⟨-, hlater, -, hunfinished⟩ := (h.coherent e he).change hjob hstage
    refine ⟨hunfinished, ?_⟩
    rw [Bool.eq_false_iff, Ne, ← JobState.stage_eq_over_iff, hlater, hto]
    exact JobStage.noConfusion
  -- only a finish adds a finished job, and it evicts right after
  cases next with
  | submit id files now =>
    have hsame : (t.perform (.submit id files now)).finished = t.finished := by
      simp [JobTable.perform, JobTable.submit, finished, JobState.isFinished]
    rw [hsame]
    exact hbound
  | start id now =>
    rw [show (t.perform (.start id now)).finished = t.finished from hopen id rfl (Or.inl rfl) rfl]
    exact hbound
  | enterPhase id phase =>
    rw [show (t.perform (.enterPhase id phase)).finished
      = t.finished from hopen id rfl (Or.inr rfl) rfl]
    exact hbound
  | finish id result now =>
    rw [h.perform_finish hnext]
    exact length_finished_evict (h.change hnext rfl (Or.inr rfl)).nodup
  | remove id =>
    have hsub : (t.remove id).entries.Sublist t.entries := by
      unfold JobTable.remove
      split
      · exact List.filter_sublist
      · exact List.Sublist.refl _
    exact ((hsub.map _).filter _).length_le.trans hbound

/-- Every reachable table is within the retention. -/
theorem length_finished_after (r : Nat) (h : Interleaving sections) :
    (after r sections).finished.length ≤ r := by
  induction sections using List.reverseRecOn with
  | nil => simp [after, finished]
  | append_singleton sections next ih =>
    have hbound := (accounted_after r h.init).length_finished_perform h
    rw [retention_after] at hbound
    rw [after_append]
    exact hbound (ih h.init)

/-! ## What the next section may do -/

/-- A job is unknown when its id is not in the table. -/
theorem status?_eq_none_iff : t.status? id = none ↔ id ∉ t.ids := by
  rw [status?, Option.map_eq_none_iff, ← isSome_entry?_iff, Option.isSome_iff_ne_none, not_not]

theorem exists_status? (h : id ∈ t.ids) : ∃ s, t.status? id = some s :=
  Option.ne_none_iff_exists'.mp fun hnone => status?_eq_none_iff.mp hnone h

/-- The state of a job says how far it has come. -/
theorem Accounted.stage_of_status? (h : t.Accounted sections) {s : JobStatus}
    (hs : t.status? id = some s) : stageOf id sections = some s.state.stage := by
  obtain ⟨e, he, rfl, rfl⟩ := (status?_eq_some_iff h.nodup).mp hs
  exact h.stage e he

/-- **A job that is not over is there**, and its status says how far it is. -/
theorem Accounted.stageOf_eq_iff (h : t.Accounted sections) {stage : JobStage}
    (hopen : stage = .submitted ∨ stage = .started) :
    stageOf id sections = some stage ↔ ∃ s, t.status? id = some s ∧ s.state.stage = stage := by
  constructor
  · intro hstage
    have hpresent : id ∈ t.ids := by
      refine h.present id (Or.imp ?_ ?_ hopen) <;> exact fun heq => heq ▸ hstage
    obtain ⟨s, hs⟩ := exists_status? hpresent
    exact ⟨s, hs, Option.some.inj ((h.stage_of_status? hs).symm.trans hstage)⟩
  · rintro ⟨s, hs, rfl⟩
    exact h.stage_of_status? hs

/-- A job that is there before and after a section: the section is its own, or the entry is the
same. -/
theorem Accounted.entry_cases (h : t.Accounted sections) (hnext : Interleaving (sections ++ [next]))
    {e later : JobEntry} (he : e ∈ t.entries) (hlater : later ∈ (t.perform next).entries)
    (hid : later.status.id = e.status.id) :
    later = e ∨ next.job? = some e.status.id ∧ later = next.change e := by
  have hchange : ∀ job, next.job? = some job → later ∈ (t.update job next.change).entries →
      later = e ∨ next.job? = some e.status.id ∧ later = next.change e := by
    intro job hjob hmem
    obtain ⟨old, hold, rfl⟩ := mem_update.mp hmem
    by_cases heq : old.status.id = job
    · rw [if_pos heq, JobSection.id_change] at hid
      obtain rfl : old = e := eq_of_id_eq h.nodup hold he hid
      rw [if_pos heq]
      exact Or.inr ⟨heq ▸ hjob, rfl⟩
    · rw [if_neg heq] at hid ⊢
      exact Or.inl (eq_of_id_eq h.nodup hold he hid)
  cases next with
  | submit job files now =>
    rcases List.mem_append.mp hlater with hmem | hmem
    · exact Or.inl (eq_of_id_eq h.nodup hmem he hid)
    · -- the new entry has an id that no entry had
      obtain rfl := List.mem_singleton.mp hmem
      exact absurd (mem_ids.mpr ⟨e, he, hid.symm⟩) (h.not_mem_of_unknown (hnext.stages rfl).1)
  | start job now => exact hchange job rfl hlater
  | enterPhase job phase => exact hchange job rfl hlater
  | finish job result now =>
    rw [h.perform_finish hnext] at hlater
    exact hchange job rfl (List.mem_of_mem_filter hlater)
  | remove job =>
    have hmem : later ∈ t.entries := by
      revert hlater
      show later ∈ (t.remove job).entries → later ∈ t.entries
      unfold JobTable.remove
      split
      · exact List.mem_of_mem_filter
      · exact id
    exact Or.inl (eq_of_id_eq h.nodup hmem he hid)

/-- **A job only moves on**, and not at all when it is finished. -/
theorem Accounted.moves (h : t.Accounted sections) (hnext : Interleaving (sections ++ [next]))
    {before later : JobStatus} (hbefore : t.status? id = some before)
    (hlater : (t.perform next).status? id = some later) :
    before.state.Moves later.state ∧ (before.state.isFinished = true → later = before) := by
  obtain ⟨e, he, rfl, rfl⟩ := (status?_eq_some_iff h.nodup).mp hbefore
  obtain ⟨e', he', rfl, hid⟩ := (status?_eq_some_iff (h.perform hnext).nodup).mp hlater
  rcases h.entry_cases hnext he he' hid with rfl | ⟨hjob, rfl⟩
  · exact ⟨.stay _, fun _ => rfl⟩
  · have hstage := Option.some.inj ((h.stage e he).symm.trans (hnext.stages hjob).1)
    obtain ⟨-, -, hmoves, hopen⟩ := (h.coherent e he).change hjob hstage
    exact ⟨hmoves, fun hfinished => by rw [hopen] at hfinished; cases hfinished⟩

/-- **A job that is not finished stays** through every section but its own last one. -/
theorem Accounted.stays (h : t.Accounted sections) (hnext : Interleaving (sections ++ [next]))
    {before : JobStatus} (hbefore : t.status? id = some before)
    (hopen : before.state.isFinished = false) (hlast : ∀ result now, next ≠ .finish id result now) :
    id ∈ (t.perform next).ids := by
  have hstage := h.stage_of_status? hbefore
  -- by its state the job is open in the history too
  have hstages : stageOf id sections = some .submitted ∨ stageOf id sections = some .started := by
    rw [hstage]
    cases hstate : before.state with
    | pending => exact Or.inl rfl
    | running phase => exact Or.inr rfl
    | completed summary => rw [hstate] at hopen; cases hopen
    | failed error => rw [hstate] at hopen; cases hopen
  refine (h.perform hnext).present id ?_
  by_cases hjob : next.job? = some id
  · rw [(hnext.stages hjob).2]
    cases next with
    | submit => exact Or.inl rfl
    | start | enterPhase => exact Or.inr rfl
    | finish job result now =>
      obtain rfl : job = id := Option.some.inj hjob
      exact absurd rfl (hlast result now)
    | remove => cases hjob
  · rwa [stageOf_append_of_ne hjob]

/-- **How a job disappears.** It is finished and removed, or it goes when some job finishes. -/
theorem Accounted.vanishes (h : t.Accounted sections) (hnext : Interleaving (sections ++ [next]))
    {before : JobStatus} (hbefore : t.status? id = some before)
    (hgone : (t.perform next).status? id = none) :
    next = .remove id ∧ before.state.isFinished = true ∨
      ∃ job result now, next = .finish job result now ∧
        (before.state.isFinished = true ∨ job = id) := by
  have hmem : id ∈ t.ids := by
    obtain ⟨e, he, rfl, rfl⟩ := (status?_eq_some_iff h.nodup).mp hbefore
    exact mem_ids.mpr ⟨e, he, rfl⟩
  rw [status?_eq_none_iff] at hgone
  have hlast : before.state.isFinished = true ∨ ∃ result now, next = .finish id result now := by
    by_contra hnot
    push Not at hnot
    exact hgone (h.stays hnext hbefore (Bool.eq_false_iff.mpr hnot.1) hnot.2)
  -- submitting, starting and entering a phase keep all ids
  cases next with
  | submit job files now =>
    refine absurd ?_ hgone
    show id ∈ (t.submit job files now).ids
    rw [JobTable.submit, ids, List.map_append]
    exact List.mem_append_left _ hmem
  | start job now =>
    exact absurd ((ids_update (JobSection.start job now).id_change).symm ▸ hmem) hgone
  | enterPhase job phase =>
    exact absurd ((ids_update (JobSection.enterPhase job phase).id_change).symm ▸ hmem) hgone
  | finish job result now =>
    refine Or.inr ⟨job, result, now, rfl, hlast.imp_right ?_⟩
    rintro ⟨result', now', heq⟩
    cases heq
    rfl
  | remove job =>
    by_cases heq : job = id
    · subst heq
      refine Or.inl ⟨rfl, hlast.resolve_right ?_⟩
      rintro ⟨result, now, h⟩
      cases h
    · refine absurd ?_ hgone
      show id ∈ (t.remove job).ids
      unfold JobTable.remove
      split
      · obtain ⟨e, he, rfl⟩ := mem_ids.mp hmem
        exact mem_ids.mpr ⟨e, List.mem_filter.mpr ⟨he, by simpa using Ne.symm heq⟩, rfl⟩
      · exact hmem

/-- A job that has not started yet stays through every section. -/
theorem Accounted.stays_pending (h : t.Accounted sections)
    (hnext : Interleaving (sections ++ [next])) {before : JobStatus}
    (hbefore : t.status? id = some before) (hpending : before.state = .pending) :
    (t.perform next).status? id ≠ none := by
  have hstage : stageOf id sections = some .submitted := by
    rw [h.stage_of_status? hbefore, hpending]
    rfl
  rw [Ne, status?_eq_none_iff, not_not]
  refine h.stays hnext hbefore (by rw [hpending]; rfl) fun result now heq => ?_
  -- a job finishes only after it has started
  subst heq
  cases hstage.symm.trans (hnext.stages rfl).1

/-- A change that leaves a job out of the count, before and after. -/
theorem finishedAfter_update {f : JobEntry → JobEntry} {now : Nat} {job : JobId}
    (h : ∀ e ∈ t.entries, e.status.id = id → e.status.state.isFinished = false ∧
      ¬ toLex (now, job) < toLex (evictionKey (f e).status)) :
    (t.update id f).finishedAfter now job = t.finishedAfter now job := by
  simp only [finishedAfter, finished, update, List.countP_filter, List.countP_map, List.map_map]
  refine List.countP_congr fun e he => ?_
  by_cases heq : e.status.id = id
  · simp [heq, h e he heq]
  · simp [heq]

/-- **A job is dropped by its own last section** exactly if as many finished jobs come after it as
the table keeps. -/
theorem Accounted.status?_finish_eq_none_iff (h : t.Accounted sections)
    {result : Except String RunOutput} {now : Nat}
    (hnext : Interleaving (sections ++ [.finish id result now])) :
    (t.perform (.finish id result now)).status? id = none ↔
      t.retention ≤ t.finishedAfter now id := by
  obtain ⟨hstage, -⟩ := hnext.stages rfl
  obtain ⟨e, he, rfl⟩ := mem_ids.mp (h.present id (Or.inr hstage))
  have hids : (t.update e.status.id (·.finish result now)).ids.Nodup :=
    (h.change hnext rfl (Or.inr rfl)).nodup
  obtain ⟨-, hover, -, hopen⟩ :=
    (h.coherent e he).change rfl
      (Option.some.inj ((h.stage e he).symm.trans hstage))
  have hid : (e.finish result now).status.id = e.status.id :=
    JobSection.id_change (.finish e.status.id result now) e
  have hkey : evictionKey (e.finish result now).status = (now, e.status.id) := by
    cases result <;> rfl
  have hmem : e.finish result now ∈ (t.update e.status.id (·.finish result now)).entries :=
    mem_update.mpr ⟨e, he, if_pos rfl⟩
  -- the job itself is counted neither before its end nor after it
  have hcount : (t.update e.status.id (·.finish result now)).laterThan (e.finish result now).status
    =
      t.finishedAfter now e.status.id := by
    simp only [laterThan, JobStatus.Precedes, hkey]
    refine finishedAfter_update fun e' he' hsame => ?_
    obtain rfl := eq_of_id_eq h.nodup he' he hsame
    exact ⟨hopen, by rw [hkey]; exact lt_irrefl _⟩
  have hdropped := not_mem_ids_evict hids hmem
  rw [hid, hcount] at hdropped
  rw [h.perform_finish hnext, status?_eq_none_iff]
  exact hdropped.trans (and_iff_right (JobState.stage_eq_over_iff.mp hover))

/-- **A running job disappears only at its own end**, and when it does is said by the table. -/
theorem Accounted.vanishes_running_iff (h : t.Accounted sections)
    (hnext : Interleaving (sections ++ [next])) {before : JobStatus} {phase : Option Phase}
    (hbefore : t.status? id = some before) (hrunning : before.state = .running phase) :
    (t.perform next).status? id = none ↔
      ∃ result now, next = .finish id result now ∧ t.retention ≤ t.finishedAfter now id := by
  constructor
  · intro hgone
    have hopen : before.state.isFinished ≠ true := by simp [hrunning, JobState.isFinished]
    rcases h.vanishes hnext hbefore hgone with ⟨-, hfinished⟩ | ⟨job, result, now, rfl, hown⟩
    · exact absurd hfinished hopen
    · obtain rfl := hown.resolve_left hopen
      exact ⟨result, now, rfl, (h.status?_finish_eq_none_iff hnext).mp hgone⟩
  · rintro ⟨result, now, rfl, hmany⟩
    exact (h.status?_finish_eq_none_iff hnext).mpr hmany

/-! ## The result

Two jobs fail at the same time, the one with the higher id first. The table keeps one, and the other
is dropped by its own last section: it was running, and it is gone. -/

def tiedSections : List JobSection :=
  [.submit 0 2 5, .submit 1 0 5, .start 1 6, .start 0 7, .enterPhase 0 .extraction,
    .finish 1 (.error "broken") 9]

def tiedFinish (now : Nat) : JobSection := .finish 0 (.error "broken") now

/-- A running job can be gone after its own finish: another job that has finished at the same time,
with a greater id, takes the only place. -/
theorem running_job_vanishes :
    Interleaving (tiedSections ++ [tiedFinish 9]) ∧
      (∃ s phase, (after 1 tiedSections).status? 0 = some s ∧ s.state = .running phase) ∧
      (after 1 (tiedSections ++ [tiedFinish 9])).status? 0 = none := by
  have hbefore : (after 1 tiedSections).status? 0 =
      some ⟨0, .running (some .extraction), 2, 5, some 7, none⟩ := by cbv
  exact ⟨interleaving_of_jobs (by decide), ⟨_, _, hbefore, rfl⟩, by cbv⟩

/-- **A table of jobs.** After any interleaving an entry has an output exactly if it is completed, a
time of its end exactly if it is finished and a time of its start exactly if it is not pending. No
more jobs are finished than the table keeps, and the jobs that are submitted and not started, or
started and not over, are there as pending and running. The next section moves a job on or leaves
it, and changes nothing of a finished one. A finished job disappears if it is removed or if some job
finishes; a pending one never does. A running one does exactly if the section is its own last one
and the table has as many finished jobs that come after it as it keeps. If the section is the last
one of a job, then what goes is finished and comes before every finished job that stays. -/
theorem table_invariant (r : Nat) (sections : List JobSection) (h : Interleaving sections) :
    let t := after r sections
    (∀ e ∈ t.entries, e.Coherent) ∧ t.finished.length ≤ r ∧
      (∀ id, stageOf id sections = some .submitted ↔
        ∃ s, t.status? id = some s ∧ s.state = .pending) ∧
      (∀ id, stageOf id sections = some .started ↔
        ∃ s phase, t.status? id = some s ∧ s.state = .running phase) ∧
      ∀ next, Interleaving (sections ++ [next]) →
        let t' := after r (sections ++ [next])
        (∀ id before later, t.status? id = some before → t'.status? id = some later →
          before.state.Moves later.state ∧ (before.state.isFinished = true → later = before)) ∧
        (∀ id before, t.status? id = some before → before.state.isFinished = true →
          t'.status? id = none →
            next = .remove id ∨ ∃ job result now, next = .finish job result now) ∧
        (∀ id before, t.status? id = some before → before.state = .pending →
          t'.status? id ≠ none) ∧
        (∀ id before phase, t.status? id = some before → before.state = .running phase →
          (t'.status? id = none ↔
            ∃ result now, next = .finish id result now ∧ r ≤ t.finishedAfter now id)) ∧
        ∀ id result now, next = .finish id result now →
          ∀ e ∈ (t.update id next.change).entries, e ∉ t'.entries →
            e.status.state.isFinished = true ∧
              ∀ kept ∈ t'.entries, kept.status.state.isFinished = true →
                e.status.Precedes kept.status := by
  -- everything follows from the account of the history, section by section
  have haccounted := accounted_after r h
  refine ⟨haccounted.coherent, length_finished_after r h, fun id => ?_, fun id => ?_,
    fun next hnext => ?_⟩
  · simp only [haccounted.stageOf_eq_iff (Or.inl rfl), JobState.stage_eq_submitted_iff]
  · simp only [haccounted.stageOf_eq_iff (Or.inr rfl), JobState.stage_eq_started_iff,
      exists_and_left]
  · rw [after_append]
    refine ⟨fun id before later => haccounted.moves hnext, fun id before hbefore _ hgone => ?_,
      fun id before => haccounted.stays_pending hnext,
        fun id before phase hbefore hrunning => ?_, ?_⟩
    · rcases haccounted.vanishes hnext hbefore hgone
        with ⟨hremove, -⟩ | ⟨job, result, now, hlast, -⟩
      · exact Or.inl hremove
      · exact Or.inr ⟨job, result, now, hlast⟩
    · rw [haccounted.vanishes_running_iff hnext hbefore hrunning, retention_after]
    · rintro id result now rfl e he hgone
      have hids := (haccounted.change hnext rfl (Or.inr rfl)).nodup
      rw [haccounted.perform_finish hnext] at hgone ⊢
      exact ⟨(finished_of_evicted hids he hgone).1, fun kept hkept hfinished =>
        precedes_of_evicted hids he hgone hkept hfinished⟩

/-- The job that is dropped at the time of the tie stays if it ends one reading of the clock
later. -/
theorem table_invariant_tied :
    Interleaving tiedSections ∧ Interleaving (tiedSections ++ [tiedFinish 9]) ∧
      Interleaving (tiedSections ++ [tiedFinish 10]) ∧ (after 1 tiedSections).finished.length ≤ 1 ∧
      (after 1 (tiedSections ++ [tiedFinish 9])).status? 0 = none ∧
      (after 1 (tiedSections ++ [tiedFinish 10])).status? 0 ≠ none ∧
      ∀ e ∈ ((after 1 tiedSections).update 0 (tiedFinish 9).change).entries,
        e ∉ (after 1 (tiedSections ++ [tiedFinish 9])).entries →
          ∀ kept ∈ (after 1 (tiedSections ++ [tiedFinish 9])).entries,
            kept.status.state.isFinished = true → e.status.Precedes kept.status := by
  have hsections : Interleaving tiedSections := interleaving_of_jobs (by decide)
  have htied : Interleaving (tiedSections ++ [tiedFinish 9]) := interleaving_of_jobs (by decide)
  have hlater : Interleaving (tiedSections ++ [tiedFinish 10]) := interleaving_of_jobs (by decide)
  obtain ⟨-, hbound, -, hstarted, hstep⟩ := table_invariant 1 tiedSections hsections
  obtain ⟨s, phase, hs, hrunning⟩ := (hstarted 0).mp (by decide)
  obtain ⟨-, -, -, hvanishes, hevicted⟩ := hstep (tiedFinish 9) htied
  obtain ⟨-, -, -, hstays, -⟩ := hstep (tiedFinish 10) hlater
  refine ⟨hsections, htied, hlater, hbound, ?_, ?_, fun e he hgone =>
    (hevicted 0 (.error "broken") 9 rfl e he hgone).2⟩
  · exact (hvanishes 0 s phase hs hrunning).mpr ⟨_, 9, rfl, by decide⟩
  · -- with a later time the job itself is the newest, so nothing is above it
    rw [Ne, hstays 0 s phase hs hrunning]
    rintro ⟨result, now, heq, hmany⟩
    cases heq
    revert hmany
    decide

end JobTable

end CallAtlas
