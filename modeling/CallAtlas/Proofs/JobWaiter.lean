import CallAtlas.Proofs.JobInterleaving
import Mathlib.Data.List.Perm.Subperm

/-!
# Proofs.JobWaiter — what one who waits for a job is told

Waiting takes several steps, and the sections of all jobs may come between them. The waiter looks
the job up once. Then it registers for the notice that its job sends after the last section, reads
the status, and sleeps until the notice if the job is not finished. Whether the job is still in the
table when the status is read is left to the other jobs.

* `mem_ids_evict_iff`, `overtaken_iff` — when a job is no longer there.
* `answer_none_iff` — what the answer is, and exactly when there is none.
* `waiter_overtaken` — another job finishes before the waiter is awake.
-/

namespace CallAtlas

/-! ## Jobs that are no longer there -/

/-- The job that finishes with this. -/
def JobSection.finished? : JobSection → Option JobId
  | finish id _ _ => some id
  | submit _ _ _ | start _ _ | enterPhase _ _ | remove _ => none

namespace JobTable

variable {t : JobTable} {sections : List JobSection} {next : JobSection} {id : JobId} {r : Nat}

/-- A job is finished, and as many jobs as the table keeps finished after it. -/
def Crowded (t : JobTable) (id : JobId) : Prop :=
  ∃ s, t.status? id = some s ∧ s.state.isFinished = true ∧ t.retention ≤ t.laterThan s

/-- Eviction takes a job exactly when it is crowded out. -/
theorem mem_ids_evict_iff (hids : t.ids.Nodup) (hmem : id ∈ t.ids) :
    id ∈ t.evict.ids ↔ ¬ t.Crowded id := by
  obtain ⟨e, he, rfl⟩ := mem_ids.mp hmem
  have hstays : e.status.id ∈ t.evict.ids ↔ e ∈ t.evict.entries := by
    rw [mem_ids]
    constructor
    · rintro ⟨e', he', hid⟩
      exact eq_of_id_eq hids (List.mem_of_mem_filter he') he hid ▸ he'
    · exact fun h => ⟨e, h, rfl⟩
  have hcrowded : t.Crowded e.status.id ↔
      e.status.state.isFinished = true ∧ t.retention ≤ t.laterThan e.status := by
    have hstatus : t.status? e.status.id = some e.status :=
      (status?_eq_some_iff hids).mpr ⟨e, he, rfl, rfl⟩
    constructor
    · rintro ⟨s, hs, h⟩
      obtain rfl : e.status = s := Option.some.inj (hstatus.symm.trans hs)
      exact h
    · exact fun h => ⟨e.status, hstatus, h⟩
  rw [hstays, hcrowded, mem_evict hids, and_iff_right he]

/-- Some job finished when this one was finished already and became one too many. -/
def Overtaken (r : Nat) (id : JobId) (sections : List JobSection) : Prop :=
  ∃ done job result now rest, sections = done ++ .finish job result now :: rest ∧
    ((after r done).update job (JobSection.finish job result now).change).Crowded id

/-- A job is overtaken in a history when it was before, or when the last section crowds it out. -/
theorem overtaken_append_iff :
    Overtaken r id (sections ++ [next]) ↔ Overtaken r id sections ∨
      ∃ job result now, next = .finish job result now ∧
        ((after r sections).update job next.change).Crowded id := by
  constructor
  · rintro ⟨done, job, result, now, rest, hsplit, hcrowded⟩
    -- the crowding finish is the last section or an earlier one
    rcases List.eq_nil_or_concat rest with rfl | ⟨rest, last, rfl⟩
    · obtain ⟨rfl, hnext⟩ := List.append_inj' hsplit rfl
      obtain rfl : next = .finish job result now := List.head_eq_of_cons_eq hnext
      exact Or.inr ⟨job, result, now, rfl, hcrowded⟩
    · rw [List.concat_eq_append, ← List.cons_append, ← List.append_assoc] at hsplit
      exact Or.inl ⟨done, job, result, now, rest, (List.append_inj' hsplit rfl).1, hcrowded⟩
  · rintro (⟨done, job, result, now, rest, rfl, hcrowded⟩ | ⟨job, result, now, rfl, hcrowded⟩)
    · exact ⟨done, job, result, now, rest ++ [next], by simp, hcrowded⟩
    · exact ⟨sections, job, result, now, [], rfl, hcrowded⟩

/-- Entries are made by submitting only. -/
theorem mem_ids_of_perform (h : id ∈ (t.perform next).ids) :
    id ∈ t.ids ∨ ∃ files now, next = .submit id files now := by
  -- only a submission brings in an id
  cases next with
  | submit job files now =>
    have hids : (t.submit job files now).ids = t.ids ++ [job] := by simp [submit, ids]
    rw [perform, hids, List.mem_append, List.mem_singleton] at h
    exact h.imp_right fun heq => ⟨files, now, by rw [heq]⟩
  | start job now => exact Or.inl ((ids_update (JobSection.start job now).id_change) ▸ h)
  | enterPhase job phase =>
    exact Or.inl ((ids_update (JobSection.enterPhase job phase).id_change) ▸ h)
  | finish job result now =>
    left
    rw [perform, finish] at h
    split at h
    · have hids : (t.update job (·.finish result now)).ids = t.ids :=
        ids_update (JobSection.finish job result now).id_change
      exact hids ▸ (ids_evict_sublist _).subset h
    · exact h
  | remove job =>
    left
    rw [perform, remove] at h
    split at h
    · exact (List.filter_sublist.map _).subset h
    · exact h

/-- The step at which a job goes that nobody removes. -/
theorem Accounted.gone_iff_crowded (h : t.Accounted sections)
    (hnext : Interleaving (sections ++ [next])) (hkept : next ≠ .remove id) (hmem : id ∈ t.ids) :
    id ∉ (t.perform next).ids ↔
      ∃ job result now, next = .finish job result now ∧ (t.update job next.change).Crowded id := by
  -- a finish keeps all ids and then evicts the crowded ones
  have hfinish : ∀ job result now, next = .finish job result now →
      (id ∉ (t.perform next).ids ↔ (t.update job next.change).Crowded id) := by
    rintro job result now rfl
    have hids : (t.update job (JobSection.finish job result now).change).ids = t.ids :=
      ids_update (JobSection.id_change _)
    rw [h.perform_finish hnext,
      mem_ids_evict_iff (by rw [hids]; exact h.nodup) (by rw [hids]; exact hmem), not_not]
  constructor
  · intro hgone
    obtain ⟨before, hbefore⟩ := exists_status? hmem
    rcases h.vanishes hnext hbefore (status?_eq_none_iff.mpr hgone)
      with ⟨hremove, -⟩ | ⟨job, result, now, hlast, -⟩
    · exact absurd hremove hkept
    · exact ⟨job, result, now, hlast, (hfinish job result now hlast).mp hgone⟩
  · rintro ⟨job, result, now, hlast, hcrowded⟩
    exact (hfinish job result now hlast).mpr hcrowded

/-- A new job is there as soon as it is submitted. -/
theorem Accounted.mem_ids_iff_submitted (h : t.Accounted sections)
    (hnext : Interleaving (sections ++ [next])) (hnew : stageOf id sections = some .unknown) :
    id ∈ (t.perform next).ids ↔ stageOf id (sections ++ [next]) ≠ some .unknown := by
  constructor
  · intro hmem hstill
    rcases mem_ids_of_perform hmem with hold | ⟨files, now, rfl⟩
    · exact h.not_mem_of_unknown hnew hold
    · rw [(hnext.stages rfl).2] at hstill
      cases hstill
  · intro hlater
    by_cases hjob : next.job? = some id
    · -- of its own sections only the first one can come now
      have hfrom : next.stages.1 = .unknown :=
        Option.some.inj ((hnext.stages hjob).1.symm.trans hnew)
      cases next with
      | submit job files now =>
        obtain rfl : job = id := Option.some.inj hjob
        simp [JobTable.perform, JobTable.submit, ids]
      | start | enterPhase | finish | remove => cases hfrom
    · exact absurd ((stageOf_append_of_ne hjob).trans hnew) hlater

/-- A job that is known stays known. -/
theorem stageOf_append_ne_unknown (h : Interleaving (sections ++ [next]))
    (hknown : stageOf id sections ≠ some .unknown) :
    stageOf id (sections ++ [next]) ≠ some .unknown := by
  by_cases hjob : next.job? = some id
  · rw [(h.stages hjob).2]
    cases next <;> simp [JobSection.stages]
  · rwa [stageOf_append_of_ne hjob]

/-- **When a job is gone.** Of the jobs that nobody removes, those that were submitted and are not
there any more are the ones that were overtaken. -/
theorem overtaken_iff (r : Nat) (h : Interleaving sections) (hkept : .remove id ∉ sections) :
    Overtaken r id sections ↔ id ∉ (after r sections).ids ∧
      stageOf id sections ≠ some .unknown := by
  induction sections using List.reverseRecOn with
  | nil =>
    refine iff_of_false ?_ fun ⟨_, hknown⟩ => hknown rfl
    rintro ⟨done, job, result, now, rest, hsplit, -⟩
    simp at hsplit
  | append_singleton sections next ih =>
    rw [List.mem_append, not_or, List.mem_singleton] at hkept
    have haccounted := accounted_after r h.init
    rw [overtaken_append_iff, ih h.init hkept.1, after_append]
    by_cases hnew : stageOf id sections = some .unknown
    · have hfresh := haccounted.not_mem_of_unknown hnew
      refine iff_of_false ?_ fun hlater =>
        hlater.1 ((haccounted.mem_ids_iff_submitted h hnew).mpr hlater.2)
      rintro (⟨-, hknown⟩ | ⟨job, result, now, -, s, hs, -⟩)
      · exact hknown hnew
      · rw [status?_eq_none_iff.mpr (by rw [ids_update next.id_change]; exact hfresh)] at hs
        cases hs
    · have hlater := stageOf_append_ne_unknown h hnew
      by_cases hmem : id ∈ (after r sections).ids
      · rw [and_iff_left hlater, haccounted.gone_iff_crowded h (Ne.symm hkept.2) hmem]
        exact or_iff_right fun hgone => hgone.1 hmem
      · -- what is gone is not submitted again
        refine iff_of_true (Or.inl ⟨hmem, hnew⟩) ⟨fun hback => ?_, hlater⟩
        rcases mem_ids_of_perform hback with hback | ⟨files, now, rfl⟩
        · exact hmem hback
        · exact hnew (h.stages rfl).1

/-! ### How many jobs it takes -/

/-- The jobs other than `id` that have finished, in this order. -/
def othersFinished (id : JobId) (sections : List JobSection) : List JobId :=
  (sections.filterMap JobSection.finished?).filter (· != id)

/-- A job that is over has had its finish. -/
theorem mem_finished?_of_over (h : Interleaving sections)
    (hover : stageOf id sections = some .over) : id ∈ sections.filterMap JobSection.finished? := by
  induction sections using List.reverseRecOn with
  | nil => cases hover
  | append_singleton sections next ih =>
    rw [List.filterMap_append, List.mem_append]
    by_cases hjob : next.job? = some id
    · rw [(h.stages hjob).2] at hover
      cases next with
      | finish job result now =>
        exact Or.inr (by simpa [JobSection.finished?, JobSection.job?] using hjob.symm)
      | submit | start | enterPhase => cases hover
      | remove => cases hjob
    · rw [stageOf_append_of_ne hjob] at hover
      exact Or.inl (ih h.init hover)

/-- The jobs after a job in the table are among the others that have finished. -/
theorem Accounted.laterThan_le (h : t.Accounted sections) (hsections : Interleaving sections)
    {s : JobStatus} (hs : t.status? id = some s) :
    t.laterThan s ≤ (othersFinished id sections).length := by
  obtain ⟨e, he, rfl, rfl⟩ := (status?_eq_some_iff h.nodup).mp hs
  let later := t.finished.filter (e.status.Precedes ·)
  have hnodup : (later.map (·.id)).Nodup :=
    (nodup_finished_ids h.nodup).sublist (List.filter_sublist.map _)
  have hsub : later.map (·.id) ⊆ othersFinished e.status.id sections := by
    intro other hother
    obtain ⟨s, hs, rfl⟩ := List.mem_map.mp hother
    obtain ⟨hs, hprecedes⟩ := List.mem_filter.mp hs
    obtain ⟨⟨e', he', rfl⟩, hfinished⟩ := mem_finished.mp hs
    have hstage := (h.stage e' he').trans (congrArg some (JobState.stage_eq_over_iff.mpr hfinished))
    refine List.mem_filter.mpr ⟨mem_finished?_of_over hsections hstage, ?_⟩
    rw [bne_iff_ne]
    intro hid
    -- nothing comes after itself
    have hself : e.status.Precedes e.status := by
      simpa [eq_of_id_eq h.nodup he' he hid] using hprecedes
    exact hself.asymm hself
  rw [laterThan, List.countP_eq_length_filter, ← List.length_map (·.id)]
  exact (List.subperm_of_subset hnodup hsub).length_le

/-- A job is overtaken by as many others as the table keeps. -/
theorem Overtaken.le_others (h : Interleaving sections) (hovertaken : Overtaken r id sections) :
    r ≤ (othersFinished id sections).length := by
  obtain ⟨done, job, result, now, rest, rfl, s, hs, -, hlater⟩ := hovertaken
  have hfirst : Interleaving (done ++ [.finish job result now]) := by
    rw [List.append_cons] at h
    exact h.of_append
  have hle :=
    ((accounted_after r hfirst.init).change hfirst rfl (Or.inr rfl)).laterThan_le hfirst hs
  have hretention : ((after r done).update job (JobSection.finish job result now).change).retention
      = r :=
    retention_after r done
  have hpart : (othersFinished id (done ++ [.finish job result now])).length
      ≤ (othersFinished id (done ++ .finish job result now :: rest)).length := by
    rw [List.append_cons done _ rest]
    exact (((List.sublist_append_left _ rest).filterMap _).filter _).length_le
  omega

end JobTable

/-! ## Waiting -/

/-- Where a waiter stands. -/
inductive Waiter where
  | idle
  /-- The job was found, or the waiter is awake again. -/
  | awake
  /-- It gets the notice from now on; `notified` if it has come already. -/
  | registered (notified : Bool)
  | asleep
  | answered (answer : Option JobStatus)
deriving DecidableEq, Repr

/-- A section of some job, a step of the waiter, or the notice of its job. -/
inductive WaitEvent where
  | work (next : JobSection)
  | lookUp
  | register
  | read
  | notify

/-- A waiter and the sections so far. -/
structure Watch where
  sections : List JobSection := []
  waiter : Waiter := .idle

namespace Watch

variable {r : Nat} {id : JobId} {s s' : Watch} {e : WaitEvent} {events : List WaitEvent}

/-- What the waiter does when it has read the table. -/
def afterRead (status : Option JobStatus) (notified : Bool) : Waiter :=
  match status with
  | none => .answered none
  | some s =>
    if s.state.isFinished then .answered (some s) else if notified then .awake else .asleep

/-- One event. There is none that the waiter is not ready for, and the notice comes after the last
section of the job. -/
def step? (r : Nat) (id : JobId) (s : Watch) : WaitEvent → Option Watch
  | .work next => some { s with sections := s.sections ++ [next] }
  | .lookUp =>
    match s.waiter with
    | .idle =>
      some
        { s with
          waiter :=
            if ((JobTable.after r s.sections).status? id).isSome then .awake else .answered none }
    | _ => none
  | .register =>
    match s.waiter with
    | .awake => some { s with waiter := .registered false }
    | _ => none
  | .read =>
    match s.waiter with
    | .registered notified =>
      some { s with waiter := afterRead ((JobTable.after r s.sections).status? id) notified }
    | _ => none
  | .notify =>
    if stageOf id s.sections = some .over then
      match s.waiter with
      | .registered _ => some { s with waiter := .registered true }
      | .asleep => some { s with waiter := .awake }
      | _ => some s
    else none

/-- All events, from the start. -/
def run? (r : Nat) (id : JobId) (events : List WaitEvent) : Option Watch :=
  events.foldlM (step? r id) {}

/-- A run with one more event is one step more. -/
theorem run?_append (r : Nat) (id : JobId) (events : List WaitEvent) (e : WaitEvent) :
    run? r id (events ++ [e]) = (run? r id events).bind (step? r id · e) := by
  simp [run?]

/-- The sections among the events. -/
def sectionsOf (events : List WaitEvent) : List JobSection :=
  events.filterMap fun e =>
    match e with
    | .work next => some next
    | .lookUp | .register | .read | .notify => none

/-- Only the workers add to the history, one section at a time. -/
theorem sections_of_step? (h : step? r id s e = some s') :
    s'.sections = s.sections ++ sectionsOf [e] := by
  cases e with
  | work next =>
    cases h
    rfl
  -- the waiter's own steps leave the history alone
  | lookUp =>
    simp only [step?] at h
    split at h <;> cases h
    exact (List.append_nil _).symm
  | register =>
    simp only [step?] at h
    split at h <;> cases h
    exact (List.append_nil _).symm
  | read =>
    simp only [step?] at h
    split at h <;> cases h
    exact (List.append_nil _).symm
  | notify =>
    simp only [step?] at h
    split at h
    · split at h <;> cases h <;> exact (List.append_nil _).symm
    · cases h

/-- The waiter has found its job and has no answer yet. -/
def hasFound : Waiter → Bool
  | .awake | .registered _ | .asleep => true
  | .idle | .answered _ => false

/-- The job is looked up once; from then on it counts as found. -/
theorem hasFound_cases (h : step? r id s e = some s') (hfound : hasFound s'.waiter = true) :
    hasFound s.waiter = true ∨ ((JobTable.after r s.sections).status? id).isSome = true := by
  cases e with
  | work next =>
    cases h
    exact Or.inl hfound
  -- the look-up is where the waiter finds its job, all later steps start from that
  | lookUp =>
    simp only [step?] at h
    split at h <;> cases h
    by_cases hsome : ((JobTable.after r s.sections).status? id).isSome = true
    · exact Or.inr hsome
    · simp [hsome, hasFound] at hfound
  | register =>
    simp only [step?] at h
    split at h <;> cases h
    next hw => exact Or.inl (by rw [hw]; rfl)
  | read =>
    simp only [step?] at h
    split at h <;> cases h
    next hw => exact Or.inl (by rw [hw]; rfl)
  | notify =>
    simp only [step?] at h
    split at h
    · split at h <;> cases h
      · next hw => exact Or.inl (by rw [hw]; rfl)
      · next hw => exact Or.inl (by rw [hw]; rfl)
      · exact Or.inl hfound
    · cases h

/-- A job that was found has been submitted. -/
theorem known_of_hasFound (h : run? r id events = some s) (hsections : Interleaving s.sections)
    (hfound : hasFound s.waiter = true) : stageOf id s.sections ≠ some .unknown := by
  -- along the run: a job once found in the table has been submitted, and stays known
  induction events using List.reverseRecOn generalizing s with
  | nil =>
    cases h
    cases hfound
  | append_singleton events e ih =>
    rw [run?_append] at h
    obtain ⟨before, hbefore, hstep⟩ := Option.bind_eq_some_iff.mp h
    have hsplit := sections_of_step? hstep
    rw [hsplit] at hsections
    have hknown : stageOf id before.sections ≠ some .unknown := by
      rcases hasFound_cases hstep hfound with hearlier | hsome
      · exact ih hbefore hsections.of_append hearlier
      · obtain ⟨status, hstatus⟩ := Option.isSome_iff_exists.mp hsome
        rw [(JobTable.accounted_after r hsections.of_append).stage_of_status? hstatus]
        cases status.state <;> simp [JobState.stage]
    rw [hsplit]
    cases e with
    | work next => exact JobTable.stageOf_append_ne_unknown hsections hknown
    | lookUp | register | read | notify => rwa [show sectionsOf _ = [] from rfl, List.append_nil]

/-- Only a read that finds the job finished or gone gives an answer. -/
theorem answer_of_read (h : run? r id (events ++ [.read]) = some s) {answer : Option JobStatus}
    (hanswer : s.waiter = .answered answer) (hsections : Interleaving s.sections) :
    answer = (JobTable.after r s.sections).status? id ∧
      (∀ status, answer = some status → status.state.isFinished = true) ∧
      stageOf id s.sections ≠ some .unknown := by
  rw [run?_append] at h
  obtain ⟨before, hbefore, hstep⟩ := Option.bind_eq_some_iff.mp h
  obtain ⟨sections, waiter⟩ := before
  cases waiter with
  | idle | awake | asleep | answered _ => cases hstep
  -- only a registered waiter reads; it answers if the job is gone or finished
  | registered notified =>
    cases hstep
    have hknown := known_of_hasFound hbefore hsections rfl
    dsimp only at hanswer hsections hknown ⊢
    cases hstatus : (JobTable.after r sections).status? id with
    | none =>
      rw [hstatus] at hanswer
      cases hanswer
      exact ⟨rfl, fun _ h => (nomatch h), hknown⟩
    | some status =>
      rw [hstatus, afterRead] at hanswer
      by_cases hfinished : status.state.isFinished = true
      · rw [if_pos hfinished] at hanswer
        cases hanswer
        exact ⟨rfl, fun status' h => Option.some.inj h ▸ hfinished, hknown⟩
      · rw [if_neg hfinished] at hanswer
        cases notified <;> cases hanswer

/-- **What a waiter is told.** Only one that found its job comes to read the status. If nobody
removes the job, its answer is a finished status of the job, or there is none, and this is so
exactly if the job was overtaken: when it was finished, some job finished and left as many later
ones in the table as it keeps. This cannot happen as long as fewer other jobs than that have
finished. -/
theorem answer_none_iff (r : Nat) (id : JobId) (events : List WaitEvent) (s : Watch)
    (answer : Option JobStatus) (hrun : run? r id (events ++ [.read]) = some s)
    (hanswer : s.waiter = .answered answer) (hsections : Interleaving s.sections)
    (hkept : .remove id ∉ s.sections) :
    (answer = none ↔ JobTable.Overtaken r id s.sections) ∧
      (∀ status, answer = some status → status.id = id ∧ status.state.isFinished = true) ∧
      ((JobTable.othersFinished id s.sections).length < r → answer ≠ none) := by
  obtain ⟨hread, hfinished, hknown⟩ := answer_of_read hrun hanswer hsections
  have hnone : answer = none ↔ JobTable.Overtaken r id s.sections := by
    rw [JobTable.overtaken_iff r hsections hkept, and_iff_left hknown, hread,
      JobTable.status?_eq_none_iff]
  refine ⟨hnone, fun status hstatus => ⟨?_, hfinished status hstatus⟩, fun hfew hgone => ?_⟩
  · rw [hread] at hstatus
    obtain ⟨-, -, -, hid⟩ :=
      (JobTable.status?_eq_some_iff (JobTable.accounted_after r hsections).nodup).mp hstatus
    exact hid
  · exact absurd ((hnone.mp hgone).le_others hsections) (Nat.not_le.mpr hfew)

/-! Two jobs run. Someone waits for the first one and sleeps. When it finishes, the waiter is woken.
Before it looks, the second job finishes, and the table keeps only that. -/

def twoRunning : List WaitEvent :=
  [.work (.submit 0 1 1), .work (.submit 1 1 2), .work (.start 0 3), .work (.start 1 4), .lookUp,
    .register, .read]

def wokenInTime : List WaitEvent :=
  twoRunning ++ [.work (.finish 0 (.error "broken") 5), .notify, .register]

def wokenLate : List WaitEvent :=
  twoRunning ++ [.work (.finish 0 (.error "broken") 5), .notify,
    .work (.finish 1 (.error "broken") 6), .register]

/-- Without the second job in between the waiter learns how its job has ended. -/
theorem answer_none_iff_in_time :
    ∃ s status, run? 1 0 (wokenInTime ++ [.read]) = some s ∧ s.waiter = .answered (some status) ∧
      Interleaving s.sections ∧ .remove 0 ∉ s.sections ∧ status.id = 0 ∧
        status.state.isFinished = true := by
  have hrun : run? 1 0 (wokenInTime ++ [.read])
      = some ⟨sectionsOf wokenInTime,
        .answered (some ⟨0, .failed "broken", 1, 1, some 3, some 5⟩)⟩ := by cbv
  have hsections : Interleaving (sectionsOf wokenInTime) := interleaving_of_jobs (by decide)
  have hkept : JobSection.remove 0 ∉ sectionsOf wokenInTime := by
    simp [sectionsOf, wokenInTime, twoRunning]
  obtain ⟨-, hsome, -⟩ := answer_none_iff 1 0 wokenInTime _ _ hrun rfl hsections hkept
  exact ⟨_, _, hrun, rfl, hsections, hkept, hsome _ rfl⟩

/-- **A waiter is overtaken.** The job was found, it finished and nobody removed it, and still the
waiter is told that there is no such job. -/
theorem waiter_overtaken :
    ∃ s, run? 1 0 (wokenLate ++ [.read]) = some s ∧ s.waiter = .answered none ∧
      Interleaving s.sections ∧
      .remove 0 ∉ s.sections := by
  have hrun : run? 1 0 (wokenLate ++ [.read]) = some ⟨sectionsOf wokenLate, .answered none⟩ := by
    cbv
  exact ⟨_, hrun, rfl, interleaving_of_jobs (by decide),
    by simp [sectionsOf, wokenLate, twoRunning]⟩

end Watch

end CallAtlas
