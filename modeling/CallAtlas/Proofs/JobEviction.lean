import CallAtlas.Job.Table
import CallAtlas.Proofs.Sorting
import Mathlib.Data.Prod.Lex

/-!
# Proofs.JobEviction — which finished jobs a table drops

Finished jobs are sorted by the time they finished and then by id, and the first ones go. In a table
with one entry for each id this comes to a count: a finished job goes exactly if there are already
as many later ones as the table keeps.

* `mem_evict` — the entries that stay.
* `length_finished_evict` — no more finished jobs stay than the table keeps.
* `precedes_of_evicted` — what goes comes before what stays.
-/

namespace CallAtlas

/-! ## The end of a sorted list -/

/-- In a list that increases, the last `keep` elements are those with fewer than `keep` elements
above them. -/
theorem mem_take_of_pairwise {α : Type} {lt : α → α → Prop} [DecidableRel lt]
    (hasymm : ∀ a b, lt a b → ¬ lt b a) {xs : List α} (hxs : xs.Pairwise lt) (keep : Nat) {x : α} :
    x ∈ xs.take (xs.length - keep) ↔ x ∈ xs ∧ keep ≤ xs.countP (lt x ·) := by
  induction xs with
  | nil => simp
  | cons a rest ih =>
    obtain ⟨hhead, htail⟩ := List.pairwise_cons.mp hxs
    have hrest := ih htail
    have hself : ¬ lt a a := fun h => hasymm a a h h
    have hall : rest.countP (lt a ·) = rest.length :=
      List.countP_eq_length.mpr fun b hb => by simpa using hhead b hb
    by_cases hkeep : keep ≤ rest.length
    · rw [List.length_cons, Nat.succ_sub hkeep, List.take_succ_cons, List.mem_cons,
        List.mem_cons, hrest]
      by_cases hxa : x = a
      · subst hxa
        simp [hself, hall, hkeep]
      · by_cases hx : x ∈ rest
        · have hbelow : ¬ lt x a := hasymm a x (hhead x hx)
          simp [hxa, hx, hbelow]
        · simp [hxa, hx]
    · -- everything is kept, and nothing has so many elements above it
      have hnone : (a :: rest).length - keep = 0 := by simp only [List.length_cons]; omega
      rw [hnone, List.take_zero]
      refine iff_of_false List.not_mem_nil fun ⟨hx, hcount⟩ => ?_
      rcases List.mem_cons.mp hx with rfl | hx
      · rw [List.countP_cons_of_neg (by simpa using hself), hall] at hcount
        omega
      · have hbelow : ¬ lt x a := hasymm a x (hhead x hx)
        have hle : rest.countP (lt x ·) ≤ rest.length := List.countP_le_length
        rw [List.countP_cons_of_neg (by simpa using hbelow)] at hcount
        omega

/-! ## Tables -/

namespace JobStatus

/-- Finished earlier, or at the same time with a lower id. -/
def Precedes (a b : JobStatus) : Prop :=
  toLex (JobTable.evictionKey a) < toLex (JobTable.evictionKey b)

instance : DecidableRel Precedes := fun _ _ => inferInstanceAs (Decidable (toLex _ < toLex _))

/-- Of two jobs at most one goes before the other. -/
theorem Precedes.asymm {a b : JobStatus} (h : a.Precedes b) : ¬ b.Precedes a := lt_asymm h

theorem Precedes.trans {a b c : JobStatus} (hab : a.Precedes b) (hbc : b.Precedes c) :
    a.Precedes c := lt_trans hab hbc

/-- Of two different jobs one goes before the other. -/
theorem precedes_or_of_id_ne {a b : JobStatus} (h : a.id ≠ b.id) : a.Precedes b ∨ b.Precedes a := by
  refine lt_or_gt_of_ne fun heq => h ?_
  exact congrArg Prod.snd (toLex.injective heq)

end JobStatus

namespace JobTable

variable {t : JobTable} {e : JobEntry}

def ids (t : JobTable) : List JobId := t.entries.map (·.status.id)

/-- The finished jobs, in the order of the table. -/
def finished (t : JobTable) : List JobStatus :=
  (t.entries.map (·.status)).filter (·.state.isFinished)

/-- Number of finished jobs that come after a status. -/
def laterThan (t : JobTable) (s : JobStatus) : Nat := t.finished.countP (s.Precedes ·)

/-- Number of finished jobs that come after a time and an id. -/
def finishedAfter (t : JobTable) (now : Nat) (id : JobId) : Nat :=
  t.finished.countP fun s => toLex (now, id) < toLex (evictionKey s)

/-- The finished jobs are the entries in a finished state. -/
theorem mem_finished {s : JobStatus} :
    s ∈ t.finished ↔ (∃ e ∈ t.entries, e.status = s) ∧ s.state.isFinished = true := by
  rw [finished, List.mem_filter, List.mem_map]

/-- An entry is known by its id. -/
theorem eq_of_id_eq (hids : t.ids.Nodup) {a b : JobEntry} (ha : a ∈ t.entries) (hb : b ∈ t.entries)
    (h : a.status.id = b.status.id) : a = b :=
  List.inj_on_of_nodup_map hids ha hb h

theorem nodup_finished_ids (hids : t.ids.Nodup) : (t.finished.map (·.id)).Nodup := by
  have hall : ((t.entries.map (·.status)).map (·.id)).Nodup := by
    rw [List.map_map]
    exact hids
  exact hall.sublist (List.filter_sublist.map _)

/-- The finished jobs in the order in which they are dropped. -/
def byAge (t : JobTable) : List JobStatus :=
  Order.sortOn (Order.lex Order.count Order.count) evictionKey t.finished

/-- Sorting by age neither loses nor adds a job. -/
theorem perm_byAge (t : JobTable) : t.byAge.Perm t.finished := Order.perm_sortOn _ _ _

/-- Sorted by age, every job goes before all that follow. -/
theorem pairwise_byAge (hids : t.ids.Nodup) : t.byAge.Pairwise JobStatus.Precedes := by
  have hle : t.byAge.Pairwise fun a b =>
      Order.lex Order.count Order.count (evictionKey a) (evictionKey b) = true :=
    Order.pairwise_sortOn (Order.lex_total Order.count_total Order.count_total) _ _
  have hne : t.byAge.Pairwise fun a b => a.id ≠ b.id := by
    rw [← List.pairwise_map (R := (· ≠ ·))]
    exact ((perm_byAge t).map _).nodup_iff.mpr (nodup_finished_ids hids)
  refine hle.imp₂ (fun a b hle hne => ?_) hne
  rw [Order.lex_eq_true] at hle
  simp only [Order.count, decide_eq_true_eq] at hle
  rw [JobStatus.Precedes, Prod.Lex.toLex_lt_toLex]
  -- jobs of one time differ in their ids, so the order is strict
  by_cases hfirst : (evictionKey a).1 = (evictionKey b).1
  · exact Or.inr ⟨hfirst, lt_of_le_of_ne (hle.2 hfirst.ge) hne⟩
  · exact Or.inl (lt_of_le_of_ne hle.1 hfirst)

/-- The excess are the oldest, as many as exceed the retention. -/
theorem excess_eq (t : JobTable) :
    t.excess = (t.byAge.take (t.byAge.length - t.retention)).map (·.id) := by
  rw [(perm_byAge t).length_eq]
  rfl

/-- **A finished job is in excess exactly when the retention is used up by jobs after it.** -/
theorem mem_excess (hids : t.ids.Nodup) (he : e ∈ t.entries) :
    e.status.id ∈ t.excess ↔ e.status.state.isFinished = true ∧
      t.retention ≤ t.laterThan e.status := by
  have hcount : t.byAge.countP (e.status.Precedes ·) = t.laterThan e.status :=
    (perm_byAge t).countP_eq _
  -- in a sorted list the first elements are those with enough elements after them
  have holdest (s : JobStatus) : s ∈ t.byAge.take (t.byAge.length - t.retention) ↔
      s ∈ t.byAge ∧ t.retention ≤ t.byAge.countP (s.Precedes ·) :=
    mem_take_of_pairwise (fun _ _ => JobStatus.Precedes.asymm) (pairwise_byAge hids) _
  rw [excess_eq, ← hcount, List.mem_map]
  constructor
  · rintro ⟨s, hs, hid⟩
    have hfinished := mem_finished.mp ((perm_byAge t).mem_iff.mp (List.mem_of_mem_take hs))
    obtain ⟨⟨e', he', rfl⟩, hstate⟩ := hfinished
    obtain rfl : e' = e := eq_of_id_eq hids he' he hid
    exact ⟨hstate, ((holdest _).mp hs).2⟩
  · rintro ⟨hstate, hlater⟩
    have hmem : e.status ∈ t.byAge :=
      (perm_byAge t).mem_iff.mpr (mem_finished.mpr ⟨⟨e, he, rfl⟩, hstate⟩)
    exact ⟨e.status, (holdest _).mpr ⟨hmem, hlater⟩, rfl⟩

/-- **What stays.** A finished job goes exactly if as many finished jobs come after it as the table
keeps. -/
theorem mem_evict (hids : t.ids.Nodup) :
    e ∈ t.evict.entries ↔
      e ∈ t.entries ∧ ¬ (e.status.state.isFinished = true ∧
        t.retention ≤ t.laterThan e.status) := by
  rw [evict, List.mem_filter]
  refine and_congr_right fun he => ?_
  rw [← mem_excess hids he]
  simp

theorem mem_evict_of_open (hids : t.ids.Nodup) (he : e ∈ t.entries)
    (hopen : e.status.state.isFinished = false) : e ∈ t.evict.entries :=
  (mem_evict hids).mpr ⟨he, fun h => by rw [hopen] at h; cases h.1⟩

theorem ids_evict_sublist (t : JobTable) : t.evict.ids.Sublist t.ids := List.filter_sublist.map _

/-- **The bound.** -/
theorem length_finished_evict (hids : t.ids.Nodup) : t.evict.finished.length ≤ t.retention := by
  -- the finished jobs that stay are, up to their order, the end of the sorted list
  have hstay : t.evict.finished = t.finished.filter fun s => !t.excess.contains s.id := by
    rw [finished, evict, finished, List.filter_map, List.filter_map, List.filter_map,
      List.filter_filter, List.filter_filter]
    congr 2
    funext e
    exact Bool.and_comm _ _
  have hsplit : (t.byAge.filter fun s => !t.excess.contains s.id)
      = t.byAge.drop (t.byAge.length - t.retention) := by
    have hnodup : (t.byAge.map (·.id)).Nodup :=
      ((perm_byAge t).map _).nodup_iff.mpr (nodup_finished_ids hids)
    rw [← List.take_append_drop (t.byAge.length - t.retention) t.byAge, List.map_append,
      List.nodup_append] at hnodup
    conv_lhs => rw [← List.take_append_drop (t.byAge.length - t.retention) t.byAge]
    rw [List.filter_append, List.filter_eq_nil_iff.mpr ?_, List.nil_append,
      List.filter_eq_self.mpr ?_]
    · intro s hs
      rw [Bool.not_eq_true', List.contains_eq_mem, decide_eq_false_iff_not, excess_eq]
      intro hmem
      exact hnodup.2.2 _ hmem _ (List.mem_map_of_mem hs) rfl
    · intro s hs
      rw [Bool.not_eq_true, Bool.not_eq_false', List.contains_iff_mem, excess_eq]
      exact List.mem_map_of_mem hs
  rw [hstay, ← ((perm_byAge t).filter _).length_eq, hsplit, List.length_drop]
  omega

/-- Only finished jobs are evicted, and only with the retention used up by later ones. -/
theorem finished_of_evicted (hids : t.ids.Nodup) (he : e ∈ t.entries)
    (hgone : e ∉ t.evict.entries) :
    e.status.state.isFinished = true ∧ t.retention ≤ t.laterThan e.status := by
  by_contra hstay
  exact hgone ((mem_evict hids).mpr ⟨he, hstay⟩)

/-- A job goes exactly if it is finished and as many finished jobs come after it as the table
keeps. -/
theorem not_mem_ids_evict (hids : t.ids.Nodup) (he : e ∈ t.entries) :
    e.status.id ∉ t.evict.ids ↔
      e.status.state.isFinished = true ∧ t.retention ≤ t.laterThan e.status := by
  constructor
  · intro hgone
    exact finished_of_evicted hids he fun hkept => hgone (List.mem_map_of_mem hkept)
  · intro hdropped hmem
    obtain ⟨kept, hkept, hid⟩ := List.mem_map.mp hmem
    obtain ⟨hin, hfew⟩ := (mem_evict hids).mp hkept
    obtain rfl := eq_of_id_eq hids hin he hid
    exact hfew hdropped

/-- **What goes comes before what stays.** -/
theorem precedes_of_evicted (hids : t.ids.Nodup) {kept : JobEntry} (he : e ∈ t.entries)
    (hgone : e ∉ t.evict.entries) (hkept : kept ∈ t.evict.entries)
    (hfinished : kept.status.state.isFinished = true) : e.status.Precedes kept.status := by
  obtain ⟨hmem, hfew⟩ := (mem_evict hids).mp hkept
  have hne : e.status.id ≠ kept.status.id := fun hid => hgone (eq_of_id_eq hids he hmem hid ▸ hkept)
  rcases JobStatus.precedes_or_of_id_ne hne with h | hbefore
  · exact h
  · -- what comes after the one that goes would also come after the one that stays
    refine absurd ⟨hfinished, (finished_of_evicted hids he hgone).2.trans ?_⟩ hfew
    exact List.countP_mono_left fun s _ hs => by simpa using hbefore.trans (by simpa using hs)

end JobTable

end CallAtlas
