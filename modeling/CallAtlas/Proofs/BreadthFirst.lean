import Mathlib.Data.String.Basic
import Mathlib.Data.List.Nodup
import Mathlib.Data.List.Perm.Subperm
import Mathlib.Order.Bounds.Defs
import Mathlib.Order.Nat
import CallAtlas.Settings.Basic

/-!
# Proofs.BreadthFirst — the queue invariant shared by the bounded walks over a call graph

Every bounded walk of the library works off a queue against the direction of a relation `R`: callers
of a declaration for the impact, unguarded callers for the error flow. The walks differ in what they
do beside that, so the argument that such a walk is exact is made here once, for any relation and
without reference to a walk.

* `Chain` — `n` steps of `R` lead from one id to another; distances are least lengths of chains.
* `Frontier` — the invariant. What was recorded is split into `done`, whose neighbours were looked
  at, and `queue`.
* `Frontier.push` and `Frontier.pop` — the two moves of a walk: record a new neighbour of the head,
  and leave the head.
* `Frontier.isLeast` — under the invariant alone every recorded distance is already the least one.
* `SearchResult` — what a bounded search owes its caller.
* `Searching` — the invariant of a bounded walk, with one lemma for each thing that can happen in a
  round. A walk is exact if it ends by `Searching.finish` or by `Searching.stop`.
-/

namespace CallAtlas

/-! ## Chains -/

/-- `Chain R n a b`: `n` steps of `R` lead from `a` to `b`. -/
inductive Chain (R : String → String → Prop) : Nat → String → String → Prop where
  | refl (a : String) : Chain R 0 a a
  | step {n : Nat} {a b c : String} (hstep : R a b) (rest : Chain R n b c) : Chain R (n + 1) a c

theorem Chain.eq_of_zero {R : String → String → Prop} {a b : String}
    (h : Chain R 0 a b) : a = b := by
  cases h
  rfl

/-- A set that holds the end of a chain and, with every member, all its `R`-predecessors holds the
start too. -/
theorem Chain.mem_of_closed {R : String → String → Prop} {S : String → Prop} {n : Nat}
    {a b : String} (h : Chain R n a b) (hclosed : ∀ x y, S y → R x y → S x) (hb : S b) : S a := by
  induction h with
  | refl _ => exact hb
  | step hstep _ ih => exact hclosed _ _ (ih hb) hstep

/-- Two chains, one where the other ends. -/
theorem Chain.trans {R : String → String → Prop} {m n : Nat} {a b c : String} (h : Chain R m a b)
    (hrest : Chain R n b c) : Chain R (m + n) a c := by
  induction h with
  | refl a =>
    rw [Nat.zero_add]
    exact hrest
  | step hstep _ ih =>
    rw [Nat.add_right_comm]
    exact .step hstep (ih hrest)

/-- A chain of one relation is a chain of every larger one. -/
theorem Chain.mono {R S : String → String → Prop} {n : Nat} {a b : String} (h : Chain R n a b)
    (hsub : ∀ x y, R x y → S x y) : Chain S n a b := by
  induction h with
  | refl a => exact .refl a
  | step hstep _ ih => exact .step (hsub _ _ hstep) ih

/-- Among the chains between two ids there is a shortest one. -/
theorem Chain.exists_isLeast {R : String → String → Prop} {a b : String} (h : ∃ n, Chain R n a b) :
    ∃ n, IsLeast {k | Chain R k a b} n := by
  classical
  exact ⟨Nat.find h, Nat.find_spec h, fun k hk => Nat.find_min' h hk⟩

/-! ## The invariant

`done ++ queue` is all that was recorded, in the order of discovery, the start with distance zero
included. -/

/-- The ids of recorded pairs. -/
def recordedIds (recorded : List (String × Nat)) : List String := recorded.map Prod.fst

@[simp] theorem recordedIds_append (a b : List (String × Nat)) :
    recordedIds (a ++ b) = recordedIds a ++ recordedIds b := List.map_append

@[simp] theorem recordedIds_cons (p : String × Nat) (l : List (String × Nat)) :
    recordedIds (p :: l) = p.1 :: recordedIds l := rfl

@[simp] theorem recordedIds_nil : recordedIds [] = [] := rfl

theorem mem_recordedIds {x : String} {l : List (String × Nat)} :
    x ∈ recordedIds l ↔ ∃ n, (x, n) ∈ l := by
  simp [recordedIds]

/-- A walk in progress against `R` from `start`, no deeper than `depth`. -/
structure Frontier (R : String → String → Prop) (depth : Nat) (start : String)
    (done queue : List (String × Nat)) : Prop where
  start_mem : (start, 0) ∈ done ++ queue
  nodup : (recordedIds (done ++ queue)).Nodup
  ordered : (done ++ queue).Pairwise fun a b => a.2 ≤ b.2
  /-- No recorded distance is more than one above that of a queued id. -/
  span : ∀ p ∈ done ++ queue, ∀ q ∈ queue, p.2 ≤ q.2 + 1
  bounded : ∀ p ∈ done ++ queue, p.2 ≤ depth
  sound : ∀ p ∈ done ++ queue, Chain R p.2 p.1 start
  /-- Above the depth limit, the predecessors of what is done are recorded at most one step further
  out. -/
  closed : ∀ p ∈ done, p.2 < depth → ∀ x, R x p.1 → ∃ m ≤ p.2 + 1, (x, m) ∈ done ++ queue

namespace Frontier

variable {R : String → String → Prop} {depth : Nat} {start : String}
  {done queue : List (String × Nat)}

/-- The walk that has recorded only its start. -/
theorem initial (R : String → String → Prop) (depth : Nat) (start : String) :
    Frontier R depth start [] [(start, 0)] where
  start_mem := by simp
  nodup := by simp
  ordered := by simp
  span := by simp
  bounded := by simp
  sound := by
    intro p hp
    obtain rfl : p = (start, 0) := by simpa using hp
    exact .refl start
  closed := by simp

/-- **Recording a neighbour.** A new predecessor of the head of the queue goes to the end of the
queue, one step further out than the head. -/
theorem push {id x : String} {n : Nat} (h : Frontier R depth start done ((id, n) :: queue))
    (hn : n < depth) (hx : R x id) (hnew : x ∉ recordedIds (done ++ (id, n) :: queue)) :
    Frontier R depth start done ((id, n) :: (queue ++ [(x, n + 1)])) := by
  have hsplit : done ++ (id, n) :: (queue ++ [(x, n + 1)])
      = (done ++ (id, n) :: queue) ++ [(x, n + 1)] := by simp
  have hhead : (id, n) ∈ (id, n) :: queue := by simp
  have hfar : ∀ p ∈ done ++ (id, n) :: queue, p.2 ≤ n + 1 := fun p hp => h.span p hp (id, n) hhead
  -- whatever is still queued is at least as far out as the head
  have hqueue : ∀ q ∈ (id, n) :: queue, n ≤ q.2 := by
    intro q hq
    rcases List.mem_cons.mp hq with rfl | hq
    · exact Nat.le_refl _
    · have hp := (List.pairwise_append.mp h.ordered).2.1
      exact (List.pairwise_cons.mp hp).1 q hq
  constructor
  · rw [hsplit]
    exact List.mem_append_left _ h.start_mem
  · rw [hsplit, recordedIds_append, List.nodup_append]
    refine ⟨h.nodup, by simp, ?_⟩
    intro a ha b hb
    obtain rfl : b = x := by simpa using hb
    rintro rfl
    exact hnew ha
  · rw [hsplit, List.pairwise_append]
    refine ⟨h.ordered, by simp, ?_⟩
    intro a ha b hb
    obtain rfl : b = (x, n + 1) := by simpa using hb
    exact hfar a ha
  · rw [hsplit]
    intro p hp q hq
    have hq' : n ≤ q.2 := by
      rw [← List.cons_append] at hq
      rcases List.mem_append.mp hq with hq | hq
      · exact hqueue q hq
      · obtain rfl : q = (x, n + 1) := by simpa using hq
        exact Nat.le_succ n
    rcases List.mem_append.mp hp with hp | hp
    · have := hfar p hp
      omega
    · obtain rfl : p = (x, n + 1) := by simpa using hp
      show n + 1 ≤ q.2 + 1
      omega
  · rw [hsplit]
    intro p hp
    rcases List.mem_append.mp hp with hp | hp
    · exact h.bounded p hp
    · obtain rfl : p = (x, n + 1) := by simpa using hp
      exact hn
  · rw [hsplit]
    intro p hp
    rcases List.mem_append.mp hp with hp | hp
    · exact h.sound p hp
    · obtain rfl : p = (x, n + 1) := by simpa using hp
      exact .step hx (h.sound (id, n) (List.mem_append_right _ hhead))
  · rw [hsplit]
    intro p hp hlt y hy
    obtain ⟨m, hm, hmem⟩ := h.closed p hp hlt y hy
    exact ⟨m, hm, List.mem_append_left _ hmem⟩

/-- **Leaving the head.** Once all predecessors of the head are recorded, or the head sits at the
depth limit, it is done. -/
theorem pop {id : String} {n : Nat} (h : Frontier R depth start done ((id, n) :: queue))
    (hall : n < depth → ∀ x, R x id → x ∈ recordedIds (done ++ (id, n) :: queue)) :
    Frontier R depth start (done ++ [(id, n)]) queue := by
  have hsame : done ++ [(id, n)] ++ queue = done ++ (id, n) :: queue := by simp
  constructor
  · rw [hsame]
    exact h.start_mem
  · rw [hsame]
    exact h.nodup
  · rw [hsame]
    exact h.ordered
  · rw [hsame]
    intro p hp q hq
    exact h.span p hp q (List.mem_cons_of_mem _ hq)
  · rw [hsame]
    exact h.bounded
  · rw [hsame]
    exact h.sound
  · rw [hsame]
    intro p hp hlt x hx
    rcases List.mem_append.mp hp with hp | hp
    · exact h.closed p hp hlt x hx
    · -- the head itself: the span bounds the distance of each predecessor
      obtain rfl : p = (id, n) := by simpa using hp
      obtain ⟨m, hm⟩ := mem_recordedIds.mp (hall hlt x hx)
      exact ⟨m, h.span (x, m) hm (id, n) (by simp), hm⟩

/-! ## Distances

A chain that the walk has not followed to its outer end must leave the recorded part either through
a queued id or through one at the depth limit. Both are too far out for the chain to be shorter than
a recorded distance. -/

/-- Where the outer end of a chain to the start can be. Induction on the chain, from the start
outwards. -/
theorem chain_cases {x : String} {k : Nat} (h : Frontier R depth start done queue)
    (hchain : Chain R k x start) :
    (∃ m ≤ k, (x, m) ∈ done ++ queue) ∨ (∃ q ∈ queue, q.2 < k) ∨ depth < k := by
  induction hchain with
  | refl _ => exact Or.inl ⟨0, Nat.le_refl 0, h.start_mem⟩
  | step hstep _ ih =>
    rcases ih h with ⟨m, hm, hmem⟩ | ⟨q, hq, hlt⟩ | hdeep
    · rcases List.mem_append.mp hmem with hdone | hqueued
      · by_cases hlt : m < depth
        · obtain ⟨m', hm', hmem'⟩ := h.closed _ hdone hlt _ hstep
          have : m' ≤ m + 1 := hm'
          exact Or.inl ⟨m', by omega, hmem'⟩
        · exact Or.inr (Or.inr (by omega))
      · exact Or.inr (Or.inl ⟨_, hqueued, Nat.lt_succ_of_le hm⟩)
    · exact Or.inr (Or.inl ⟨q, hq, by omega⟩)
    · exact Or.inr (Or.inr (by omega))

/-- An id is recorded with one distance only. -/
theorem distance_unique {x : String} {m n : Nat} (h : Frontier R depth start done queue)
    (hm : (x, m) ∈ done ++ queue) (hn : (x, n) ∈ done ++ queue) : m = n := by
  have := List.inj_on_of_nodup_map h.nodup hm hn rfl
  exact congrArg Prod.snd this

/-- **Recorded distances are least.** This holds at every moment of the walk, so also where a limit
ends it. -/
theorem isLeast {x : String} {m : Nat} (h : Frontier R depth start done queue)
    (hmem : (x, m) ∈ done ++ queue) : IsLeast {k | Chain R k x start} m := by
  refine ⟨h.sound _ hmem, ?_⟩
  intro k hk
  by_contra hlt
  rcases h.chain_cases hk with ⟨m', hm', hmem'⟩ | ⟨q, hq, hqk⟩ | hdeep
  · have := h.distance_unique hmem hmem'
    omega
  · have hspan : m ≤ q.2 + 1 := h.span _ hmem q hq
    omega
  · have hbound : m ≤ depth := h.bounded _ hmem
    omega

/-- Only as many ids are recorded as there are ids to be found. This bounds the number of rounds of
a walk. -/
theorem length_le {known : List String} (h : Frontier R depth start done queue)
    (hstart : start ∈ known) (hknown : ∀ x y, R x y → x ∈ known) :
    (done ++ queue).length ≤ known.length := by
  have hsub : recordedIds (done ++ queue) ⊆ known := by
    intro x hx
    obtain ⟨n, hn⟩ := mem_recordedIds.mp hx
    exact (h.sound _ hn).mem_of_closed (fun y z _ hyz => hknown y z hyz) hstart
  have hle := (List.subperm_of_subset h.nodup hsub).length_le
  simpa [recordedIds] using hle

/-! ## What a limit leaves out -/

/-- Some predecessor of a recorded id is not recorded. -/
def Escapes (R : String → String → Prop) (recorded : List (String × Nat)) : Prop :=
  ∃ p ∈ recorded, ∃ x, R x p.1 ∧ x ∉ recordedIds recorded

/-- The depth limit left out a predecessor of something that is done. -/
def Cut (R : String → String → Prop) (depth : Nat) (done recorded : List (String × Nat)) : Prop :=
  ∃ p ∈ done, depth ≤ p.2 ∧ ∃ x, R x p.1 ∧ x ∉ recordedIds recorded

/-- One more expanded vertex leaves something out if it stands at the depth limit and has an
unrecorded neighbour. -/
theorem cut_append_singleton {id : String} {n : Nat} {recorded : List (String × Nat)} :
    Cut R depth (done ++ [(id, n)]) recorded ↔
      Cut R depth done recorded ∨ depth ≤ n ∧ ∃ x, R x id ∧ x ∉ recordedIds recorded := by
  simp only [Cut, List.mem_append, List.mem_singleton]
  constructor
  · rintro ⟨p, hp | rfl, hdeep, hx⟩
    · exact Or.inl ⟨p, hp, hdeep, hx⟩
    · exact Or.inr ⟨hdeep, hx⟩
  · rintro (⟨p, hp, hdeep, hx⟩ | ⟨hdeep, hx⟩)
    · exact ⟨p, Or.inl hp, hdeep, hx⟩
    · exact ⟨(id, n), Or.inr rfl, hdeep, hx⟩

/-- As long as the head of the queue is above the depth limit, so is everything that is done. -/
theorem not_cut_of_head_lt {id : String} {n : Nat} {recorded : List (String × Nat)}
    (h : Frontier R depth start done ((id, n) :: queue)) (hn : n < depth) :
    ¬ Cut R depth done recorded := by
  rintro ⟨p, hp, hdeep, -⟩
  have hle : p.2 ≤ n := (List.pairwise_append.mp h.ordered).2.2 p hp (id, n) (by simp)
  omega

/-- At the end of the queue only the depth limit can have left anything out. -/
theorem escapes_iff_cut (h : Frontier R depth start done []) :
    Escapes R done ↔ Cut R depth done done := by
  constructor
  · rintro ⟨p, hp, x, hx, hnew⟩
    refine ⟨p, hp, ?_, x, hx, hnew⟩
    by_contra hlt
    obtain ⟨m, -, hm⟩ := h.closed p hp (by omega) x hx
    exact hnew (mem_recordedIds.mpr ⟨m, by simpa using hm⟩)
  · rintro ⟨p, hp, -, x, hx, hnew⟩
    exact ⟨p, hp, x, hx, hnew⟩

/-- Something that leads to the start is missing exactly if the recorded ids are not closed under
`R`. -/
theorem missing_iff_escapes (h : Frontier R depth start done queue) :
    (∃ x, (∃ n, Chain R n x start) ∧ x ∉ recordedIds (done ++ queue)) ↔
      Escapes R (done ++ queue) := by
  constructor
  · rintro ⟨x, ⟨n, hchain⟩, hmissing⟩
    by_contra hclosed
    apply hmissing
    refine hchain.mem_of_closed ?_ (mem_recordedIds.mpr ⟨0, h.start_mem⟩)
    intro y z hz hyz
    by_contra hy
    obtain ⟨m, hm⟩ := mem_recordedIds.mp hz
    exact hclosed ⟨_, hm, y, hyz, hy⟩
  · rintro ⟨p, hp, x, hx, hnew⟩
    exact ⟨x, ⟨_, .step hx (h.sound p hp)⟩, hnew⟩

end Frontier

/-! ## Results -/

/-- What a bounded search against `R` from `start` owes its caller. -/
structure SearchResult (R : String → String → Prop) (limits : TraversalLimits) (start : String)
    (reached : List (String × Nat)) (truncated : Bool) : Prop where
  nodup : (recordedIds reached).Nodup
  start_not_mem : start ∉ recordedIds reached
  /-- Each id stands with the least number of steps that lead from it to the start. -/
  isLeast : ∀ p ∈ reached, IsLeast {n | Chain R n p.1 start} p.2
  depth_le : ∀ p ∈ reached, p.2 ≤ limits.maxDepth
  length_le : reached.length ≤ limits.maxVisits
  ordered : (reached.map Prod.snd).Pairwise (· ≤ ·)
  /-- As long as the visit limit is not used up, only the depth limit leaves ids out. -/
  complete : reached.length < limits.maxVisits → ∀ x n, x ≠ start → Chain R n x start →
    n ≤ limits.maxDepth →
    x ∈ recordedIds reached
  /-- The flag is set exactly if an id that leads to the start is missing. -/
  honest : truncated = true ↔ ∃ x, x ≠ start ∧ (∃ n, Chain R n x start) ∧ x ∉ recordedIds reached

/-- The result may be put into another order as long as near ids come first. -/
theorem SearchResult.of_perm {R : String → String → Prop} {limits : TraversalLimits}
    {start : String} {reached reached' : List (String × Nat)} {truncated : Bool}
    (h : SearchResult R limits start reached truncated) (hperm : reached'.Perm reached)
    (hordered : (reached'.map Prod.snd).Pairwise (· ≤ ·)) :
    SearchResult R limits start reached' truncated := by
  have hids : (recordedIds reached').Perm (recordedIds reached) := hperm.map Prod.fst
  -- every clause but the order is about membership or length
  constructor
  · exact hids.nodup_iff.mpr h.nodup
  · rw [hids.mem_iff]
    exact h.start_not_mem
  · exact fun p hp => h.isLeast p (hperm.mem_iff.mp hp)
  · exact fun p hp => h.depth_le p (hperm.mem_iff.mp hp)
  · rw [hperm.length_eq]
    exact h.length_le
  · exact hordered
  · rw [hperm.length_eq]
    simp only [hids.mem_iff]
    exact h.complete
  · rw [h.honest]
    simp only [hids.mem_iff]

/-- A search that no limit cut short reports all that leads to the start. -/
theorem SearchResult.mem_iff {R : String → String → Prop} {limits : TraversalLimits}
    {start : String}
    {reached : List (String × Nat)} {truncated : Bool}
    (h : SearchResult R limits start reached truncated)
    (hcomplete : truncated = false) {x : String} :
    x ∈ recordedIds reached ↔ x ≠ start ∧ ∃ n, Chain R n x start := by
  constructor
  · intro hx
    obtain ⟨n, hn⟩ := mem_recordedIds.mp hx
    refine ⟨?_, n, (h.isLeast _ hn).1⟩
    rintro rfl
    exact h.start_not_mem hx
  · rintro ⟨hne, hchain⟩
    by_contra hmissing
    have htruncated : truncated = true := h.honest.mpr ⟨x, hne, hchain, hmissing⟩
    rw [hcomplete] at htruncated
    cases htruncated

/-- With room for more visits, a search reports exactly what leads to the start within the depth
limit. -/
theorem SearchResult.mem_iff_of_room {R : String → String → Prop} {limits : TraversalLimits}
    {start : String} {reached : List (String × Nat)} {truncated : Bool}
    (h : SearchResult R limits start reached truncated) (hroom : reached.length < limits.maxVisits)
    {x : String} :
    x ∈ recordedIds reached ↔ x ≠ start ∧
      ∃ n ≤ limits.maxDepth, IsLeast {k | Chain R k x start} n := by
  constructor
  · intro hx
    obtain ⟨n, hn⟩ := mem_recordedIds.mp hx
    refine ⟨?_, n, h.depth_le _ hn, h.isLeast _ hn⟩
    rintro rfl
    exact h.start_not_mem hx
  · rintro ⟨hne, n, hn, hleast⟩
    exact h.complete hroom x n hne hleast.1 hn

/-- The start is not reported, so fewer ids are reported than there are to be found. -/
theorem SearchResult.length_lt {R : String → String → Prop} {limits : TraversalLimits}
    {start : String} {reached : List (String × Nat)} {truncated : Bool}
    (h : SearchResult R limits start reached truncated) {known : List String}
    (hstart : start ∈ known) (hknown : ∀ x y, R x y → x ∈ known) :
    reached.length < known.length := by
  have hnodup : (start :: recordedIds reached).Nodup :=
    List.nodup_cons.mpr ⟨h.start_not_mem, h.nodup⟩
  have hsub : start :: recordedIds reached ⊆ known := by
    refine List.cons_subset.mpr ⟨hstart, fun x hx => ?_⟩
    obtain ⟨n, hn⟩ := mem_recordedIds.mp hx
    exact (h.isLeast _ hn).1.mem_of_closed (fun y z _ hyz => hknown y z hyz) hstart
  have hle := (List.subperm_of_subset hnodup hsub).length_le
  rw [List.length_cons, recordedIds, List.length_map] at hle
  exact hle

/-- A bounded walk in progress: the queue invariant, the visits counted so far, and a flag that
knows what the depth limit has left out. -/
structure Searching (R : String → String → Prop) (limits : TraversalLimits) (start : String)
    (done queue reached : List (String × Nat)) (truncated : Bool) : Prop where
  frontier : Frontier R limits.maxDepth start done queue
  split : done ++ queue = (start, 0) :: reached
  visits : reached.length ≤ limits.maxVisits
  flag : truncated = true ↔ Frontier.Cut R limits.maxDepth done (done ++ queue)

namespace Searching

variable {R : String → String → Prop} {limits : TraversalLimits} {start id : String} {n : Nat}
variable {done queue reached : List (String × Nat)} {truncated : Bool}

/-- At the start only the start vertex is recorded, at distance zero, and nothing is expanded. -/
theorem initial (R : String → String → Prop) (limits : TraversalLimits) (start : String) :
    Searching R limits start [] [(start, 0)] [] false where
  frontier := .initial R limits.maxDepth start
  split := rfl
  visits := Nat.zero_le _
  flag := by simp [Frontier.Cut]

/-- A new predecessor of the head is recorded while both limits allow it. -/
theorem push {x : String} (h : Searching R limits start done ((id, n) :: queue) reached truncated)
    (hn : n < limits.maxDepth) (hroom : reached.length < limits.maxVisits) (hx : R x id)
    (hnew : x ∉ recordedIds ((start, 0) :: reached)) :
    Searching R limits start done ((id, n) :: (queue ++ [(x, n + 1)])) (reached ++
      [(x, n + 1)]) truncated where
  frontier := h.frontier.push hn hx (by rw [h.split]; exact hnew)
  split := by rw [← List.cons_append, ← List.append_assoc, h.split, List.cons_append]
  visits := by
    rw [List.length_append, List.length_singleton]
    omega
  flag := by
    -- nothing that is done sits at the depth limit yet, so the flag is down before and after
    rw [h.flag]
    exact iff_of_false (h.frontier.not_cut_of_head_lt hn) (h.frontier.not_cut_of_head_lt hn)

/-- The head is left once all its predecessors are recorded, or at once if it sits at the depth
limit. The flag goes up if one of them is not recorded. -/
theorem leave {truncated' : Bool}
    (h : Searching R limits start done ((id, n) :: queue) reached truncated)
    (hall : n < limits.maxDepth → ∀ x, R x id → x ∈ recordedIds ((start, 0) :: reached))
    (hflag : truncated' = true ↔ truncated = true ∨
      ∃ x, R x id ∧ x ∉ recordedIds ((start, 0) :: reached)) :
    Searching R limits start (done ++ [(id, n)]) queue reached truncated' where
  frontier := h.frontier.pop (by rw [h.split]; exact hall)
  split := by rw [← h.split, List.append_assoc, List.singleton_append]
  visits := h.visits
  flag := by
    rw [hflag, h.flag, Frontier.cut_append_singleton, List.append_assoc,
      List.singleton_append, h.split]
    refine or_congr Iff.rfl ⟨?_, fun hx => hx.2⟩
    rintro ⟨x, hx, hnew⟩
    refine ⟨?_, x, hx, hnew⟩
    by_contra hlt
    exact hnew (hall (by omega) x hx)

/-- The invariant gives all of the result but an honest flag, if only the visit limit leaves a queue
behind. -/
theorem searchResult {truncated' : Bool} (h : Searching R limits start done queue reached truncated)
    (hqueue : reached.length < limits.maxVisits → queue = [])
    (hflag : truncated' = true ↔ Frontier.Escapes R (done ++ queue)) :
    SearchResult R limits start reached truncated' := by
  have hin : ∀ p ∈ reached, p ∈ done ++ queue := by
    intro p hp
    rw [h.split]
    exact List.mem_cons_of_mem _ hp
  have hnodup := h.frontier.nodup
  rw [h.split, recordedIds_cons, List.nodup_cons] at hnodup
  constructor
  · exact hnodup.2
  · exact hnodup.1
  · exact fun p hp => h.frontier.isLeast (hin p hp)
  · exact fun p hp => h.frontier.bounded p (hin p hp)
  · exact h.visits
  · have hordered := h.frontier.ordered
    rw [h.split, List.pairwise_cons] at hordered
    exact List.pairwise_map.mpr hordered.2
  · -- a chain within the depth can only be missing through a vertex left in the queue
    intro hroom x n hne hchain hn
    have hcases := h.frontier.chain_cases hchain
    rw [hqueue hroom] at hcases
    rcases hcases with ⟨m, -, hmem⟩ | ⟨q, hq, -⟩ | hdeep
    · rw [← hqueue hroom, h.split] at hmem
      have hx : x ∈ recordedIds ((start, 0) :: reached) := mem_recordedIds.mpr ⟨m, hmem⟩
      exact (List.mem_cons.mp hx).resolve_left hne
    · exact absurd hq List.not_mem_nil
    · exact absurd hn (Nat.not_le.mpr hdeep)
  · -- the flag tells of an edge that leaves the recorded part
    rw [hflag, ← h.frontier.missing_iff_escapes, h.split]
    simp only [recordedIds_cons, List.mem_cons, not_or]
    constructor
    · rintro ⟨x, hchain, hne, hmissing⟩
      exact ⟨x, hne, hchain, hmissing⟩
    · rintro ⟨x, hne, hchain, hmissing⟩
      exact ⟨x, hchain, hne, hmissing⟩

/-- **A walk that empties its queue is exact.** -/
theorem finish (h : Searching R limits start done [] reached truncated) :
    SearchResult R limits start reached truncated := by
  apply h.searchResult fun _ => rfl
  rw [h.flag, List.append_nil]
  exact h.frontier.escapes_iff_cut.symm

/-- **A walk that the visit limit stops is exact.** It stops at a predecessor that it cannot record
any more. -/
theorem stop {x : String} (h : Searching R limits start done ((id, n) :: queue) reached truncated)
    (hfull : limits.maxVisits ≤ reached.length) (hx : R x id)
    (hnew : x ∉ recordedIds ((start, 0) :: reached)) :
    SearchResult R limits start reached true := by
  apply h.searchResult fun hroom => absurd hroom (Nat.not_lt.mpr hfull)
  refine ⟨fun _ => ⟨(id, n), by simp, x, hx, ?_⟩, fun _ => rfl⟩
  rw [h.split]
  exact hnew

end Searching

end CallAtlas
