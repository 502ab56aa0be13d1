import Mathlib.Data.List.Dedup
import Mathlib.Data.List.Perm.Subperm
import CallAtlas.Proofs.FlowVisits

/-!
# Proofs.FlowFindings — how many findings a trace of a variable makes, and where it stops

The limit on findings is looked at before each visit, and a visit takes place as a whole. So a node
is visited exactly if the nodes in front of it give fewer findings than the limit, and how many
findings there are in the end depends on what the last visit adds.

* `Context.yield` — the findings that a node gives, each by its kind and line. `Context.tally` — the
  number of different ones that some nodes give.
* `Findings.adds_visit` — what one visit adds.
* `Collecting` — the invariant of the walk: the findings are those of the nodes visited so far.
  `collect_collecting` keeps it to the end of the walk, at a node with the limit reached in front of
  it or behind the last one.
* `Collecting.tally_le_or_params` — the only visit that can go past the limit.
-/

namespace CallAtlas.DataFlow

open CallAtlas.Tree

/-! ## What nodes give -/

/-- What a finding is told apart by. -/
abbrev Key := SourceKind × Nat ⊕ DestinationKind × Nat

def Source.key (s : Source) : Key := .inl (s.kind, s.line)

def Destination.key (d : Destination) : Key := .inr (d.kind, d.line)

namespace Context

variable (ctx : Context)

/-- The findings that a node gives. -/
def yield (c : Cursor) : List Key :=
  if isOccurrence ctx.query.identifier c.node then
    if ctx.query.direction.wantsDestinations && !isBindingSite c then
      ((ctx.destinationOf? c).map Destination.key).toList
    else []
  else if ctx.query.direction.wantsSources then (ctx.sourcesAt c).map Source.key
  else []

/-- The number of different findings that some nodes give. -/
def tally (cs : List Cursor) : Nat := (cs.flatMap ctx.yield).dedup.length

/-- The parameters in a list that bind the variable. -/
def binders (params : Cursor) : List Cursor :=
  params.namedChildren.filter fun p => binds ctx.query.identifier maxUnwrap p.node

theorem length_toList_le {α : Type} (o : Option α) : o.toList.length ≤ 1 := by
  cases o with
  | none => exact Nat.zero_le 1
  | some a => exact Nat.le_refl 1

theorem length_if_toList_le {α : Type} (p : Bool) (o : Option α) :
    (if p then o.toList else []).length ≤ 1 := by
  cases p with
  | false => exact Nat.zero_le 1
  | true => exact length_toList_le o

/-- Only a list of parameters can have more than one source. -/
theorem length_sourcesAt_le (c : Cursor) :
    (ctx.sourcesAt c).length ≤ 1 ∨
      c.kind = "formal_parameters" ∧ (ctx.sourcesAt c).length ≤ (ctx.binders c).length := by
  unfold sourcesAt
  split
  · exact .inl (length_if_toList_le _ _)
  · exact .inl (length_if_toList_le _ _)
  · exact .inl (length_if_toList_le _ _)
  · next hkind => exact .inr ⟨hkind, Nat.le_of_eq (List.length_map _)⟩
  · exact .inl (Nat.le_trans (Nat.le_of_eq (List.length_map _)) (length_toList_le _))
  · exact .inl (Nat.zero_le 1)

/-- **A node gives one finding at most**, unless it is a list of parameters, which gives one for
each binder. -/
theorem length_yield_le (c : Cursor) :
    (ctx.yield c).length ≤ 1 ∨ c.kind = "formal_parameters" ∧
      (ctx.yield c).length ≤ (ctx.binders c).length := by
  unfold yield
  split
  · exact .inl (length_if_toList_le _ _)
  · split
    · rw [List.length_map]
      exact length_sourcesAt_le ctx c
    · exact .inl (Nat.zero_le 1)

variable {ctx} in
/-- More nodes give no fewer findings. -/
theorem tally_mono {cs ds : List Cursor} (h : cs <+: ds) : ctx.tally cs ≤ ctx.tally ds := by
  have hsub : (cs.flatMap ctx.yield).dedup ⊆ (ds.flatMap ctx.yield).dedup := by
    intro k hk
    obtain ⟨c, hc, hkc⟩ := List.mem_flatMap.mp (List.mem_dedup.mp hk)
    exact List.mem_dedup.mpr (List.mem_flatMap.mpr ⟨c, h.subset hc, hkc⟩)
  exact (List.subperm_of_subset (List.nodup_dedup _) hsub).length_le

/-- One more node adds at most what it yields to the tally. -/
theorem tally_concat_le (cs : List Cursor) (c : Cursor) :
    ctx.tally (cs ++ [c]) ≤ ctx.tally cs + (ctx.yield c).length := by
  have hsub : ((cs ++ [c]).flatMap ctx.yield).dedup ⊆ (cs.flatMap ctx.yield).dedup ++
      ctx.yield c := by
    intro k hk
    rw [List.mem_dedup, List.flatMap_append, List.mem_append, List.flatMap_singleton] at hk
    exact List.mem_append.mpr (hk.imp_left List.mem_dedup.mpr)
  have hle := (List.subperm_of_subset (List.nodup_dedup _) hsub).length_le
  rwa [List.length_append] at hle

end Context

/-! ## Findings in progress -/

namespace Findings

variable {f f' : Findings}

/-- What the findings are told apart by. -/
def keys (f : Findings) : List Key := f.sources.map Source.key ++ f.destinations.map Destination.key

/-- Every finding has a key, and the count counts the findings. -/
theorem length_keys (f : Findings) : f.keys.length = f.count := by
  rw [keys, List.length_append, List.length_map, List.length_map, count]

/-- Findings with some keys are added, and nothing else changes. -/
structure Adds (ks : List Key) (f f' : Findings) : Prop where
  nodup : f.keys.Nodup → f'.keys.Nodup
  mem : ∀ k, k ∈ f'.keys ↔ k ∈ f.keys ∨ k ∈ ks
  met : f'.met = f.met
  truncated : f'.truncated = f.truncated

theorem Adds.refl (f : Findings) : Adds [] f f := ⟨id, by simp, rfl, rfl⟩

/-- What two steps add is added together. -/
theorem Adds.trans {ks ks' : List Key} {f'' : Findings} (h : Adds ks f f') (h' : Adds ks' f' f'') :
    Adds (ks ++ ks') f f'' where
  nodup hf := h'.nodup (h.nodup hf)
  mem k := by rw [h'.mem, h.mem, List.mem_append, or_assoc]
  met := h'.met.trans h.met
  truncated := h'.truncated.trans h.truncated

/-- A key that is taken is not added again, and one that is not comes in somewhere. -/
theorem Adds.of_perm {k : Key} (hperm : f'.keys.Perm (k :: f.keys)) (hnew : k ∉ f.keys)
    (hmet : f'.met = f.met) (htruncated : f'.truncated = f.truncated) : Adds [k] f f' where
  nodup hf := hperm.nodup_iff.mpr (List.nodup_cons.mpr ⟨hnew, hf⟩)
  mem x := by rw [hperm.mem_iff, List.mem_cons, List.mem_singleton, or_comm]
  met := hmet
  truncated := htruncated

theorem Adds.of_mem {k : Key} (hk : k ∈ f.keys) : Adds [k] f f where
  nodup := id
  mem x := by
    rw [List.mem_singleton]
    exact ⟨Or.inl, fun h => h.elim id fun heq => heq ▸ hk⟩
  met := rfl
  truncated := rfl

/-- Adding a source adds its key, unless a source of this kind and line is there. -/
theorem adds_addSource (f : Findings) (s : Source) : Adds [s.key] f (f.addSource s) := by
  -- the test of the code looks at kind and line, which is what a key consists of
  have htaken : (f.sources.any fun x => x.kind = s.kind && x.line = s.line) = true ↔
      s.key ∈ f.keys := by
    simp [keys, Source.key, Destination.key, Prod.ext_iff]
  unfold addSource
  split
  · next h => exact .of_mem (htaken.mp h)
  · next h =>
    refine .of_perm ?_ (mt htaken.mpr h) rfl rfl
    simp only [keys, List.map_append, List.map_singleton, List.append_assoc, List.singleton_append]
    exact List.perm_middle

/-- Adding a destination adds its key, unless a destination of this kind and line is there. -/
theorem adds_addDestination (f : Findings) (d : Destination) :
    Adds [d.key] f (f.addDestination d) := by
  have htaken : (f.destinations.any fun x => x.kind = d.kind && x.line = d.line) = true ↔
      d.key ∈ f.keys := by
    simp [keys, Source.key, Destination.key, Prod.ext_iff]
  unfold addDestination
  split
  · next h => exact .of_mem (htaken.mp h)
  · next h =>
    refine .of_perm ?_ (mt htaken.mpr h) rfl rfl
    simp only [keys, List.map_append, List.map_singleton, ← List.append_assoc]
    exact List.perm_append_singleton _ _

theorem adds_foldl_addSource (sources : List Source) (f : Findings) :
    Adds (sources.map Source.key) f (sources.foldl addSource f) := by
  induction sources generalizing f with
  | nil => exact .refl f
  | cons s rest ih => exact (adds_addSource f s).trans (ih (f.addSource s))

/-- **A visit adds what the node gives**, and marks an occurrence. -/
theorem adds_visit (ctx : Context) (f : Findings) (c : Cursor) :
    Adds (ctx.yield c) { f with met := f.met || isOccurrence ctx.query.identifier c.node }
      (f.visit ctx c) := by
  unfold visit Context.yield
  cases hoccurs : isOccurrence ctx.query.identifier c.node with
  | true =>
    rw [Bool.or_true, if_pos rfl, if_pos rfl]
    dsimp only
    split
    · cases ctx.destinationOf? c with
      | none => exact .refl _
      | some d => exact adds_addDestination _ d
    · exact .refl _
  | false =>
    rw [Bool.or_false, if_neg Bool.false_ne_true, if_neg Bool.false_ne_true]
    split
    · exact adds_foldl_addSource _ f
    · exact .refl f

end Findings

/-! ## The walk -/

variable {ctx : Context} {limit : Nat} {seen : List Cursor} {f : Findings} {c : Cursor}

/-- A walk that has visited some nodes. -/
structure Collecting (ctx : Context) (limit : Nat) (seen : List Cursor) (f : Findings) : Prop where
  nodup : f.keys.Nodup
  mem_keys : ∀ k, k ∈ f.keys ↔ k ∈ seen.flatMap ctx.yield
  met : f.met = true ↔ ∃ c ∈ seen, isOccurrence ctx.query.identifier c.node = true
  /-- In front of each visited node there was room. -/
  room : ∀ n < seen.length, ctx.tally (seen.take n) < limit

namespace Collecting

theorem initial (ctx : Context) (limit : Nat) : Collecting ctx limit [] {} where
  nodup := List.nodup_nil
  mem_keys := by simp [Findings.keys]
  met := by simp
  room n hn := absurd hn (Nat.not_lt_zero n)

/-- The count of the findings is the tally of the nodes seen. -/
theorem count_eq (h : Collecting ctx limit seen f) : f.count = ctx.tally seen := by
  rw [← Findings.length_keys, Context.tally]
  refine ((List.perm_ext_iff_of_nodup h.nodup (List.nodup_dedup _)).mpr fun k => ?_).length_eq
  rw [h.mem_keys, List.mem_dedup]

/-- A visit within the limit keeps the invariant, with one more node seen. -/
theorem visit (h : Collecting ctx limit seen f) (hroom : f.count < limit) (c : Cursor) :
    Collecting ctx limit (seen ++ [c]) (f.visit ctx c) := by
  have hadds := Findings.adds_visit ctx f c
  -- the fields in turn: keys once each, keys exact, the identifier met, room at every node before
  constructor
  · exact hadds.nodup h.nodup
  · intro k
    rw [hadds.mem, List.flatMap_append, List.mem_append, List.flatMap_singleton]
    exact or_congr_left (h.mem_keys k)
  · rw [hadds.met, Bool.or_eq_true, h.met]
    simp [or_and_right, exists_or]
  · intro n hn
    rw [List.length_append, List.length_singleton] at hn
    rcases Nat.lt_or_eq_of_le (Nat.le_of_lt_succ hn) with hn | rfl
    · rw [List.take_append_of_le_length (Nat.le_of_lt hn)]
      exact h.room n hn
    · rw [List.take_left, ← h.count_eq]
      exact hroom

theorem flag (h : Collecting ctx limit seen f) :
    Collecting ctx limit seen { f with truncated := true } :=
  ⟨h.nodup, h.mem_keys, h.met, h.room⟩

/-- Room in front of a node that was visited. -/
theorem room_of_split (h : Collecting ctx limit seen f) {before after : List Cursor}
    (hsplit : seen = before ++ c :: after) : ctx.tally before < limit := by
  have hroom := h.room before.length (by simp [hsplit])
  rwa [hsplit, List.take_left] at hroom

/-- The limit holds, unless the last node that was visited is a list of parameters. -/
theorem tally_le_or_params (h : Collecting ctx limit seen f) :
    ctx.tally seen ≤ limit ∨
      ∃ before params, seen = before ++ [params] ∧ params.kind = "formal_parameters" ∧
        ctx.tally before < limit ∧
        ctx.tally seen < limit + (ctx.binders params).length := by
  rcases seen.eq_nil_or_concat with rfl | ⟨before, last, rfl⟩
  · exact .inl (Nat.zero_le _)
  · rw [List.concat_eq_append] at h ⊢
    have hroom : ctx.tally before < limit := h.room_of_split rfl
    have hlast := ctx.tally_concat_le before last
    rcases ctx.length_yield_le last with hone | ⟨hkind, hbinders⟩
    · exact .inl (by omega)
    · exact .inr ⟨before, last, rfl, hkind, hroom, by omega⟩

end Collecting

/-- **The walk stops in front of the first node with the limit reached.** Induction on the visits to
come. -/
theorem collect_collecting (visits : List Visit) (h : Collecting ctx limit seen f) :
    ∃ taken rest, taken ++ rest = seen ++ visits.filterMap Visit.node? ∧
      Collecting ctx limit taken (Findings.collect ctx limit visits f) ∧
      (rest ≠ [] → limit ≤ ctx.tally taken) ∧
      ((Findings.collect ctx limit visits f).truncated = true ↔
        f.truncated = true ∨ rest ≠ [] ∨ .tooDeep ∈ visits) := by
  -- `taken` is what was visited before the limit was noticed, `rest` what was left out
  induction visits generalizing seen f with
  | nil => exact ⟨seen, [], rfl, h, fun hne => absurd rfl hne, by simp [Findings.collect]⟩
  | cons visit visits ih =>
    cases visit with
    | tooDeep =>
      obtain ⟨taken, rest, hsplit, hcollecting, hfull, htruncated⟩ := ih h.flag
      refine ⟨taken, rest, hsplit, hcollecting, hfull, ?_⟩
      rw [Findings.collect, htruncated]
      simp
    | node c =>
      rw [Findings.collect]
      split
      · next hfull =>
        refine ⟨seen, c :: visits.filterMap Visit.node?, rfl, h.flag,
          fun _ => h.count_eq ▸ hfull, ?_⟩
        simp
      · next hroom =>
        obtain ⟨taken, rest, hsplit, hcollecting, hfull, htruncated⟩ :=
          ih (h.visit (Nat.not_le.mp hroom) c)
        refine ⟨taken, rest, ?_, hcollecting, hfull, ?_⟩
        · rw [hsplit, List.append_assoc]
          rfl
        · rw [htruncated, (Findings.adds_visit ctx f c).truncated]
          simp

end CallAtlas.DataFlow
