import Mathlib.Logic.Relation
import CallAtlas.Proofs.TreeDescent

/-!
# Proofs.TreeOrder — the nodes above a node form a chain

A cursor knows its parent, so the nodes that it lies within are ordered by depth: of two of them,
one lies within the other. Two children of one node have nothing below them in common.

* `Below` — one step down at least.
* `within_total`, `eq_of_common` — the chain of the nodes above, and siblings apart.
* `next?`, `picked_of_mem_spine` — a spine is a chain of picked children, so of two of its nodes the
  lower one lies within the pick of the upper one.
* `everywhere` — what is so at each node of a tree; `fieldsApart` — no child is found by two fields.
-/

namespace CallAtlas.Tree

namespace Cursor

variable {a b c p q top : Cursor}

/-! ## Parents and depth -/

theorem parent?_of_mem_children (h : c ∈ p.children) : c.parent? = some p := by
  obtain ⟨n, -, rfl⟩ := List.mem_map.mp h
  rfl

/-- A node has one parent. -/
theorem eq_of_mem_children (hp : c ∈ p.children) (hq : c ∈ q.children) : p = q :=
  Option.some.inj ((parent?_of_mem_children hp).symm.trans (parent?_of_mem_children hq))

/-- The number of nodes above. -/
def depth (c : Cursor) : Nat := c.above.length

/-- A child is one level down. -/
theorem depth_of_mem_children (h : c ∈ p.children) : c.depth = p.depth + 1 := by
  obtain ⟨n, -, rfl⟩ := List.mem_map.mp h
  rfl

theorem mem_children_of_mem_namedChildren (h : c ∈ p.namedChildren) : c ∈ p.children :=
  (List.mem_filter.mp h).1

theorem depth_of_mem_namedChildren (h : c ∈ p.namedChildren) : c.depth = p.depth + 1 :=
  depth_of_mem_children (mem_children_of_mem_namedChildren h)

theorem mem_children_of_field? {name : String} (h : p.field? name = some c) : c ∈ p.children :=
  List.mem_of_find?_eq_some h

/-! ## Below -/

/-- Some steps down from `top`, one at least, lead to `c`. -/
def Below (c top : Cursor) : Prop := Relation.TransGen (fun p q => q ∈ p.children) top c

theorem Below.within (h : c.Below top) : c.Within top := Relation.TransGen.to_reflTransGen h

theorem below_of_mem_children (h : c ∈ p.children) : c.Below p := Relation.TransGen.single h

theorem Below.trans_within (h : a.Below b) (hb : b.Within c) : a.Below c :=
  Relation.TransGen.trans_right hb h

theorem Within.trans_below (h : a.Within b) (hb : b.Below c) : a.Below c :=
  Relation.TransGen.trans_left hb h

theorem Below.trans (h : a.Below b) (hb : b.Below c) : a.Below c := h.trans_within hb.within

theorem Within.eq_or_below (h : c.Within top) : c = top ∨ c.Below top :=
  Relation.reflTransGen_iff_eq_or_transGen.mp h

/-- Being below a node is being within one of its children. -/
theorem below_iff_child : c.Below top ↔ ∃ q ∈ top.children, c.Within q := by
  constructor
  · intro h
    obtain ⟨q, hq, hc⟩ := Relation.TransGen.head'_iff.mp h
    exact ⟨q, hq, hc⟩
  · rintro ⟨q, hq, hc⟩
    exact hc.trans_below (below_of_mem_children hq)

/-- Being below a node is having a parent within it. -/
theorem below_iff_parent : c.Below top ↔ ∃ p : Cursor, c ∈ p.children ∧ p.Within top := by
  constructor
  · intro h
    obtain ⟨p, hp, hc⟩ := Relation.TransGen.tail'_iff.mp h
    exact ⟨p, hc, hp⟩
  · rintro ⟨p, hc, hp⟩
    exact (below_of_mem_children hc).trans_within hp

/-- Between a child and its parent there is nothing. -/
theorem within_of_below_child (hc : c ∈ p.children) (h : c.Below top) : p.Within top := by
  obtain ⟨p', hp', hwithin⟩ := below_iff_parent.mp h
  rwa [eq_of_mem_children hc hp']

/-- Going down, the depth grows. -/
theorem Below.depth_lt (h : c.Below top) : top.depth < c.depth := by
  induction h with
  | single hchild => exact (depth_of_mem_children hchild).symm ▸ Nat.lt_succ_self _
  | tail _ hchild ih => exact (depth_of_mem_children hchild).symm ▸ Nat.lt_succ_of_lt ih

theorem Within.depth_le (h : c.Within top) : top.depth ≤ c.depth := by
  rcases h.eq_or_below with rfl | hbelow
  · exact Nat.le_refl _
  · exact Nat.le_of_lt hbelow.depth_lt

theorem not_below_self (c : Cursor) : ¬ c.Below c := fun h => Nat.lt_irrefl _ h.depth_lt

/-- Two nodes within each other are one. -/
theorem Within.antisymm (hab : a.Within b) (hba : b.Within a) : a = b := by
  rcases hab.eq_or_below with h | h
  · exact h
  · exact absurd hba.depth_le (Nat.not_le_of_lt h.depth_lt)

theorem below_iff : c.Below top ↔ c.Within top ∧ c ≠ top := by
  constructor
  · intro h
    refine ⟨h.within, ?_⟩
    rintro rfl
    exact not_below_self c h
  · rintro ⟨hwithin, hne⟩
    exact hwithin.eq_or_below.resolve_left hne

/-! ## The chain of the nodes above -/

/-- **Of two nodes above, one lies within the other**, since every node has one parent. -/
theorem within_total (ha : c.Within a) (hb : c.Within b) : a.Within b ∨ b.Within a := by
  -- read upwards, a step leads to one node
  have hunique : Relator.RightUnique (Function.swap fun p q : Cursor => q ∈ p.children) :=
    fun _ _ _ hp hq => eq_of_mem_children hp hq
  rcases Relation.ReflTransGen.total_of_right_unique hunique (Relation.reflTransGen_swap.mpr ha)
    (Relation.reflTransGen_swap.mpr hb) with h | h
  · exact .inl (Relation.reflTransGen_swap.mp h)
  · exact .inr (Relation.reflTransGen_swap.mp h)

/-- Of two nodes around a third, one is within the other or above it. -/
theorem within_or_below (ha : c.Within a) (hb : c.Within b) : a.Within b ∨ b.Below a := by
  rcases within_total ha hb with h | h
  · exact .inl h
  · rcases h.eq_or_below with rfl | hbelow
    · exact .inl (.refl b)
    · exact .inr hbelow

/-- Between a node and a child of its child there is that child only. -/
theorem eq_of_between (hp : p ∈ top.children) (hc : c ∈ p.children) (hca : c.Below a)
    (ha : a.Below top) : p = a := by
  rcases (within_of_below_child hc hca).eq_or_below with h | hbelow
  · exact h
  · exact absurd ((within_of_below_child hp hbelow).trans_below ha) (not_below_self top)

/-- At one depth there is one node above. -/
theorem eq_of_common (ha : c.Within a) (hb : c.Within b) (hdepth : a.depth = b.depth) : a = b := by
  rcases within_total ha hb with h | h
  · exact h.eq_or_below.resolve_right fun hbelow => Nat.ne_of_lt hbelow.depth_lt hdepth.symm
  · exact (h.eq_or_below.resolve_right fun hbelow => Nat.ne_of_lt hbelow.depth_lt hdepth).symm

/-- **Siblings have nothing in common.** -/
theorem eq_of_common_children (ha : a ∈ p.children) (hb : b ∈ p.children) (hca : c.Within a)
    (hcb : c.Within b) : a = b :=
  eq_of_common hca hcb ((depth_of_mem_children ha).trans (depth_of_mem_children hb).symm)

/-! ## Spines -/

/-- The child that is picked. -/
def next? (pick : Node → Option Selector) (c : Cursor) : Option Cursor :=
  (pick c.node).bind fun s => c.children.find? fun q => s.selects q.node

variable {pick : Node → Option Selector}

theorem mem_children_of_next? (h : c.next? pick = some q) : q ∈ c.children := by
  obtain ⟨s, -, hs⟩ := Option.bind_eq_some_iff.mp h
  exact List.mem_of_find?_eq_some hs

theorem exists_pick_of_next? (h : c.next? pick = some q) : ∃ s, pick c.node = some s := by
  obtain ⟨s, hs, -⟩ := Option.bind_eq_some_iff.mp h
  exact ⟨s, hs⟩

/-- Picks lead from `top` down to `c`. -/
def Picked (pick : Node → Option Selector) (c top : Cursor) : Prop :=
  Relation.ReflTransGen (fun p q => p.next? pick = some q) top c

/-- What is picked along a spine lies within its start. -/
theorem Picked.within (h : Picked pick c top) : c.Within top := by
  induction h with
  | refl => exact .refl top
  | tail _ hnext ih => exact (within_of_mem_children (mem_children_of_next? hnext)).trans ih

/-- Picks lead from one of two picked nodes to the other. -/
theorem picked_total (ha : Picked pick a top) (hb : Picked pick b top) :
    Picked pick b a ∨ Picked pick a b :=
  Relation.ReflTransGen.total_of_right_unique (fun _ _ _ hp hq =>
    Option.some.inj (hp.symm.trans hq)) ha hb

/-- What is picked further down lies within the first pick. -/
theorem Picked.eq_or_next (h : Picked pick c top) :
    c = top ∨ ∃ q, top.next? pick = some q ∧ c.Within q := by
  rcases Relation.ReflTransGen.cases_head h with rfl | ⟨q, hq, hrest⟩
  · exact .inl rfl
  · exact .inr ⟨q, hq, Picked.within hrest⟩

/-- Above a picked node there are picked ones only, each with a pick of its own. -/
theorem Picked.between (h : Picked pick c top) (hcq : c.Below q) (hq : q.Within top) :
    Picked pick q top ∧ ∃ s, pick q.node = some s := by
  induction h with
  | refl => exact absurd (hcq.trans_within hq) (not_below_self _)
  | @tail b d hb hd ih =>
    have hbq : b.Within q := within_of_below_child (mem_children_of_next? hd) hcq
    rcases hbq.eq_or_below with rfl | hbelow
    · exact ⟨hb, exists_pick_of_next? hd⟩
    · exact ih hbelow

end Cursor

mutual

/-- The nodes of a spine are picked one from another. -/
theorem picked_of_mem_spineFrom (pick : Node → Option Selector) (above : List Node) :
    ∀ n c, c ∈ spineFrom pick above n → c.Picked pick ⟨n, above⟩
  | .mk label children, c, h => by
    rw [spineFrom] at h
    rcases List.mem_cons.mp h with rfl | h
    · exact Relation.ReflTransGen.refl
    · split at h
      · exact absurd h List.not_mem_nil
      · next s hs =>
        obtain ⟨n, hn, hc⟩ := picked_of_mem_spineInto pick s _ children c h
        refine Relation.ReflTransGen.head ?_ hc
        -- the child that the selector finds among the nodes is the one that it finds among the
        -- cursors
        show (pick (.mk label children)).bind _ = _
        rw [hs, Option.bind_some]
        show (children.map _).find? _ = _
        rw [List.find?_map]
        exact congrArg (Option.map _) hn

theorem picked_of_mem_spineInto (pick : Node → Option Selector) (s : Selector) (above : List Node) :
    ∀ ns c, c ∈ spineInto pick s above ns →
      ∃ n, ns.find? s.selects = some n ∧ c.Picked pick ⟨n, above⟩
  | [], c, h => by
    rw [spineInto] at h
    exact absurd h List.not_mem_nil
  | n :: rest, c, h => by
    rw [spineInto] at h
    split at h
    · next hs => exact ⟨n, List.find?_cons_of_pos hs, picked_of_mem_spineFrom pick above n c h⟩
    · next hs =>
      obtain ⟨m, hm, hc⟩ := picked_of_mem_spineInto pick s above rest c h
      exact ⟨m, (List.find?_cons_of_neg hs).trans hm, hc⟩

end

/-- **A spine is a chain of picks.** -/
theorem Cursor.picked_of_mem_spine {pick : Node → Option Selector} {c top : Cursor}
    (h : c ∈ top.spine pick) : c.Picked pick top :=
  picked_of_mem_spineFrom pick top.above top.node c h

/-- The spine goes on in the first child that the selector takes. -/
theorem spineInto_eq (pick : Node → Option Selector) (s : Selector) (above ns : List Node) :
    spineInto pick s above ns = match ns.find? s.selects with
      | some n => spineFrom pick above n
      | none => [] := by
  induction ns with
  | nil => rfl
  | cons n rest ih =>
    rw [spineInto, List.find?_cons]
    cases s.selects n with
    | true => rfl
    | false => exact ih

/-- A spine is its start and the spine of the next node. -/
theorem Cursor.spine_of_next? {pick : Node → Option Selector} {c q : Cursor}
    (h : c.next? pick = some q) : c.spine pick = c :: q.spine pick := by
  obtain ⟨⟨label, children⟩, above⟩ := c
  obtain ⟨s, hs, hq⟩ := Option.bind_eq_some_iff.mp h
  have hq : (children.map fun n => Cursor.mk n (.mk label children :: above)).find?
      (fun q => s.selects q.node) = some q := hq
  rw [List.find?_map] at hq
  obtain ⟨n, hn, rfl⟩ := Option.map_eq_some_iff.mp hq
  have hn : children.find? s.selects = some n := hn
  simp only [spine, spineFrom, hs, spineInto_eq, hn]

theorem Cursor.spine_of_pick {pick : Node → Option Selector} {c : Cursor} (h : pick c.node = none) :
    c.spine pick = [c] := by
  obtain ⟨⟨label, children⟩, above⟩ := c
  simp only [spine, spineFrom, h]

/-- The end of a spine is picked from its start. -/
theorem Cursor.follow_picked (pick : Node → Option Selector) (c : Cursor) :
    (c.follow pick).Picked pick c := by
  have hlast : c.follow pick ∈ c :: c.spine pick := List.getLastD_mem_cons
  rcases List.mem_cons.mp hlast with h | h
  · rw [h]
    exact Relation.ReflTransGen.refl
  · exact picked_of_mem_spine h

/-! ## Whole trees -/

mutual

/-- The test holds at each node of the tree. -/
def Node.everywhere (test : Node → Bool) : Node → Bool
  | .mk label children => test (.mk label children) && everywhereIn test children

def everywhereIn (test : Node → Bool) : List Node → Bool
  | [] => true
  | n :: rest => n.everywhere test && everywhereIn test rest

end

theorem everywhereIn_iff {test : Node → Bool} {ns : List Node} :
    everywhereIn test ns = true ↔ ∀ n ∈ ns, n.everywhere test = true := by
  induction ns with
  | nil => simp [everywhereIn]
  | cons n rest ih => simp [everywhereIn, ih]

/-- A test holds everywhere when it holds here and everywhere in the children. -/
theorem Node.everywhere_iff {test : Node → Bool} {n : Node} :
    n.everywhere test = true ↔ test n = true ∧ ∀ m ∈ n.children, m.everywhere test = true := by
  cases n with
  | mk label children => rw [everywhere, Bool.and_eq_true, everywhereIn_iff]; rfl

/-- What holds everywhere in a tree holds everywhere in its parts. -/
theorem Cursor.Within.everywhere {test : Node → Bool} {c top : Cursor} (h : c.Within top)
    (htop : top.node.everywhere test = true) : c.node.everywhere test = true := by
  induction h with
  | refl => exact htop
  | tail _ hchild ih =>
    obtain ⟨n, hn, rfl⟩ := List.mem_map.mp hchild
    exact (Node.everywhere_iff.mp ih).2 n hn

/-- What holds everywhere holds at each node within. -/
theorem Cursor.Within.test {test : Node → Bool} {c top : Cursor} (h : c.Within top)
    (htop : top.node.everywhere test = true) : test c.node = true :=
  (Node.everywhere_iff.mp (h.everywhere htop)).1

/-- Different fields of a node lead to different children. -/
def Node.fieldsApart (n : Node) : Bool :=
  let fields := n.children.flatMap (·.label.fields)
  fields.all fun f => fields.all fun g =>
    f == g || n.children.findIdx? (·.fills f) != n.children.findIdx? (·.fills g)

/-- Two fields that find the same child find it at the same place. -/
theorem findIdx?_eq_of_find? {ns : List Node} {x : Node} {f g : String}
    (hf : ns.find? (·.fills f) = some x) (hg : ns.find? (·.fills g) = some x) :
    ns.findIdx? (·.fills f) = ns.findIdx? (·.fills g) := by
  induction ns with
  | nil => rfl
  | cons n rest ih =>
    have hxf : x.fills f = true := List.find?_some (p := fun n : Node => n.fills f) hf
    have hxg : x.fills g = true := List.find?_some (p := fun n : Node => n.fills g) hg
    by_cases hn : n.fills f = true
    · obtain rfl : n = x := by simpa [hn] using hf
      simp [List.findIdx?_cons, hxf, hxg]
    · -- a node before `x` that fills `g` would be found in its place
      have hn' : ¬ n.fills g = true := by
        intro hng
        obtain rfl : n = x := by simpa [hng] using hg
        exact hn hxf
      have hrest := ih (by simpa [hn] using hf) (by simpa [hn'] using hg)
      simp [List.findIdx?_cons, hn, hn', hrest]

/-- **A child is found by one field only.** -/
theorem Cursor.field_eq_of_apart {c x : Cursor} (hc : c.node.fieldsApart = true) {f g : String}
    (hf : c.field? f = some x) (hg : c.field? g = some x) : f = g := by
  have hnode : ∀ {name}, c.field? name = some x →
      c.node.children.find? (·.fills name) = some x.node := by
    intro name h
    rw [field?, children, List.find?_map] at h
    obtain ⟨n, hn, rfl⟩ := Option.map_eq_some_iff.mp h
    exact hn
  have hmem : ∀ {name}, c.field? name = some x →
      name ∈ c.node.children.flatMap (·.label.fields) := by
    intro name h
    have hfills : x.node.fills name = true :=
      List.find?_some (p := fun n : Node => n.fills name) (hnode h)
    exact List.mem_flatMap.mpr ⟨x.node, List.mem_of_find?_eq_some (hnode h),
      List.contains_iff_mem.mp hfills⟩
  have hidx := findIdx?_eq_of_find? (hnode hf) (hnode hg)
  have happart := List.all_eq_true.mp (List.all_eq_true.mp hc f (hmem hf)) g (hmem hg)
  simpa [hidx] using happart

end CallAtlas.Tree
