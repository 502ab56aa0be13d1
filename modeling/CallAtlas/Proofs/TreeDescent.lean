import Mathlib.Logic.Relation
import CallAtlas.Extraction.Walk

/-!
# Proofs.TreeDescent — what a walk looks at lies within the node that it started from

A walk over a tree goes down only: to children, to the child that a field leads to, along a spine.
So all that it comes to is `Within` the node where it started, and in a tree whose lines are nested
(`Node.linesNested`) it has its lines there.

* `within_of_mem_spine`, `follow_within` — spines go down.
* `functionValue?_within`, `CallShape.argumentLists_within` — so do the search for a function and
  the reading of a chain.
* `Within.lines` — the lines of what lies within.
-/

namespace CallAtlas

namespace Tree

namespace Cursor

/-- Some steps down from `top`, or none, lead to `c`. -/
def Within (c top : Cursor) : Prop := Relation.ReflTransGen (fun p q => q ∈ p.children) top c

variable {a b c top : Cursor}

theorem Within.refl (c : Cursor) : c.Within c := Relation.ReflTransGen.refl

/-- Steps down may be put together. -/
theorem Within.trans (hab : a.Within b) (hbc : b.Within c) : a.Within c :=
  Relation.ReflTransGen.trans hbc hab

theorem within_of_mem_children (h : c ∈ top.children) : c.Within top :=
  Relation.ReflTransGen.single h

/-- A named child is a child. -/
theorem within_of_mem_namedChildren (h : c ∈ top.namedChildren) : c.Within top :=
  within_of_mem_children (List.mem_filter.mp h).1

/-- A field leads to a child. -/
theorem within_of_field? {name : String} (h : top.field? name = some c) : c.Within top :=
  within_of_mem_children (List.mem_of_find?_eq_some h)

/-- What lies within a child lies within its parent. -/
theorem within_of_within_child {label : Label} {children above : List Node} {m : Node}
    (hm : m ∈ children) (hc : c.Within ⟨m, .mk label children :: above⟩) :
    c.Within ⟨.mk label children, above⟩ :=
  hc.trans (within_of_mem_children (List.mem_map_of_mem hm))

end Cursor

/-! ## Spines -/

mutual

/-- **What is on a spine lies within the node where it starts.** By recursion on the tree, together
with the next statement, as spines are made. -/
theorem within_of_mem_spineFrom (pick : Node → Option Selector) (above : List Node) :
    ∀ n c, c ∈ spineFrom pick above n → c.Within ⟨n, above⟩
  | .mk label children, c, h => by
    rw [spineFrom] at h
    rcases List.mem_cons.mp h with rfl | h
    · exact .refl _
    · split at h
      · exact absurd h List.not_mem_nil
      · -- behind the node the spine goes on in one of its children
        obtain ⟨n, hn, hc⟩ := within_of_mem_spineInto pick _ _ children c h
        exact Cursor.within_of_within_child hn hc

/-- A spine that goes on in some nodes goes on in one of them. -/
theorem within_of_mem_spineInto (pick : Node → Option Selector) (s : Selector) (above : List Node) :
    ∀ ns c, c ∈ spineInto pick s above ns → ∃ n ∈ ns, c.Within ⟨n, above⟩
  | [], c, h => by
    rw [spineInto] at h
    exact absurd h List.not_mem_nil
  | n :: rest, c, h => by
    rw [spineInto] at h
    split at h
    · -- the first node that is selected has the whole rest of the spine
      exact ⟨n, List.mem_cons_self, within_of_mem_spineFrom pick above n c h⟩
    · obtain ⟨m, hm, hc⟩ := within_of_mem_spineInto pick s above rest c h
      exact ⟨m, List.mem_cons_of_mem n hm, hc⟩

end

namespace Cursor

variable {pick : Node → Option Selector} {c top : Cursor}

/-- The same for the spine of a cursor. -/
theorem within_of_mem_spine (h : c ∈ top.spine pick) : c.Within top :=
  within_of_mem_spineFrom pick top.above top.node c h

/-- The end of a spine, which is its start where no step is made. -/
theorem follow_within (pick : Node → Option Selector) (c : Cursor) : (c.follow pick).Within c := by
  have hlast : c.follow pick ∈ c :: c.spine pick := List.getLastD_mem_cons
  rcases List.mem_cons.mp hlast with h | h
  · rw [h]
    exact .refl c
  · exact within_of_mem_spine h

end Cursor

/-! ## Lines -/

mutual

/-- Everywhere in the tree, the lines of a node lie within those of its parent. -/
def Node.linesNested : Node → Bool
  | .mk label children => linesNestedIn label children

/-- So it is for the children of a node with this label. -/
def linesNestedIn (label : Label) : List Node → Bool
  | [] => true
  | n :: rest =>
    label.line ≤ n.line && n.endLine ≤ label.endLine && n.linesNested && linesNestedIn label rest

end

/-- The test on the children of a node, child by child. -/
theorem linesNestedIn_iff {label : Label} {ns : List Node} :
    linesNestedIn label ns = true ↔
      ∀ n ∈ ns, label.line ≤ n.line ∧ n.endLine ≤ label.endLine ∧ n.linesNested = true := by
  induction ns with
  | nil => simp [linesNestedIn]
  | cons n rest ih => simp [linesNestedIn, ih, and_assoc]

namespace Cursor

/-- The lines of a node. -/
def span (c : Cursor) : LineSpan := ⟨c.line, c.node.endLine⟩

variable {c top : Cursor}

/-- One step down: a child has its lines in those of its parent, and the test holds in it too. -/
theorem lines_of_mem_children (htop : top.node.linesNested = true) (h : c ∈ top.children) :
    top.line ≤ c.line ∧ c.node.endLine ≤ top.node.endLine ∧ c.node.linesNested = true := by
  obtain ⟨n, hn, rfl⟩ := List.mem_map.mp h
  -- the test is by recursion on nodes, so the node of the cursor has to be open
  obtain ⟨⟨label, children⟩, above⟩ := top
  exact linesNestedIn_iff.mp htop n hn

/-- **What lies within has its lines within.** Induction on the steps down. -/
theorem Within.lines (h : c.Within top) (htop : top.node.linesNested = true) :
    top.line ≤ c.line ∧ c.node.endLine ≤ top.node.endLine ∧ c.node.linesNested = true := by
  induction h with
  | refl => exact ⟨Nat.le_refl _, Nat.le_refl _, htop⟩
  | tail _ hchild ih =>
    obtain ⟨hstart, hend, hnested⟩ := ih
    obtain ⟨hstart', hend', hnested'⟩ := lines_of_mem_children hnested hchild
    exact ⟨Nat.le_trans hstart hstart', Nat.le_trans hend' hend, hnested'⟩

end Cursor

end Tree

/-! ## Function values and chains -/

namespace Extraction

open CallAtlas.Tree

variable {c value : Cursor}

/-! The search for a function goes down, and what it finds is a function. One statement for each of
the three functions of the search, by recursion on the tree as they are. -/

mutual

/-- A function that is found from a node: inside of a wrapper, the node itself, or an argument of a
call that wraps functions. -/
theorem within_of_functionFrom (above : List Node) :
    ∀ n c, functionFrom above n = some c → c.Within ⟨n, above⟩ ∧ isFunctionKind c.kind = true
  | .mk label children, c, h => by
    rw [functionFrom] at h
    split at h
    · -- a wrapper is looked through to its first named child
      obtain ⟨⟨m, hm, hc⟩, hkind⟩ := within_of_functionOfFirst _ children c h
      exact ⟨Cursor.within_of_within_child hm hc, hkind⟩
    · split at h
      · next hkind =>
        cases h
        exact ⟨.refl _, hkind⟩
      · split at h
        · -- of a call that wraps functions only the arguments are looked at
          obtain ⟨⟨m, hm, hc⟩, hkind⟩ := within_of_functionOfArguments _ children c h
          exact ⟨Cursor.within_of_within_child hm hc, hkind⟩
        · cases h

/-- The first named node decides. -/
theorem within_of_functionOfFirst (above : List Node) :
    ∀ ns c, functionOfFirst above ns = some c →
      (∃ n ∈ ns, c.Within ⟨n, above⟩) ∧ isFunctionKind c.kind = true
  | [], c, h => by
    rw [functionOfFirst] at h
    cases h
  | n :: rest, c, h => by
    rw [functionOfFirst] at h
    split at h
    · obtain ⟨hc, hkind⟩ := within_of_functionFrom above n c h
      exact ⟨⟨n, List.mem_cons_self, hc⟩, hkind⟩
    · obtain ⟨⟨m, hm, hc⟩, hkind⟩ := within_of_functionOfFirst above rest c h
      exact ⟨⟨m, List.mem_cons_of_mem n hm, hc⟩, hkind⟩

/-- The argument list is the child where the search goes on. -/
theorem within_of_functionOfArguments (above : List Node) :
    ∀ ns c, functionOfArguments above ns = some c →
      (∃ n ∈ ns, c.Within ⟨n, above⟩) ∧ isFunctionKind c.kind = true
  | [], c, h => by
    rw [functionOfArguments] at h
    cases h
  | .mk label children :: rest, c, h => by
    rw [functionOfArguments] at h
    split at h
    · obtain ⟨⟨m, hm, hc⟩, hkind⟩ := within_of_functionOfFirst _ children c h
      exact ⟨⟨_, List.mem_cons_self, Cursor.within_of_within_child hm hc⟩, hkind⟩
    · obtain ⟨⟨m, hm, hc⟩, hkind⟩ := within_of_functionOfArguments above rest c h
      exact ⟨⟨m, List.mem_cons_of_mem _ hm, hc⟩, hkind⟩

end

/-- **The function of a value lies within it.** -/
theorem functionValue?_within (h : functionValue? value = some c) : c.Within value :=
  (within_of_functionFrom value.above value.node c h).1

/-- **The function of a value is a function.** -/
theorem isFunctionKind_of_functionValue? (h : functionValue? value = some c) :
    isFunctionKind c.kind = true :=
  (within_of_functionFrom value.above value.node c h).2

/-- What is so of the calls that a chain in the making has collected. -/
structure Collected (holds : Cursor → Prop) (acc : List Segment × Option Cursor) : Prop where
  segments : ∀ s ∈ acc.1, ∀ call, s.call = some call → holds call
  pending : ∀ call, acc.2 = some call → holds call

/-- One step along the spine. A call waits until the name of the member that it calls is met. -/
theorem Collected.step {holds : Cursor → Prop} {acc : List Segment × Option Cursor}
    (h : Collected holds acc) (hc : c.kind = "call_expression" → holds c) :
    Collected holds (Chain.step acc c) := by
  unfold Chain.step
  split
  · next hkind =>
    refine ⟨h.segments, fun call hcall => ?_⟩
    cases hcall
    exact hc hkind
  · refine ⟨fun s hs call hcall => ?_, fun call hcall => by cases hcall⟩
    -- the call that was waiting goes into the new segment
    rcases List.mem_cons.mp hs with rfl | hs
    · exact h.pending call hcall
    · exact h.segments s hs call hcall
  · exact h

/-- A whole spine, step by step. -/
theorem Collected.foldl {holds : Cursor → Prop} {spine : List Cursor}
    {acc : List Segment × Option Cursor} (h : Collected holds acc)
    (hspine : ∀ c ∈ spine, c.kind = "call_expression" → holds c) :
    Collected holds (spine.foldl Chain.step acc) := by
  induction spine generalizing acc with
  | nil => exact h
  | cons c rest ih =>
    exact ih (h.step (hspine c List.mem_cons_self)) fun c' hc' =>
      hspine c' (List.mem_cons_of_mem c hc')

/-- The argument lists of a chain are those of calls on its spine. -/
theorem exists_call_of_mem_argumentLists {call args : Cursor}
    (h : args ∈ (Chain.read call).argumentLists) :
    ∃ c ∈ call.spine Chain.pick, c.kind = "call_expression" ∧ c.field? "arguments" = some args := by
  have hcollected : Collected (fun c => c ∈ call.spine Chain.pick ∧ c.kind = "call_expression")
      ((call.spine Chain.pick).foldl Chain.step ([], none)) :=
    Collected.foldl ⟨by simp, by simp⟩ fun c hc hkind => ⟨hc, hkind⟩
  obtain ⟨c, hc, hargs⟩ := List.mem_filterMap.mp h
  -- the call at the root of the chain is still waiting when the spine ends
  rcases List.mem_append.mp hc with hroot | hsegment
  · obtain ⟨hspine, hkind⟩ := hcollected.pending c (Option.mem_toList.mp hroot)
    exact ⟨c, hspine, hkind, hargs⟩
  · obtain ⟨s, hs, hcall⟩ := List.mem_filterMap.mp hsegment
    obtain ⟨hspine, hkind⟩ := hcollected.segments s hs c hcall
    exact ⟨c, hspine, hkind, hargs⟩

/-- The argument lists of a call that is recorded as a chain are those that the reading of the chain
gives. -/
theorem CallShape.argumentLists_eq {settings : ExtractionSettings} {target : CallTarget}
    {lists : List Cursor} (h : CallShape.of settings c = .chain target lists) :
    lists = (Chain.read c).argumentLists := by
  dsimp only [CallShape.of] at h
  split at h
  · split at h
    · cases h
      rfl
    · split at h
      · cases h
      · split at h <;> cases h
  · cases h

/-- They lie within the call. -/
theorem CallShape.argumentLists_within {settings : ExtractionSettings} {target : CallTarget}
    {lists : List Cursor} (h : CallShape.of settings c = .chain target lists) :
    ∀ args ∈ lists, args.Within c := by
  intro args hargs
  rw [argumentLists_eq h] at hargs
  obtain ⟨call, hcall, -, hfield⟩ := exists_call_of_mem_argumentLists hargs
  exact (Cursor.within_of_field? hfield).trans (Cursor.within_of_mem_spine hcall)

end Extraction

end CallAtlas
