import CallAtlas.DataFlow.Trace
import CallAtlas.Proofs.CallCoverage

/-!
# Proofs.FlowVisits — what a trace of a variable looks at

A trace visits the nodes of a file in the order of the text. It goes from a node to its named
children, as long as the lines of the node touch those of the trace and the nesting limit is not
reached. In a tree as parsers make them this comes down to three questions about the node itself: is
it named, is it on the lines, is it above the limit.

* `visits_succ` — the visits of a node are the node and those of its named children. All else is by
  induction on the levels that are left.
* `node_mem_visits_iff`, `tooDeep_mem_visits_iff` — which nodes are visited, and when the limit
  makes itself felt.
* `Context.sight` — the nodes that a trace would visit if it were not for the limit on findings, in
  their order.
* `Context.InSight`, `Context.mem_sight_iff` — a variable is among them exactly if it lies on the
  lines of the trace and above the nesting limit.
-/

namespace CallAtlas.DataFlow

open CallAtlas.Tree

variable {lines : Nat → Nat → Bool} {budget : Nat} {c x : Cursor}

/-! ## Visits -/

def Visit.node? : Visit → Option Cursor
  | .node c => some c
  | .tooDeep => none

/-- The visits of a node and all below it. -/
def visits (lines : Nat → Nat → Bool) (budget : Nat) (c : Cursor) : List Visit :=
  visitsFrom lines c.above budget c.node

/-- The visits below a node are those of its named children, in order. -/
theorem visitsBelow_eq (lines : Nat → Nat → Bool) (above : List Node) (budget : Nat)
    (ns : List Node) :
    visitsBelow lines above budget ns
      = (ns.filter (·.isNamed)).flatMap (visitsFrom lines above budget) := by
  induction ns with
  | nil => rfl
  | cons n rest ih =>
    rw [visitsBelow, ih]
    cases hnamed : n.isNamed with
    | true => rw [List.filter_cons_of_pos hnamed, List.flatMap_cons, if_pos rfl]
    | false => simp [hnamed]

theorem visits_zero (lines : Nat → Nat → Bool) (c : Cursor) : visits lines 0 c = [.tooDeep] := by
  obtain ⟨⟨label, children⟩, above⟩ := c
  rfl

/-- A visited node comes before its named children; a node that shares no line is left out with all
below it. -/
theorem visits_succ (lines : Nat → Nat → Bool) (budget : Nat) (c : Cursor) :
    visits lines (budget + 1) c =
      if lines c.line c.node.endLine then
        .node c :: c.namedChildren.flatMap (visits lines budget) else [] := by
  obtain ⟨⟨label, children⟩, above⟩ := c
  have hbelow : (Cursor.namedChildren ⟨.mk label children, above⟩).flatMap (visits lines budget)
      = visitsBelow lines (.mk label children :: above) budget children := by
    rw [visitsBelow_eq, Cursor.namedChildren, Cursor.children, List.filter_map, List.flatMap_map]
    rfl
  rw [hbelow, visits, visitsFrom, if_neg (Nat.succ_ne_zero budget), Nat.add_sub_cancel]
  rfl

/-! ## Which nodes are visited -/

/-- What is visited is named, on the lines and above the limit. Induction on the levels that are
left. -/
theorem of_node_mem_visits (h : .node x ∈ visits lines budget c) :
    x.Within c ∧ (x = c ∨ x.node.isNamed = true) ∧ lines x.line x.node.endLine = true ∧
      x.depth < c.depth + budget := by
  -- the budget shrinks with every level, so it bounds the depth
  induction budget generalizing c with
  | zero =>
    rw [visits_zero] at h
    cases List.mem_singleton.mp h
  | succ budget ih =>
    rw [visits_succ] at h
    split at h
    · next hlines =>
      rcases List.mem_cons.mp h with heq | h
      · obtain rfl : x = c := Visit.node.inj heq
        exact ⟨.refl x, .inl rfl, hlines, by omega⟩
      · obtain ⟨q, hq, hx⟩ := List.mem_flatMap.mp h
        obtain ⟨hwithin, hnamed, hlines', hdepth⟩ := ih hx
        have hqc := Cursor.depth_of_mem_namedChildren hq
        refine ⟨hwithin.trans (Cursor.within_of_mem_namedChildren hq), .inr ?_, hlines', by omega⟩
        rcases hnamed with rfl | hnamed
        · exact (List.mem_filter.mp hq).2
        · exact hnamed
    · cases h

/-- Lines that touch a part touch the whole. -/
def Widens (lines : Nat → Nat → Bool) : Prop :=
  ∀ first last first' last', first' ≤ first → last ≤ last' → lines first last = true →
    lines first' last' = true

/-- **Which nodes are visited.** Every node on the way down to a named one is named too, and it has
at least its lines. Induction on the levels that are left. -/
theorem node_mem_visits_iff (hwidens : Widens lines) (hlines : c.node.linesNested = true)
    (htokens : c.node.everywhere Node.tokensBare = true) :
    .node x ∈ visits lines budget c ↔
      x.Within c ∧ (x = c ∨ x.node.isNamed = true) ∧ lines x.line x.node.endLine = true ∧
        x.depth < c.depth + budget := by
  refine ⟨of_node_mem_visits, ?_⟩
  rintro ⟨hwithin, hnamed, hx, hdepth⟩
  induction budget generalizing c with
  | zero =>
    have hle := hwithin.depth_le
    omega
  | succ budget ih =>
    obtain ⟨hfirst, hlast, -⟩ := hwithin.lines hlines
    -- the lines widen upwards, so no ancestor of a touching node is left out
    rw [visits_succ, if_pos (hwidens _ _ _ _ hfirst hlast hx)]
    rcases hwithin.eq_or_below with rfl | hbelow
    · exact List.mem_cons_self
    · have hnamed : x.node.isNamed = true := by
        refine hnamed.resolve_left ?_
        rintro rfl
        exact Cursor.not_below_self x hbelow
      have hbare := (Node.everywhere_iff.mp htokens).1
      obtain ⟨q, hq, hxq⟩ := Cursor.exists_namedChild hbare (.inl hnamed) hbelow
      have hqc := Cursor.within_of_mem_namedChildren hq
      have hdepthq := Cursor.depth_of_mem_namedChildren hq
      refine List.mem_cons_of_mem _ (List.mem_flatMap.mpr ⟨q, hq, ?_⟩)
      exact ih (hqc.lines hlines).2.2 (hqc.everywhere htokens) hxq (.inr hnamed) (by omega)

/-- **When the nesting limit makes itself felt.** A visited node has a named child on the first
level too many. -/
theorem tooDeep_mem_visits_iff (hbudget : 0 < budget) :
    .tooDeep ∈ visits lines budget c ↔
      ∃ p, .node p ∈ visits lines budget c ∧ ∃ q ∈ p.namedChildren, q.depth = c.depth + budget := by
  induction budget generalizing c with
  | zero => omega
  | succ budget ih =>
    rw [visits_succ]
    split
    · simp only [List.mem_cons, List.mem_flatMap, reduceCtorEq, false_or, Visit.node.injEq]
      rcases Nat.eq_zero_or_pos budget with rfl | hpos
      · -- the next level is the one too many
        simp only [visits_zero, List.mem_singleton, and_true, reduceCtorEq, and_false,
          exists_false, or_false, exists_eq_left, Nat.zero_add]
        refine exists_congr fun q => ⟨fun hq => ⟨hq, ?_⟩, And.left⟩
        exact Cursor.depth_of_mem_namedChildren hq
      · constructor
        · rintro ⟨q, hq, hdeep⟩
          obtain ⟨p, hp, y, hy, hdepth⟩ := (ih hpos).mp hdeep
          rw [Cursor.depth_of_mem_namedChildren hq] at hdepth
          exact ⟨p, .inr ⟨q, hq, hp⟩, y, hy, by omega⟩
        · rintro ⟨p, rfl | ⟨q, hq, hp⟩, y, hy, hdepth⟩
          · -- a child of the node itself is on the first level below
            rw [Cursor.depth_of_mem_namedChildren hy] at hdepth
            omega
          · refine ⟨q, hq, (ih hpos).mpr ⟨p, hp, y, hy, ?_⟩⟩
            rw [Cursor.depth_of_mem_namedChildren hq]
            omega
    · simp

/-! ## The nodes in sight of a trace -/

/-- What a trace in a file needs to know. -/
def Context.of (g : CallGraph) (file : SourceFile) (query : Query)
    (extraction : ExtractionSettings) : Context where
  graph := g
  settings := extraction
  callables :=
    g.declarations.filter fun d => d.filePath = Path.normalize file.path && d.kind.isCallable
  query := query

namespace Context

variable (ctx : Context)

/-- The declaration to which the query's line restricts the trace. -/
def scope? : Option Declaration := ctx.query.line.bind ctx.innermost?

/-- Whether some lines touch those of the trace. -/
def touches (first last : Nat) : Bool :=
  match ctx.scope? with
  | none => true
  | some d => d.span.startLine ≤ last && first ≤ d.span.endLine

/-- A span that contains one touching the scope touches it too. -/
theorem widens_touches : Widens ctx.touches := by
  intro first last first' last' hfirst hlast h
  unfold touches at h ⊢
  split at h
  · rfl
  · simp only [Bool.and_eq_true, decide_eq_true_eq] at h ⊢
    omega

/-- The visits of a trace. -/
def walk (root : Node) : List Visit := visits ctx.touches maxNesting ⟨root, []⟩

/-- The nodes that the trace comes to, in the order of the text, if nothing ends it before. -/
def sight (root : Node) : List Cursor := (ctx.walk root).filterMap Visit.node?

/-- The node lies on the lines of the trace and above the nesting limit. -/
structure InSight (root : Node) (c : Cursor) : Prop where
  within : c.Within ⟨root, []⟩
  lines : ctx.touches c.line c.node.endLine = true
  depth : c.depth < maxNesting

/-- A node in sight has a child below the nesting limit. -/
def TooDeep (root : Node) : Prop :=
  ∃ p ∈ ctx.sight root, ∃ q ∈ p.namedChildren, q.depth = maxNesting

variable {ctx} {root : Node}

/-- What is in sight is what the walk visits. -/
theorem mem_sight : c ∈ ctx.sight root ↔ .node c ∈ ctx.walk root := by
  rw [sight, List.mem_filterMap]
  constructor
  · rintro ⟨visit, hvisit, hc⟩
    cases visit with
    | node x =>
      obtain rfl : x = c := Option.some.inj hc
      exact hvisit
    | tooDeep => cases hc
  · exact fun h => ⟨.node c, h, rfl⟩

theorem tooDeep_iff : ctx.TooDeep root ↔ .tooDeep ∈ ctx.walk root := by
  rw [walk, tooDeep_mem_visits_iff (by decide)]
  simp only [TooDeep, mem_sight, walk, Cursor.depth, List.length_nil, Nat.zero_add]

end Context

/-- Names of variables are no punctuation. -/
def variableNamed (n : Node) : Bool := !isVariable n.kind || n.isNamed

/-- **A variable is visited exactly if it lies on the lines and above the nesting limit.** -/
theorem Context.mem_sight_iff {ctx : Context} {root : Node} (hlines : root.linesNested = true)
    (htokens : root.everywhere Node.tokensBare = true)
    (hvariables : root.everywhere variableNamed = true) (hc : isVariable c.kind = true) :
    c ∈ ctx.sight root ↔ ctx.InSight root c := by
  rw [mem_sight, walk, node_mem_visits_iff ctx.widens_touches hlines htokens]
  simp only [Cursor.depth, List.length_nil, Nat.zero_add]
  constructor
  · exact fun ⟨hwithin, _, htouches, hdepth⟩ => ⟨hwithin, htouches, hdepth⟩
  · intro h
    have hnamed : (!isVariable c.node.kind || c.node.isNamed) = true := h.within.test hvariables
    have hkind : isVariable c.node.kind = true := hc
    rw [hkind, Bool.not_true, Bool.false_or] at hnamed
    exact ⟨h.within, .inr hnamed, h.lines, h.depth⟩

end CallAtlas.DataFlow
