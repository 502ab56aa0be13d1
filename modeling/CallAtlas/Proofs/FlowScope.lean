import CallAtlas.Proofs.FlowDirections
import CallAtlas.Proofs.SharedIds

/-!
# Proofs.FlowScope — what a trace at a line finds outside the declaration around the line

A trace at a line is restricted to the innermost callable around it. The walk leaves out what has no
line in common with the callable, and that is not the same as looking inside it only: a declaration
or an assignment around the callable, or one that shares a line with it, is visited, and its value
may begin on another line.

* `Node.upright` — no node ends above its first line, and a name stays on one line.
* `Context.line_of_mem_sourcesAt` — a source has the line of a node within the one that gives it.
* `Cursor.Straddles` — a node that sticks out of some lines; `Context.covers_of_mem_sourcesAt` — no
  other node gives a source outside of them.
* `Context.covers_sources_iff`, `Context.covers_destinations` — so it is for a whole walk.
* `trace_in_scope_iff` — when a trace stays inside its declaration; `initializer_leaves_scope` — one
  that does not.
-/

namespace CallAtlas

namespace Tree

/-- The node does not end above its first line, nor behind it if it is a name. -/
def Node.upright (n : Node) : Bool :=
  n.line ≤ n.endLine && (!DataFlow.isVariable n.kind || n.endLine ≤ n.line)

/-- The node begins before some lines or ends behind them. -/
def Cursor.Straddles (c : Cursor) (span : LineSpan) : Prop :=
  c.line < span.startLine ∨ span.endLine < c.node.endLine

end Tree

namespace DataFlow

open CallAtlas.Tree

/-- The value behind wrappers is part of the wrapped value. -/
theorem unwrapValue_within (c : Cursor) : (unwrapValue c).Within c := by
  -- wrappers are passed along the spine of first children
  let pick (n : Node) : Option Selector := if passesOn n.kind then some .firstNamed else none
  have hlast : unwrapValue c ∈ c :: (c.spine pick).take (maxUnwrap + 1) := List.getLastD_mem_cons
  rcases List.mem_cons.mp hlast with h | h
  · rw [h]
    exact .refl c
  · exact Cursor.within_of_mem_spine (List.mem_of_mem_take h)

namespace Context

variable {ctx : Context} {c : Cursor} {root : Node} {d : Declaration} {limit : Nat}

/-! ## What one node gives -/

/-- A source has the line of the value or of the parameter. -/
theorem line_of_mem_sourcesAt {s : Source} (h : s ∈ ctx.sourcesAt c) :
    ∃ v : Cursor, v.Within c ∧ s.line = v.line := by
  obtain ⟨v, hv, ⟨forced, rfl⟩ | rfl⟩ := ctx.child_of_mem_sourcesAt h
  · exact ⟨unwrapValue v, (unwrapValue_within v).trans (Cursor.within_of_mem_children hv), rfl⟩
  · exact ⟨v, Cursor.within_of_mem_children hv, rfl⟩

/-- A node inside a span has its sources inside the span. -/
theorem covers_of_mem_sourcesAt (hlines : c.node.linesNested = true)
    (hupright : c.node.everywhere Node.upright = true) {span : LineSpan}
    (hinside : ¬ c.Straddles span) {s : Source} (h : s ∈ ctx.sourcesAt c) :
    span.covers s.line = true := by
  obtain ⟨v, hv, hline⟩ := line_of_mem_sourcesAt h
  obtain ⟨hfirst, hlast, -⟩ := hv.lines hlines
  -- the node of the source ends where it starts or later
  have hv' : v.line ≤ v.node.endLine := by
    have hupright' := (Bool.and_eq_true_iff.mp (hv.test hupright)).1
    exact of_decide_eq_true hupright'
  rw [Cursor.Straddles, not_or, Nat.not_lt, Nat.not_lt] at hinside
  rw [LineSpan.covers, Bool.and_eq_true, decide_eq_true_eq, decide_eq_true_eq]
  omega

/-- An occurrence of the identifier is never a source of it. -/
theorem sourcesAt_of_isOccurrence {identifier : String}
    (h : isOccurrence identifier c.node = true) : ctx.sourcesAt c = [] := by
  have hvariable : isVariable c.kind = true := (Bool.and_eq_true_iff.mp h).1
  unfold sourcesAt
  dsimp only
  split
  case h_6 => rfl
  all_goals next hkind => exact absurd (hkind ▸ hvariable) (by decide)

/-- The keys of an occurrence are those of its destination. -/
theorem mem_yield_of_isOccurrence (h : isOccurrence ctx.query.identifier c.node = true) {k : Key}
    (hk : k ∈ ctx.yield c) : ∃ d, ctx.destinationOf? c = some d ∧ k = d.key := by
  rw [yield, if_pos h] at hk
  split at hk
  · obtain ⟨d, hd, rfl⟩ := Option.map_eq_some_iff.mp (Option.mem_toList.mp hk)
    exact ⟨d, hd, rfl⟩
  · cases hk

/-- The sources among what a node yields are those it has, where sources are asked for. -/
theorem source_mem_yield {kind : SourceKind} {line : Nat} :
    .inl (kind, line) ∈ ctx.yield c ↔
      ctx.query.direction.wantsSources = true ∧
        ∃ s ∈ ctx.sourcesAt c, s.key = .inl (kind, line) := by
  by_cases hoccurs : isOccurrence ctx.query.identifier c.node = true
  · rw [sourcesAt_of_isOccurrence hoccurs]
    refine iff_of_false (fun h => ?_) (by simp)
    obtain ⟨d, -, hkey⟩ := mem_yield_of_isOccurrence hoccurs h
    cases hkey
  · rw [yield, if_neg hoccurs]
    split
    · next hwants => rw [List.mem_map, and_iff_right hwants]
    · next hwants => exact iff_of_false List.not_mem_nil fun h => hwants h.1

/-- A destination is an occurrence, and has its line. -/
theorem destination_mem_yield {kind : DestinationKind} {line : Nat}
    (h : .inr (kind, line) ∈ ctx.yield c) :
    isOccurrence ctx.query.identifier c.node = true ∧ line = c.line := by
  by_cases hoccurs : isOccurrence ctx.query.identifier c.node = true
  · obtain ⟨d, hd, hkey⟩ := mem_yield_of_isOccurrence hoccurs h
    obtain ⟨sink, -, hsink⟩ := Option.bind_eq_some_iff.mp hd
    obtain rfl := Option.some.inj hsink
    exact ⟨hoccurs, congrArg Prod.snd (Sum.inr.inj hkey)⟩
  · rw [yield, if_neg hoccurs] at h
    split at h
    · obtain ⟨s, -, hs⟩ := List.mem_map.mp h
      cases hs
    · cases h

/-! ## What a walk finds -/

/-- Every node in sight shares a line with the scope. -/
theorem lines_of_mem_sight (hscope : ctx.scope? = some d) (hc : c ∈ ctx.sight root) :
    d.span.startLine ≤ c.node.endLine ∧ c.line ≤ d.span.endLine := by
  obtain ⟨-, -, htouches, -⟩ := of_node_mem_visits (mem_sight.mp hc)
  rw [touches, hscope, Bool.and_eq_true, decide_eq_true_eq, decide_eq_true_eq] at htouches
  exact htouches

theorem within_of_mem_sight (hc : c ∈ ctx.sight root) : c.Within ⟨root, []⟩ :=
  (of_node_mem_visits (mem_sight.mp hc)).1

/-- **All destinations lie inside the declaration**, since a name is on one line. -/
theorem covers_destinations (hupright : root.everywhere Node.upright = true)
    (hscope : ctx.scope? = some d)
    {x : Destination} (hx : x ∈ (ctx.found limit root).destinations) :
    d.span.covers x.line = true := by
  obtain ⟨taken, rest, hsight, hcollecting, -, -⟩ := exists_taken ctx limit root
  have hkey : x.key ∈ (ctx.found limit root).keys :=
    List.mem_append_right _ (List.mem_map_of_mem hx)
  obtain ⟨c, hc, hyield⟩ := List.mem_flatMap.mp ((hcollecting.mem_keys _).mp hkey)
  obtain ⟨hoccurs, hline⟩ := destination_mem_yield hyield
  have hmem : c ∈ ctx.sight root := hsight ▸ List.mem_append_left rest hc
  obtain ⟨hfirst, hlast⟩ := lines_of_mem_sight hscope hmem
  -- the name has a line in common with the declaration, and no other line
  have hone : c.node.endLine ≤ c.line := by
    have hupright' := (Bool.and_eq_true_iff.mp ((within_of_mem_sight hmem).test hupright)).2
    have hvariable : isVariable c.node.kind = true := (Bool.and_eq_true_iff.mp hoccurs).1
    rw [hvariable, Bool.not_true, Bool.false_or] at hupright'
    exact of_decide_eq_true hupright'
  rw [LineSpan.covers, hline, Bool.and_eq_true, decide_eq_true_eq, decide_eq_true_eq]
  omega

/-- **When all sources lie inside the declaration.** A node that does not stick out of it cannot
give another one. -/
theorem covers_sources_iff (hlines : root.linesNested = true)
    (hupright : root.everywhere Node.upright = true) :
    (∀ s ∈ (ctx.found limit root).sources, d.span.covers s.line = true) ↔
      (ctx.query.direction.wantsSources = true →
        ∀ before c after, ctx.sight root = before ++ c :: after →
        ctx.tally before < limit → c.Straddles d.span →
          ∀ s ∈ ctx.sourcesAt c, d.span.covers s.line = true) := by
  obtain ⟨taken, rest, hsight, hcollecting, hfull, -⟩ := exists_taken ctx limit root
  constructor
  · intro hcovers hwants before c after hsplit hroom _ s hs
    -- the node was visited, so a source with this line was found
    have htaken : c ∈ taken :=
      (concat_prefix_taken hfull (hsight.symm.trans hsplit) hroom).subset (by simp)
    have hkey : s.key ∈ (ctx.found limit root).keys :=
      (hcollecting.mem_keys _).mpr (List.mem_flatMap.mpr ⟨c, htaken,
        source_mem_yield.mpr ⟨hwants, s, hs, rfl⟩⟩)
    rcases List.mem_append.mp hkey with hsource | hdestination
    · obtain ⟨s', hs', hsame⟩ := List.mem_map.mp hsource
      have hline : s'.line = s.line := congrArg Prod.snd (Sum.inl.inj hsame)
      exact hline ▸ hcovers s' hs'
    · obtain ⟨x, -, hx⟩ := List.mem_map.mp hdestination
      cases hx
  · intro hstraddling s hs
    have hkey : s.key ∈ (ctx.found limit root).keys :=
      List.mem_append_left _ (List.mem_map_of_mem hs)
    obtain ⟨c, hc, hyield⟩ := List.mem_flatMap.mp ((hcollecting.mem_keys _).mp hkey)
    obtain ⟨hwants, s', hs', hsame⟩ := source_mem_yield.mp hyield
    have hline : s'.line = s.line := congrArg Prod.snd (Sum.inl.inj hsame)
    rw [← hline]
    by_cases hout : c.Straddles d.span
    · obtain ⟨before, after, rfl⟩ := List.append_of_mem hc
      refine hstraddling hwants before c (after ++
        rest) ?_ (hcollecting.room_of_split rfl) hout s' hs'
      rw [hsight, List.append_assoc, List.cons_append]
    · -- what does not stick out keeps its values and parameters inside too
      have hwithin :=
        within_of_mem_sight (hsight ▸ List.mem_append_left rest hc : c ∈ ctx.sight root)
      exact covers_of_mem_sourcesAt (hwithin.lines hlines).2.2
        (hwithin.everywhere hupright) hout hs'

end Context

/-! ## The answer -/

/-- **When a trace at a line stays inside its declaration.** For every graph of some files, every
file with a tree as parsers make it, and every query and settings: if the trace names the
declaration that it is restricted to, then it is one of the graph, and all destinations are on its
lines. All sources are exactly if each node that sticks out of these lines, is in sight and has
fewer findings in front of it than there may be, gives only sources on these lines. -/
theorem trace_in_scope_iff (files : List FileAnalysis) (file : SourceFile) (query : Query)
    (extraction : ExtractionSettings) (settings : DataFlowSettings) (t : Trace) (id : String)
    (hlines : file.tree.linesNested = true) (hupright : file.tree.everywhere Node.upright = true)
    (htrace : trace (CallGraph.assemble files) file query extraction settings = .ok t)
    (hscope : t.scopeId = some id) :
    let ctx := Context.of (CallGraph.assemble files) file query extraction
    ∃ d, (CallGraph.assemble files).node? id = some d ∧
      (∀ x ∈ t.destinations, d.span.covers x.line = true) ∧
      ((∀ s ∈ t.sources, d.span.covers s.line = true) ↔
        (query.direction.wantsSources = true →
          ∀ before c after, ctx.sight file.tree = before ++ c :: after →
          ctx.tally before < settings.maxFindings → c.Straddles d.span →
            ∀ s ∈ ctx.sourcesAt c, d.span.covers s.line = true)) := by
  intro ctx
  obtain ⟨-, -, rfl⟩ := of_trace htrace
  obtain ⟨d, hd, rfl⟩ := Option.map_eq_some_iff.mp hscope
  have hnode : d ∈ (CallGraph.assemble files).nodes := by
    obtain ⟨line, -, hline⟩ := Option.bind_eq_some_iff.mp hd
    exact Order.mem_sortOn.mp (List.mem_filter.mp (mem_of_innermost? hline).1).1
  have hg : (CallGraph.assemble files).WellFormed := CallGraph.wellFormed_assemble files
  refine ⟨d, (CallGraph.node?_eq_some_iff hg).mpr ⟨hnode, rfl⟩, ?_, ?_⟩
  -- the lists are sorted by line, which keeps what the walk found
  · exact fun x hx => Context.covers_destinations hupright hd (Order.mem_sortOn.mp hx)
  · refine Iff.trans (forall_congr' fun s => imp_congr_left Order.mem_sortOn) ?_
    exact Context.covers_sources_iff hlines hupright

/-! A function inside the value that a variable is declared with. It returns the variable. -/

def initSource : SourceFile where
  path := "a.ts"
  content := "const x = init(() => \x7b\n  function g() \x7b return x; \x7d\n\x7d);"
  tree :=
    let inLine (kind text : String) (start stop : Nat) (fields : List String)
        (children : List Node) : Node :=
      .mk { kind, text, start, stop, line := 2, endLine := 2, fields } children
    let function : Node :=
      inLine "function_declaration" "function g() \x7b return x; \x7d" 25 51 []
        [inLine "identifier" "g" 34 35 ["name"] [],
          inLine "formal_parameters" "()" 35 37 ["parameters"] [],
          inLine "statement_block" "\x7b return x; \x7d" 38 51 ["body"]
            [inLine "return_statement" "return x;" 40 49 [] [inLine "identifier" "x" 47 48 [] []]]]
    let value : Node :=
      .mk { kind := "call_expression",
            text := "init(() => \x7b\n  function g() \x7b return x; \x7d\n\x7d)", start := 10
            stop := 54, endLine := 3, fields := ["value"] }
        [.mk { kind := "identifier", text := "init", start := 10, stop := 14,
               fields := ["function"] } [],
          .mk { kind := "arguments", start := 14, stop := 54, endLine := 3,
                fields := ["arguments"] }
            [.mk { kind := "arrow_function", start := 15, stop := 53, endLine := 3 }
              [.mk { kind := "formal_parameters", text := "()", start := 15, stop := 17,
                     fields := ["parameters"] } [],
                .mk { kind := "statement_block", start := 21, stop := 53, endLine := 3,
                      fields := ["body"] }
                  [function]]]]
    .mk { kind := "program", stop := 55, endLine := 3 }
      [.mk { kind := "lexical_declaration", stop := 55, endLine := 3 }
        [.mk { kind := "variable_declarator", start := 6, stop := 54, endLine := 3 }
          [.mk { kind := "identifier", text := "x", start := 6, stop := 7, fields := ["name"] } [],
            value]]]

def initFunction : Declaration where
  id := "a.ts:g"
  name := "g"
  kind := .function
  exported := false
  signature := "()"
  span := ⟨2, 2⟩
  filePath := "a.ts"

def initFile : FileAnalysis := { filePath := "a.ts", declarations := [initFunction] }

def initGraph : CallGraph := CallGraph.assemble [initFile]

def initQuery : Query := ⟨"x", some 2, .both⟩

def initTrace : Trace where
  file := "a.ts"
  identifier := "x"
  scopeId := some "a.ts:g"
  sources := [{ kind := .computed, line := 1, detail := "init(() => \x7b" }]
  destinations :=
    [{ kind := .returned, line := 2, detail := "return x;", declarationId := some "a.ts:g" }]
  truncated := false

theorem analyze_initSource : initSource.analyze {} [] = .ok initFile := by decide

theorem nodes_initGraph : initGraph.nodes = [initFunction] := by
  have hbuild : Registry.build [initFile] = ⟨[initFile]⟩ :=
    congrArg Registry.mk (List.mergeSort_singleton _)
  rw [initGraph, CallGraph.nodes_assemble, hbuild]
  decide

theorem trace_initSource : trace initGraph initSource initQuery {} {} = .ok initTrace := by
  have hcontext : Context.of initGraph initSource initQuery {}
      = ⟨initGraph, {}, [initFunction], initQuery⟩ :=
    Context.of_callable nodes_initGraph (by decide)
  exact trace_of_one_each (by decide) hcontext (by decide) (by decide) (by decide)

theorem node?_initGraph : initGraph.node? "a.ts:g" = some initFunction := by
  rw [CallGraph.node?, nodes_initGraph]
  decide

/-- The trace has a source outside the function, so some node that sticks out of the function and is
in sight gives one: it is the declarator of the variable. -/
theorem trace_in_scope_iff_initializer :
    initSource.tree.linesNested = true ∧ initSource.tree.everywhere Node.upright = true ∧
      trace (CallGraph.assemble [initFile]) initSource initQuery {} {} = .ok initTrace ∧
      initTrace.scopeId = some "a.ts:g" ∧
      (∀ x ∈ initTrace.destinations, initFunction.span.covers x.line = true) ∧
      let ctx := Context.of (CallGraph.assemble [initFile]) initSource initQuery {}
      ∃ before c after, ctx.sight initSource.tree = before ++ c :: after ∧
        c.Straddles initFunction.span ∧
        ∃ s ∈ ctx.sourcesAt c, initFunction.span.covers s.line = false := by
  have hlines : initSource.tree.linesNested = true := by decide
  have hupright : initSource.tree.everywhere Node.upright = true := by decide
  obtain ⟨d, hd, hdestinations, hsources⟩ :=
    trace_in_scope_iff [initFile] initSource initQuery {}
      {} initTrace "a.ts:g" hlines hupright trace_initSource rfl
  obtain rfl : initFunction = d := Option.some.inj (node?_initGraph.symm.trans hd)
  refine ⟨hlines, hupright, trace_initSource, rfl, hdestinations, ?_⟩
  by_contra hnone
  -- otherwise all sources were inside, and the one on the first line is not
  refine absurd (hsources.mpr fun _ before c after hsplit _ hout s hs => ?_) (by decide)
  by_contra hcovers
  exact hnone ⟨before, c, after, hsplit, hout, s, hs, Bool.not_eq_true _ ▸ hcovers⟩

/-- **A trace that leaves its declaration.** The graph is that of the file. On the second line there
is only `g`, and the trace is restricted to it, but it has a source on the first line. -/
theorem initializer_leaves_scope :
    initSource.analyze {} [] = .ok initFile ∧
      trace (CallGraph.assemble [initFile]) initSource initQuery {} {} = .ok initTrace ∧
      initTrace.scopeId = some "a.ts:g" ∧
      (CallGraph.assemble [initFile]).node? "a.ts:g" = some initFunction ∧
      ∃ s ∈ initTrace.sources, initFunction.span.covers s.line = false :=
  ⟨analyze_initSource, trace_initSource, rfl, node?_initGraph, by decide⟩

end DataFlow

end CallAtlas
