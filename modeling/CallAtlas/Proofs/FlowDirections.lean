import CallAtlas.Proofs.FlowOutcome
import CallAtlas.Proofs.RegistryClosed

/-!
# Proofs.FlowDirections — a trace in both directions is the two traces in one direction

Sources and destinations are looked for in one walk, and they share the limit on findings. But no
source depends on the destinations found before it, nor the other way round. As long as nothing is
cut off, a walk that looks for one of the two finds what the walk that looks for both finds of it.

* `Findings.only` — the findings that a direction asks for.
* `Findings.visit_only` — one visit keeps the two walks in step, and so does the whole walk
  (`Findings.collect_only`): with fewer findings the limit is not reached either.
* `Trace.Orderly` — how the findings of a trace are listed, whatever was cut off;
  `orderly_of_trace`.
* `trace_both_splits` — the traces in one direction, read off the trace in both.
-/

namespace CallAtlas.DataFlow

open CallAtlas.Tree

/-! ## Walks in step -/

/-- The same trace in another direction. -/
def Context.turned (ctx : Context) (direction : Direction) : Context :=
  { ctx with query := { ctx.query with direction } }

namespace Findings

variable {ctx : Context} {limit : Nat}

/-- The findings that a direction asks for. -/
def only (direction : Direction) (f : Findings) : Findings :=
  { f with
    sources := if direction.wantsSources then f.sources else []
    destinations := if direction.wantsDestinations then f.destinations else [] }

/-- Asking for one direction counts no more findings. -/
theorem count_only_le (direction : Direction) (f : Findings) :
    (f.only direction).count ≤ f.count := by
  cases direction with
  | backward => exact Nat.add_le_add_left (Nat.zero_le _) _
  | forward => exact Nat.add_le_add_right (Nat.zero_le _) _
  | both => exact Nat.le_refl _

/-- Whether a source is new depends on the sources alone. -/
theorem only_addSource (direction : Direction) (f : Findings) (s : Source) :
    (f.addSource s).only direction
      = if direction.wantsSources then (f.only direction).addSource s else f.only direction := by
  cases direction with
  | backward => exact apply_ite (only .backward) _ _ _
  | forward =>
    rw [addSource]
    split
    · rfl
    · rfl
  | both => exact apply_ite (only .both) _ _ _

/-- Whether a destination is new depends on the destinations alone. -/
theorem only_addDestination (direction : Direction) (f : Findings) (d : Destination) :
    (f.addDestination d).only direction
      = if direction.wantsDestinations then (f.only direction).addDestination d
        else f.only direction := by
  cases direction with
  | backward =>
    rw [addDestination]
    split
    · rfl
    · rfl
  | forward => exact apply_ite (only .forward) _ _ _
  | both => exact apply_ite (only .both) _ _ _

/-- Adding sources commutes with keeping one direction. -/
theorem only_foldl_addSource (direction : Direction) (sources : List Source) (f : Findings) :
    (sources.foldl addSource f).only direction
      = if direction.wantsSources then sources.foldl addSource (f.only direction)
        else f.only direction := by
  induction sources generalizing f with
  | nil => exact (ite_self _).symm
  | cons s rest ih =>
    rw [List.foldl_cons, ih, only_addSource]
    split
    · rfl
    · rfl

/-- **A visit in one direction finds what a visit in both finds of it.** -/
theorem visit_only (hboth : ctx.query.direction = .both) (direction : Direction) (f : Findings)
    (c : Cursor) :
    (f.only direction).visit (ctx.turned direction) c = (f.visit ctx c).only direction := by
  have hsources : ctx.query.direction.wantsSources = true := by rw [hboth]; rfl
  have hdestinations : ctx.query.direction.wantsDestinations = true := by rw [hboth]; rfl
  -- but for the direction, both look at the same
  have hdirection : (ctx.turned direction).query.direction = direction := rfl
  have hidentifier : (ctx.turned direction).query.identifier = ctx.query.identifier := rfl
  have hsourcesAt : (ctx.turned direction).sourcesAt c = ctx.sourcesAt c := rfl
  have hdestinationOf : (ctx.turned direction).destinationOf? c = ctx.destinationOf? c := rfl
  rw [visit, visit, hdirection, hidentifier, hsourcesAt, hdestinationOf, hsources, hdestinations]
  split
  · -- an occurrence
    dsimp only
    cases isBindingSite c with
    | true =>
      rw [Bool.not_true, Bool.and_false, Bool.and_false]
      rfl
    | false =>
      rw [Bool.not_false, Bool.and_true, Bool.and_true, if_pos rfl]
      cases ctx.destinationOf? c with
      | none => exact ite_self _
      | some d => exact (only_addDestination direction { f with met := true } d).symm
  · rw [if_pos rfl, only_foldl_addSource]

/-- **A walk in one direction finds what a walk in both that is not cut off finds of it.** Induction
on the visits. -/
theorem collect_only (hboth : ctx.query.direction = .both) (direction : Direction)
    (visits : List Visit) (f : Findings) (hwhole : (collect ctx limit visits f).truncated = false) :
    collect (ctx.turned direction) limit visits (f.only direction)
      = (collect ctx limit visits f).only direction := by
  induction visits generalizing f with
  | nil => rfl
  | cons visit visits ih =>
    cases visit with
    | tooDeep => exact ih { f with truncated := true } hwhole
    | node c =>
      rw [collect] at hwhole
      rw [collect, collect]
      split at hwhole
      · -- at the limit the walk in both directions is cut off
        cases hwhole
      · next hroom =>
        have hless := count_only_le direction f
        rw [if_neg hroom, if_neg (by omega), visit_only hboth]
        exact ih (f.visit ctx c) hwhole

end Findings

/-! ## How findings are listed -/

/-- The innermost callable around a line is one of the callables, and around the line. -/
theorem mem_of_innermost? {callables : List Declaration} {line : Nat} {d : Declaration}
    (h : innermost? callables line = some d) : d ∈ callables ∧ d.span.covers line = true := by
  rw [innermost?] at h
  dsimp only at h
  split at h
  · cases h
  · next first rest hfilter =>
    have hmem : d ∈ callables.filter (·.span.covers line) := by
      rw [hfilter, ← Option.some.inj h]
      -- whichever of two is further inside, it is one of them
      refine Registry.foldl_choose_mem (fun a b => ?_) first rest
      split
      · exact .inr rfl
      · exact .inl rfl
    exact List.mem_filter.mp hmem

/-- The id of the innermost callable around a line. -/
def Context.placeOf (ctx : Context) (line : Nat) : Option String := (ctx.innermost? line).map (·.id)

/-- Every finding is placed in the innermost callable around its line. -/
structure Findings.Placed (ctx : Context) (f : Findings) : Prop where
  sources : ∀ s ∈ f.sources, s.declarationId = ctx.placeOf s.line
  destinations : ∀ d ∈ f.destinations, d.declarationId = ctx.placeOf d.line

namespace Context

variable (ctx : Context)

theorem exists_of_mem_if_toList {p : Bool} {o : Option Cursor} {give : Cursor → Source} {s : Source}
    (h : s ∈ if p then (o.map give).toList else []) : ∃ v, o = some v ∧ s = give v := by
  cases p with
  | false => cases h
  | true =>
    obtain ⟨v, hv, rfl⟩ := Option.map_eq_some_iff.mp (Option.mem_toList.mp h)
    exact ⟨v, hv, rfl⟩

/-- **Where a source comes from.** It is the value of a declaration or assignment, or a
parameter. -/
theorem child_of_mem_sourcesAt {c : Cursor} {s : Source} (h : s ∈ ctx.sourcesAt c) :
    ∃ v ∈ c.children, (∃ forced, s = ctx.sourceOf v forced) ∨ s = ctx.parameterOf v := by
  unfold sourcesAt at h
  dsimp only at h
  split at h
  · obtain ⟨v, hv, rfl⟩ := exists_of_mem_if_toList h
    exact ⟨v, Cursor.mem_children_of_field? hv, .inl ⟨none, rfl⟩⟩
  · obtain ⟨v, hv, rfl⟩ := exists_of_mem_if_toList h
    exact ⟨v, Cursor.mem_children_of_field? hv, .inl ⟨none, rfl⟩⟩
  · obtain ⟨v, hv, rfl⟩ := exists_of_mem_if_toList h
    exact ⟨v, Cursor.mem_children_of_field? hv, .inl ⟨some .computed, rfl⟩⟩
  · obtain ⟨v, hv, rfl⟩ := List.mem_map.mp h
    exact ⟨v, Cursor.mem_children_of_mem_namedChildren (List.mem_filter.mp hv).1, .inr rfl⟩
  · obtain ⟨v, hv, rfl⟩ := List.mem_map.mp h
    have hfield := (Option.filter_eq_some_iff.mp (Option.mem_toList.mp hv)).1
    exact ⟨v, Cursor.mem_children_of_field? hfield, .inr rfl⟩
  · cases h

/-- A source is attributed to the function around its line. -/
theorem placed_of_mem_sourcesAt {c : Cursor} {s : Source} (h : s ∈ ctx.sourcesAt c) :
    s.declarationId = ctx.placeOf s.line := by
  obtain ⟨v, -, ⟨forced, rfl⟩ | rfl⟩ := ctx.child_of_mem_sourcesAt h
  · rfl
  · rfl

theorem placed_of_destinationOf? {c : Cursor} {d : Destination}
    (h : ctx.destinationOf? c = some d) : d.declarationId = ctx.placeOf d.line := by
  obtain ⟨sink, -, hd⟩ := Option.bind_eq_some_iff.mp h
  obtain rfl := Option.some.inj hd
  rfl

end Context

namespace Findings.Placed

variable {ctx : Context} {f : Findings}

/-- Findings stay attributed when an attributed source is added. -/
theorem addSource (h : f.Placed ctx) {s : Source} (hs : s.declarationId = ctx.placeOf s.line) :
    (f.addSource s).Placed ctx := by
  rw [Findings.addSource]
  split
  · exact h
  · refine ⟨fun x hx => ?_, h.destinations⟩
    rcases List.mem_append.mp hx with hx | hx
    · exact h.sources x hx
    · exact List.mem_singleton.mp hx ▸ hs

theorem addDestination (h : f.Placed ctx) {d : Destination}
    (hd : d.declarationId = ctx.placeOf d.line) : (f.addDestination d).Placed ctx := by
  rw [Findings.addDestination]
  split
  · exact h
  · refine ⟨h.sources, fun x hx => ?_⟩
    rcases List.mem_append.mp hx with hx | hx
    · exact h.destinations x hx
    · exact List.mem_singleton.mp hx ▸ hd

theorem foldl_addSource {sources : List Source} (h : f.Placed ctx)
    (hsources : ∀ s ∈ sources, s.declarationId = ctx.placeOf s.line) :
    (sources.foldl Findings.addSource f).Placed ctx := by
  induction sources generalizing f with
  | nil => exact h
  | cons s rest ih =>
    exact ih (h.addSource (hsources s List.mem_cons_self)) fun x hx =>
      hsources x (List.mem_cons_of_mem s hx)

/-- A visit adds attributed findings only. -/
theorem visit (h : f.Placed ctx) (c : Cursor) : (f.visit ctx c).Placed ctx := by
  have hmet : Findings.Placed ctx { f with met := true } := ⟨h.sources, h.destinations⟩
  rw [Findings.visit]
  -- an occurrence of the identifier may be a destination, any other node a source
  split
  · dsimp only
    split
    · cases hd : ctx.destinationOf? c with
      | none => exact hmet
      | some d => exact hmet.addDestination (ctx.placed_of_destinationOf? hd)
    · exact hmet
  · split
    · exact h.foldl_addSource fun s hs => ctx.placed_of_mem_sourcesAt hs
    · exact h

/-- Collecting keeps every finding attributed, whether or not the limit stops it. -/
theorem collect {limit : Nat} (visits : List Visit) (h : f.Placed ctx) :
    (Findings.collect ctx limit visits f).Placed ctx := by
  induction visits generalizing f with
  | nil => exact h
  | cons visit visits ih =>
    cases visit with
    | tooDeep => exact ih ⟨h.sources, h.destinations⟩
    | node c =>
      rw [Findings.collect]
      split
      · exact ⟨h.sources, h.destinations⟩
      · exact ih (h.visit c)

end Findings.Placed

/-! ## The answers -/

/-- The id is that of a callable of the file around the line. -/
def IsCallableAround (g : CallGraph) (path : String) (line : Nat) (id : String) : Prop :=
  ∃ d ∈ g.declarations, d.id = id ∧ d.filePath = path ∧ d.kind.isCallable = true ∧
    d.span.covers line = true

/-- Findings by line, with one of a kind on a line, each placed in a callable of the file around
it. -/
structure Trace.Orderly (g : CallGraph) (path : String) (t : Trace) : Prop where
  sources_by_line : t.sources.Pairwise fun a b => a.line ≤ b.line
  destinations_by_line : t.destinations.Pairwise fun a b => a.line ≤ b.line
  sources_once : (t.sources.map fun s => (s.kind, s.line)).Nodup
  destinations_once : (t.destinations.map fun d => (d.kind, d.line)).Nodup
  sources_placed : ∀ s ∈ t.sources, ∀ id, s.declarationId = some id →
    IsCallableAround g path s.line id
  destinations_placed : ∀ d ∈ t.destinations, ∀ id, d.declarationId = some id →
    IsCallableAround g path d.line id

section

variable {g : CallGraph} {file : SourceFile} {query : Query} {extraction : ExtractionSettings}
variable {settings : DataFlowSettings} {t : Trace}

/-- The attributed function is a callable of the file whose span has the line. -/
theorem isCallableAround_of_placeOf {line : Nat} {id : String}
    (h : (Context.of g file query extraction).placeOf line = some id) :
    IsCallableAround g (Path.normalize file.path) line id := by
  obtain ⟨d, hd, rfl⟩ := Option.map_eq_some_iff.mp h
  obtain ⟨hmem, hcovers⟩ := mem_of_innermost? hd
  obtain ⟨hdeclared, hcallable⟩ := List.mem_filter.mp hmem
  obtain ⟨hpath, hkind⟩ := Bool.and_eq_true_iff.mp hcallable
  exact ⟨d, hdeclared, rfl, of_decide_eq_true hpath, hkind, hcovers⟩

theorem pairwise_line_sortOn {α : Type} (line : α → Nat) (xs : List α) :
    (Order.sortOn Order.count line xs).Pairwise fun a b => line a ≤ line b :=
  (Order.pairwise_sortOn Order.count_total line xs).imp of_decide_eq_true

/-- Sorting by line keeps the keys apart. -/
theorem once_sortOn {α κ β : Type} {key : α → κ} {wrap : κ → β} {xs : List α} (line : α → Nat)
    (h : (xs.map fun x => wrap (key x)).Nodup) :
    ((Order.sortOn Order.count line xs).map key).Nodup := by
  have hkeys : (xs.map key).Nodup := List.Nodup.of_map wrap (by rwa [List.map_map])
  exact ((Order.perm_sortOn Order.count line xs).map key).nodup_iff.mpr hkeys

/-- **How every trace is listed**, also one that was cut off. -/
theorem orderly_of_trace (htrace : trace g file query extraction settings = .ok t) :
    t.Orderly g (Path.normalize file.path) := by
  obtain ⟨-, -, rfl⟩ := of_trace htrace
  let ctx := Context.of g file query extraction
  obtain ⟨taken, -, -, hcollecting, -⟩ := ctx.exists_taken settings.maxFindings file.tree
  obtain ⟨hsources, hdestinations, -⟩ := List.nodup_append.mp hcollecting.nodup
  have hplaced : (ctx.found settings.maxFindings file.tree).Placed ctx :=
    Findings.Placed.collect (ctx.walk file.tree) ⟨List.forall_mem_nil _, List.forall_mem_nil _⟩
  exact {
    sources_by_line := pairwise_line_sortOn _ _
    destinations_by_line := pairwise_line_sortOn _ _
    sources_once := once_sortOn _ hsources
    destinations_once := once_sortOn _ hdestinations
    sources_placed := fun s hs id hid =>
      isCallableAround_of_placeOf ((hplaced.sources s (Order.mem_sortOn.mp hs)).symm.trans hid)
    destinations_placed := fun d hd id hid =>
      isCallableAround_of_placeOf ((hplaced.destinations d (Order.mem_sortOn.mp hd)).symm.trans hid)
        }

theorem sortOn_if {α : Type} (line : α → Nat) (wanted : Bool) (xs : List α) :
    Order.sortOn Order.count line (if wanted then xs else [])
      = if wanted then Order.sortOn Order.count line xs else [] := by
  cases wanted with
  | false => exact List.mergeSort_nil
  | true => rfl

/-- **A trace in one direction is part of the trace in both directions.** -/
theorem trace_turned (hboth : query.direction = .both)
    (htrace : trace g file query extraction settings = .ok t) (hwhole : t.truncated = false)
    (direction : Direction) :
    trace g file { query with direction } extraction settings =
      .ok { t with
        sources := if direction.wantsSources then t.sources else []
        destinations := if direction.wantsDestinations then t.destinations else [] } := by
  obtain ⟨hlanguage, hmet, rfl⟩ := of_trace htrace
  let ctx := Context.of g file query extraction
  -- the visits do not depend on the direction, so both walks run over the same ones
  have hfound : (ctx.turned direction).found settings.maxFindings file.tree
      = (ctx.found settings.maxFindings file.tree).only direction := by
    have hempty : Findings.only direction {} = {} := by cases direction <;> rfl
    have hcollect := Findings.collect_only hboth direction (ctx.walk file.tree) {} hwhole
    rwa [hempty] at hcollect
  have hturned := trace_eq g { query with direction } extraction settings hlanguage
  have hcontext : Context.of g file { query with direction } extraction = ctx.turned direction :=
    rfl
  dsimp only at hturned
  rw [hcontext, hfound] at hturned
  rw [hturned, ← sortOn_if, ← sortOn_if]
  exact if_pos hmet

/-- **A trace in both directions is the two traces in one direction.** For every graph, file,
variable, line and settings: if the trace in both directions is not cut off, then neither are the
others. The one backwards has the same sources and no destinations, the one forwards has the same
destinations and no sources, and nothing else is different. And whatever the direction, sources and
destinations are listed by line, one of a kind on a line, each of them placed in a callable of the
file around its line or in none. -/
theorem trace_both_splits (g : CallGraph) (file : SourceFile) (identifier : String)
    (line : Option Nat) (extraction : ExtractionSettings) (settings : DataFlowSettings) (t : Trace)
    (hboth : trace g file ⟨identifier, line, .both⟩ extraction settings = .ok t)
    (hwhole : t.truncated = false) :
    trace g file ⟨identifier, line, .backward⟩ extraction settings
      = .ok { t with destinations := [] } ∧
      trace g file ⟨identifier, line, .forward⟩ extraction settings = .ok { t with sources := [] } ∧
      ∀ direction u, trace g file ⟨identifier, line, direction⟩ extraction settings = .ok u →
        u.Orderly g (Path.normalize file.path) :=
  ⟨trace_turned rfl hboth hwhole .backward, trace_turned rfl hboth hwhole .forward,
    fun _ _ htrace => orderly_of_trace htrace⟩

end

/-! ### A graph of one callable -/

section

variable {g : CallGraph} {file : SourceFile} {query : Query} {extraction : ExtractionSettings}
  {d : Declaration}

/-- With one function in the graph, the context of its file has that function. -/
theorem Context.of_callable (hnodes : g.nodes = [d])
    (hcallable : (d.filePath = Path.normalize file.path && d.kind.isCallable) = true) :
    Context.of g file query extraction = ⟨g, extraction, [d], query⟩ := by
  have hdeclarations : g.declarations = [d] := by
    rw [CallGraph.declarations, hnodes]
    exact List.mergeSort_singleton d
  simp only [Context.of, hdeclarations, List.filter_cons, hcallable, if_true, List.filter_nil]

/-- One source and one destination are in order. -/
theorem trace_of_one_each {ctx : Context} {settings : DataFlowSettings} {s : Source}
    {x : Destination}
    (hlanguage : (SourceLanguage.ofPath? (Path.normalize file.path)).isSome = true)
    (hcontext : Context.of g file query extraction = ctx)
    (hmet : (ctx.found settings.maxFindings file.tree).met = true)
    (hsource : (ctx.found settings.maxFindings file.tree).sources = [s])
    (hdestination : (ctx.found settings.maxFindings file.tree).destinations = [x]) :
    trace g file query extraction settings =
      .ok
        { file := Path.normalize file.path
          identifier := query.identifier
          scopeId := ctx.scope?.map (·.id)
          sources := [s]
          destinations := [x]
          truncated := (ctx.found settings.maxFindings file.tree).truncated } := by
  have htrace := trace_eq g query extraction settings hlanguage
  dsimp only at htrace
  -- lists of one finding are sorted
  have hsource' : Order.sortOn Order.count (·.line) [s] = [s] := List.mergeSort_singleton s
  have hdestination' : Order.sortOn Order.count (·.line) [x] = [x] := List.mergeSort_singleton x
  rw [hcontext, if_pos hmet, hsource, hdestination, hsource', hdestination'] at htrace
  exact htrace

end

/-! A function that returns a constant by the way of a variable. -/

def constantFile : SourceFile where
  path := "a.ts"
  content := "function f() \x7b\n  const x = 1;\n  return x;\n\x7d"
  tree :=
    let name (text : String) (start line : Nat) (fields : List String) : Node :=
      .mk { kind := "identifier", text, start, stop := start + 1, line, endLine := line, fields } []
    .mk { kind := "program", stop := 43, endLine := 4 }
      [.mk { kind := "function_declaration", stop := 43, endLine := 4 }
        [name "f" 9 1 ["name"],
          .mk { kind := "formal_parameters", text := "()", start := 10, stop := 12,
                fields := ["parameters"] } [],
          .mk { kind := "statement_block", start := 13, stop := 43, endLine := 4,
                fields := ["body"] }
            [.mk { kind := "lexical_declaration", text := "const x = 1;", start := 17,
                   stop := 29, line := 2
                   endLine := 2 }
              [.mk { kind := "variable_declarator", text := "x = 1", start := 23, stop := 28,
                     line := 2, endLine := 2 }
                [name "x" 23 2 ["name"],
                  .mk { kind := "number", text := "1", start := 27, stop := 28,
                        line := 2, endLine := 2, fields := ["value"] } []]],
              .mk { kind := "return_statement", text := "return x;", start := 32, stop := 41,
                    line := 3, endLine := 3 }
                [name "x" 39 3 []]]]]

def constantFunction : Declaration where
  id := "a.ts:f"
  name := "f"
  kind := .function
  exported := false
  signature := "()"
  span := ⟨1, 4⟩
  filePath := "a.ts"

def constantGraph : CallGraph where
  nodes := [constantFunction]

def constantContext : Context := ⟨constantGraph, {}, [constantFunction], ⟨"x", none, .both⟩⟩

def constantTrace : Trace where
  file := "a.ts"
  identifier := "x"
  sources := [{ kind := .constant, line := 2, detail := "1", declarationId := some "a.ts:f" }]
  destinations :=
    [{ kind := .returned, line := 3, detail := "return x;", declarationId := some "a.ts:f" }]
  truncated := false

theorem trace_constantFile :
    trace constantGraph constantFile ⟨"x", none, .both⟩ {} ⟨2⟩ = .ok constantTrace := by
  have hcontext : Context.of constantGraph constantFile ⟨"x", none, .both⟩ {} = constantContext :=
    Context.of_callable rfl (by decide)
  exact trace_of_one_each (by decide) hcontext (by decide) (by decide) (by decide)

/-- The constant and the value that is returned, in one trace and in two. -/
theorem trace_both_splits_constant :
    trace constantGraph constantFile ⟨"x", none, .both⟩ {} ⟨2⟩ = .ok constantTrace ∧
      constantTrace.truncated = false ∧
      trace constantGraph constantFile ⟨"x", none, .backward⟩ {} ⟨2⟩
        = .ok { constantTrace with destinations := [] } ∧
      trace constantGraph constantFile ⟨"x", none, .forward⟩ {} ⟨2⟩
        = .ok { constantTrace with sources := [] } ∧
      constantTrace.Orderly constantGraph "a.ts" := by
  obtain ⟨hbackward, hforward, horderly⟩ :=
    trace_both_splits constantGraph constantFile "x" none {}
      ⟨2⟩ constantTrace trace_constantFile rfl
  exact ⟨trace_constantFile, rfl, hbackward, hforward,
    horderly .both constantTrace trace_constantFile⟩

end CallAtlas.DataFlow
