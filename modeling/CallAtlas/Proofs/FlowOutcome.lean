import CallAtlas.Proofs.FlowFindings
import CallAtlas.Proofs.Sorting

/-!
# Proofs.FlowOutcome — what the limit on findings does to the answer of a trace

A trace that meets no occurrence of its variable answers that there is none. But a declaration comes
before the name in it, and gives its finding at once, so that the limit can be reached with an
occurrence still ahead. And the limit is looked at between two visits only, so that a visit with
several findings can go past it.

* `Context.lead` — the nodes in front of the first occurrence.
* `Context.met_found_iff`, `Context.truncated_found_iff`, `Context.count_found_le_iff` — the three
  things that the answer shows of the walk, each said by the findings that nodes give.
* `trace_notFound_iff` — when the answer is that there is no occurrence, and how it is flagged
  otherwise; `declared_variable_not_found` — a variable that is declared and not found.
* `trace_findings_le_iff` — when the limit holds; `parameters_pass_limit` — two findings where there
  may be one.
-/

namespace CallAtlas.DataFlow

open CallAtlas.Tree

namespace Context

variable {ctx : Context} {limit : Nat} {root : Node}

/-- What the walk of a trace finds. -/
def found (ctx : Context) (limit : Nat) (root : Node) : Findings :=
  Findings.collect ctx limit (ctx.walk root) {}

/-- The nodes in front of the first occurrence. -/
def lead (ctx : Context) (root : Node) : List Cursor :=
  (ctx.sight root).takeWhile fun c => !isOccurrence ctx.query.identifier c.node

/-- The nodes in sight are those that were visited and those that were not, and of the latter there
are none unless the limit is reached. -/
theorem exists_taken (ctx : Context) (limit : Nat) (root : Node) :
    ∃ taken rest, ctx.sight root = taken ++ rest ∧
      Collecting ctx limit taken (ctx.found limit root) ∧
      (rest ≠ [] → limit ≤ ctx.tally taken) ∧
      ((ctx.found limit root).truncated = true ↔ rest ≠ [] ∨ ctx.TooDeep root) := by
  obtain ⟨taken, rest, hsplit, hcollecting, hfull, htruncated⟩ :=
    collect_collecting (ctx.walk root) (Collecting.initial ctx limit)
  refine ⟨taken, rest, hsplit.symm, hcollecting, hfull, ?_⟩
  rw [found, htruncated, tooDeep_iff]
  simp

/-! ## Occurrences -/

/-- **An occurrence is met exactly if there is one in sight and the limit is not reached in front of
the first.** -/
theorem met_found_iff :
    (ctx.found limit root).met = true ↔
      (∃ c ∈ ctx.sight root, isOccurrence ctx.query.identifier c.node = true) ∧
        ctx.tally (ctx.lead root) < limit := by
  obtain ⟨taken, rest, hsight, hcollecting, hfull, -⟩ := exists_taken ctx limit root
  rw [hcollecting.met]
  constructor
  · rintro ⟨c, hc, hoccurs⟩
    refine ⟨⟨c, by rw [hsight]; exact List.mem_append_left _ hc, hoccurs⟩, ?_⟩
    obtain ⟨before, after, rfl⟩ := List.append_of_mem hc
    -- the first occurrence is this one or in front of it
    have hlead : ctx.lead root <+: before := by
      rw [lead, hsight, List.append_assoc, List.cons_append, List.takeWhile_append,
        List.takeWhile_cons_of_neg (by simp [hoccurs])]
      split
      · exact ⟨[], by simp⟩
      · exact List.takeWhile_prefix _
    exact Nat.lt_of_le_of_lt (tally_mono hlead) (hcollecting.room_of_split rfl)
  · rintro ⟨⟨c, hc, hoccurs⟩, hroom⟩
    by_contra hnone
    have hpass : ∀ x ∈ taken, (!isOccurrence ctx.query.identifier x.node) = true := by
      intro x hx
      by_contra hx'
      exact hnone ⟨x, hx, by simpa using hx'⟩
    have hlead : taken <+: ctx.lead root := by
      rw [lead, hsight, List.takeWhile_append_of_pos hpass]
      exact List.prefix_append _ _
    have hrest : rest ≠ [] := by
      rintro rfl
      rw [hsight, List.append_nil] at hc
      exact hnone ⟨c, hc, hoccurs⟩
    exact Nat.not_lt.mpr ((hfull hrest).trans (tally_mono hlead)) hroom

/-- **A walk that meets an occurrence is flagged exactly if the limit is reached in front of the
last node in sight, or the nesting limit is felt.** -/
theorem truncated_found_iff (hmet : (ctx.found limit root).met = true) :
    (ctx.found limit root).truncated = true ↔
      limit ≤ ctx.tally (ctx.sight root).dropLast ∨ ctx.TooDeep root := by
  obtain ⟨taken, rest, hsight, hcollecting, hfull, htruncated⟩ := exists_taken ctx limit root
  rw [htruncated, hsight]
  refine or_congr_left ⟨fun hrest => ?_, fun hreached => ?_⟩
  · rw [List.dropLast_append_of_ne_nil hrest]
    exact (hfull hrest).trans (tally_mono (List.prefix_append _ _))
  · rintro rfl
    -- the last node was visited, so there was room in front of it
    obtain ⟨c, hc, -⟩ := hcollecting.met.mp hmet
    have hpos : 0 < taken.length := List.length_pos_of_mem hc
    rw [List.append_nil, List.dropLast_eq_take] at hreached
    exact Nat.not_lt.mpr hreached (hcollecting.room _ (by omega))

/-! ## The number of findings -/

/-- The walk comes past every node in front of which there is room. -/
theorem concat_prefix_taken {taken rest before after : List Cursor} {c : Cursor}
    (hfull : rest ≠ [] → limit ≤ ctx.tally taken) (hsplit : taken ++ rest = before ++ c :: after)
    (hroom : ctx.tally before < limit) : before ++ [c] <+: taken := by
  have htaken : taken <+: before ++ c :: after := ⟨rest, hsplit⟩
  have hbefore : before ++ [c] <+: before ++ c :: after := ⟨after, by simp⟩
  rcases List.prefix_or_prefix_of_prefix htaken hbefore with hshort | hlong
  · rcases List.prefix_concat_iff.mp hshort with rfl | hshort
    · exact ⟨[], by simp⟩
    · -- else it would have stopped before, with fewer findings
      have hrest : rest ≠ [] := by
        rintro rfl
        have hlength := congrArg List.length hsplit
        have hle := hshort.length_le
        simp only [List.append_nil, List.length_append, List.length_cons] at hlength
        omega
      exact absurd hroom (Nat.not_lt.mpr ((hfull hrest).trans (tally_mono hshort)))
  · exact hlong

/-- **The limit holds exactly if no list of parameters goes past it.** -/
theorem count_found_le_iff :
    (ctx.found limit root).count ≤ limit ↔
      ∀ before params after, ctx.sight root = before ++ params :: after →
        params.kind = "formal_parameters" →
        ctx.tally before < limit → ctx.tally (before ++ [params]) ≤ limit := by
  obtain ⟨taken, rest, hsight, hcollecting, hfull, -⟩ := exists_taken ctx limit root
  rw [hcollecting.count_eq]
  constructor
  · intro hcount before params after hsplit _ hroom
    have htaken := concat_prefix_taken hfull (hsight.symm.trans hsplit) hroom
    exact (tally_mono htaken).trans hcount
  · intro hparams
    rcases hcollecting.tally_le_or_params with hle | ⟨before, params, rfl, hkind, hroom, -⟩
    · exact hle
    · exact hparams before params rest (by simp [hsight]) hkind hroom

/-- The findings in excess of the limit are fewer than the binders of one list of parameters. -/
theorem count_found_le_or_lt :
    (ctx.found limit root).count ≤ limit ∨
      ∃ params ∈ ctx.sight root, params.kind = "formal_parameters" ∧
        (ctx.found limit root).count < limit + (ctx.binders params).length := by
  obtain ⟨taken, rest, hsight, hcollecting, -, -⟩ := exists_taken ctx limit root
  rw [hcollecting.count_eq]
  rcases hcollecting.tally_le_or_params with hle | ⟨before, params, rfl, hkind, -, hlt⟩
  · exact .inl hle
  · exact .inr ⟨params, by simp [hsight], hkind, hlt⟩

end Context

/-! ## The answer -/

variable {g : CallGraph} {file : SourceFile} {query : Query} {extraction : ExtractionSettings}
variable {settings : DataFlowSettings}

/-- **What a trace answers**, by what its walk finds. -/
theorem trace_eq (g : CallGraph) (query : Query) (extraction : ExtractionSettings)
    (settings : DataFlowSettings)
    (hlanguage : (SourceLanguage.ofPath? (Path.normalize file.path)).isSome = true) :
    let ctx := Context.of g file query extraction
    let found := ctx.found settings.maxFindings file.tree
    trace g file query extraction settings =
      if found.met then
        .ok
          { file := Path.normalize file.path
            identifier := query.identifier
            scopeId := ctx.scope?.map (·.id)
            sources := Order.sortOn Order.count (·.line) found.sources
            destinations := Order.sortOn Order.count (·.line) found.destinations
            truncated := found.truncated }
      else .error (.notFound (query.identifier ++ " in " ++ Path.normalize file.path)) := by
  intro ctx found
  -- a supported language passes the first check
  have hsupported : ¬ (SourceLanguage.ofPath? (Path.normalize file.path)).isNone = true := by
    simpa using Option.isSome_iff_ne_none.mp hlanguage
  unfold trace
  dsimp only
  rw [if_neg hsupported]
  rfl

/-- A trace fails exactly when the identifier was not met. -/
theorem trace_eq_notFound_iff
    (hlanguage : (SourceLanguage.ofPath? (Path.normalize file.path)).isSome = true) :
    trace g file query extraction settings
        = .error (.notFound (query.identifier ++ " in " ++ Path.normalize file.path)) ↔
      ¬ ((Context.of g file query extraction).found settings.maxFindings file.tree).met = true := by
  rw [trace_eq g query extraction settings hlanguage]
  split
  · next hmet => exact iff_of_false (fun h => nomatch h) (not_not_intro hmet)
  · next hmet => exact iff_of_true rfl hmet

/-- What is known of a trace, given that there is one. -/
theorem of_trace {t : Trace} (htrace : trace g file query extraction settings = .ok t) :
    let ctx := Context.of g file query extraction
    let found := ctx.found settings.maxFindings file.tree
    (SourceLanguage.ofPath? (Path.normalize file.path)).isSome = true ∧ found.met = true ∧
      t = { file := Path.normalize file.path
            identifier := query.identifier
            scopeId := ctx.scope?.map (·.id)
            sources := Order.sortOn Order.count (·.line) found.sources
            destinations := Order.sortOn Order.count (·.line) found.destinations
            truncated := found.truncated } := by
  cases hlanguage : (SourceLanguage.ofPath? (Path.normalize file.path)).isSome with
  -- an unsupported language gives an error, not a trace
  | false =>
    have hunsupported : (SourceLanguage.ofPath? (Path.normalize file.path)).isNone = true := by
      simpa using hlanguage
    simp [trace, hunsupported] at htrace
  | true =>
    rw [trace_eq g query extraction settings hlanguage] at htrace
    split at htrace
    · next hmet => exact ⟨rfl, hmet, (Except.ok.inj htrace).symm⟩
    · cases htrace

/-- Only the order of the findings changes behind the walk. -/
theorem length_of_trace {t : Trace} (htrace : trace g file query extraction settings = .ok t) :
    t.sources.length + t.destinations.length
      = ((Context.of g file query extraction).found settings.maxFindings file.tree).count := by
  obtain ⟨-, -, rfl⟩ := of_trace htrace
  exact congrArg₂ (· + ·) (Order.perm_sortOn _ _ _).length_eq (Order.perm_sortOn _ _ _).length_eq

/-! ### Not found -/

/-- **Not found, or found and flagged.** For every file of a known language with a tree as parsers
make it, every graph, query and settings: the answer is that the variable is not found exactly if no
occurrence lies on the lines of the trace above the nesting limit, or the nodes in front of the
first one give as many findings as there may be. Otherwise there is a trace, and it is flagged
exactly if the nodes in front of the last one in sight give as many findings as there may be, or the
nesting limit is felt. -/
theorem trace_notFound_iff (g : CallGraph) (file : SourceFile) (query : Query)
    (extraction : ExtractionSettings) (settings : DataFlowSettings)
    (hlanguage : (SourceLanguage.ofPath? (Path.normalize file.path)).isSome = true)
    (hlines : file.tree.linesNested = true) (htokens : file.tree.everywhere Node.tokensBare = true)
    (hvariables : file.tree.everywhere variableNamed = true) :
    let ctx := Context.of g file query extraction
    let occurs := ∃ c, ctx.InSight file.tree c ∧ isOccurrence query.identifier c.node = true
    (trace g file query extraction settings
          = .error (.notFound (query.identifier ++ " in " ++ Path.normalize file.path)) ↔
        ¬ occurs ∨ settings.maxFindings ≤ ctx.tally (ctx.lead file.tree)) ∧
      (occurs → ctx.tally (ctx.lead file.tree) < settings.maxFindings →
        ∃ t, trace g file query extraction settings = .ok t ∧
          (t.truncated = true ↔
            settings.maxFindings ≤ ctx.tally (ctx.sight file.tree).dropLast ∨
              ctx.TooDeep file.tree)) := by
  intro ctx occurs
  -- the identifier is met iff it is in sight and the limit was not reached before it
  have hmet : (ctx.found settings.maxFindings file.tree).met = true ↔
      occurs ∧ ctx.tally (ctx.lead file.tree) < settings.maxFindings := by
    refine Context.met_found_iff.trans
      (and_congr_left' (exists_congr fun c => and_congr_left fun hoccurs => ?_))
    exact Context.mem_sight_iff hlines htokens hvariables (Bool.and_eq_true_iff.mp hoccurs).1
  constructor
  · rw [trace_eq_notFound_iff hlanguage, hmet, not_and_or, Nat.not_lt]
  · intro hoccurs hroom
    have hfound := hmet.mpr ⟨hoccurs, hroom⟩
    have htrace := (trace_eq g query extraction settings hlanguage).trans (if_pos hfound)
    exact ⟨_, htrace, Context.truncated_found_iff hfound⟩

/-! The declaration of a variable and nothing else. -/

def declarationFile : SourceFile where
  path := "a.ts"
  content := "const x = 1;"
  tree :=
    .mk { kind := "program", text := "const x = 1;", stop := 12 }
      [.mk { kind := "lexical_declaration", text := "const x = 1;", stop := 12 }
        [.mk { kind := "variable_declarator", text := "x = 1", start := 6, stop := 11 }
          [.mk { kind := "identifier", text := "x", start := 6, stop := 7, fields := ["name"] } [],
            .mk { kind := "number", text := "1", start := 10, stop := 11,
                  fields := ["value"] } []]]]

def declarationContext : Context := .of {} declarationFile { identifier := "x" } {}

theorem wellMade_declarationFile :
    declarationFile.tree.linesNested = true ∧
      declarationFile.tree.everywhere Node.tokensBare = true ∧
      declarationFile.tree.everywhere variableNamed = true := by decide

/-- The identifier of the sample is in sight. -/
theorem occurs_declarationFile :
    ∃ c, declarationContext.InSight declarationFile.tree c ∧ isOccurrence "x" c.node = true := by
  obtain ⟨hlines, htokens, hvariables⟩ := wellMade_declarationFile
  obtain ⟨c, hc, hoccurs⟩ : ∃ c ∈ declarationContext.sight declarationFile.tree,
      isOccurrence "x" c.node = true := by
    decide
  have hvariable : isVariable c.kind = true := (Bool.and_eq_true_iff.mp hoccurs).1
  exact ⟨c, (Context.mem_sight_iff hlines htokens hvariables hvariable).mp hc, hoccurs⟩

/-- The declaration gives its finding in front of the name in it. With room for two findings the
variable is found, and nothing is cut off. -/
theorem trace_notFound_iff_declaration :
    (SourceLanguage.ofPath? (Path.normalize declarationFile.path)).isSome = true ∧
      declarationFile.tree.linesNested = true ∧
        declarationFile.tree.everywhere Node.tokensBare = true ∧
      declarationFile.tree.everywhere variableNamed = true ∧
      declarationContext.tally (declarationContext.lead declarationFile.tree) = 1 ∧
      ∃ t, trace {} declarationFile { identifier := "x" } {} ⟨2⟩ = .ok t ∧ t.truncated = false := by
  have hlanguage : (SourceLanguage.ofPath? (Path.normalize declarationFile.path)).isSome
      = true := by decide
  obtain ⟨hlines, htokens, hvariables⟩ := wellMade_declarationFile
  obtain ⟨-, hfound⟩ :=
    trace_notFound_iff {} declarationFile { identifier := "x" } {} ⟨2⟩ hlanguage hlines htokens
    hvariables
  obtain ⟨t, ht, hflag⟩ := hfound occurs_declarationFile (by decide)
  refine ⟨hlanguage, hlines, htokens, hvariables,
    by decide, t, ht, Bool.eq_false_iff.mpr fun h => ?_⟩
  rcases hflag.mp h with hfull | hdeep
  · exact absurd hfull (by decide)
  · exact absurd hdeep (by unfold Context.TooDeep; decide)

/-- **A variable that is declared and not found.** With room for one finding, which the declaration
gives, the trace stops in front of the name. -/
theorem declared_variable_not_found :
    trace {} declarationFile { identifier := "x" } {} ⟨1⟩ = .error (.notFound "x in a.ts") ∧
      ∃ c, declarationContext.InSight declarationFile.tree c ∧ isOccurrence "x" c.node = true :=
  ⟨rfl, occurs_declarationFile⟩

/-! ### The limit on findings -/

/-- **The limit on findings holds unless a list of parameters goes past it.** For every trace: there
are no more findings than there may be exactly if no list of parameters in sight, with fewer
findings given in front of it, binds the variable on so many lines that with them there are more.
And what there is too much is less than the number of parameters of one list that bind the
variable. -/
theorem trace_findings_le_iff (g : CallGraph) (file : SourceFile) (query : Query)
    (extraction : ExtractionSettings) (settings : DataFlowSettings) (t : Trace)
    (htrace : trace g file query extraction settings = .ok t) :
    let ctx := Context.of g file query extraction
    let findings := t.sources.length + t.destinations.length
    (findings ≤ settings.maxFindings ↔
        ∀ before params after, ctx.sight file.tree = before ++ params :: after →
          params.kind = "formal_parameters" →
          ctx.tally before < settings.maxFindings →
            ctx.tally (before ++ [params]) ≤ settings.maxFindings) ∧
      (findings ≤ settings.maxFindings ∨
        ∃ params ∈ ctx.sight file.tree, params.kind = "formal_parameters" ∧
          findings < settings.maxFindings + (ctx.binders params).length) := by
  intro ctx findings
  have hfindings : findings = (ctx.found settings.maxFindings file.tree).count :=
    length_of_trace htrace
  rw [hfindings]
  exact ⟨Context.count_found_le_iff, Context.count_found_le_or_lt⟩

/-! A function whose two parameters have its own name, on two lines. -/

def parameterFile : SourceFile where
  path := "a.js"
  content := "function x(x,\n  x) {}"
  tree :=
    let name (start line : Nat) (fields : List String) : Node :=
      .mk { kind := "identifier", text := "x", start, stop := start + 1, line,
            endLine := line, fields } []
    .mk { kind := "program", text := "function x(x,\n  x) {}", stop := 21, endLine := 2 }
      [.mk { kind := "function_declaration", text := "function x(x,\n  x) {}", stop := 21,
             endLine := 2 }
        [name 9 1 ["name"],
          .mk { kind := "formal_parameters", text := "(x,\n  x)", start := 10,
                stop := 18, endLine := 2, fields := ["parameters"] } [name 11 1 [], name 16 2 []],
          .mk { kind := "statement_block", text := "\x7b\x7d", start := 19, stop := 21,
                line := 2, endLine := 2, fields := ["body"] } []]]

def parameterContext : Context := .of {} parameterFile { identifier := "x" } {}

/-- There are two findings, whether there may be one or two. -/
theorem exists_trace_parameterFile {limit : Nat} (h : limit = 1 ∨ limit = 2) :
    ∃ t, trace {} parameterFile { identifier := "x" } {} ⟨limit⟩ = .ok t ∧
      t.sources.length + t.destinations.length = 2 := by
  have hlanguage : (SourceLanguage.ofPath? (Path.normalize parameterFile.path)).isSome = true := by
    decide
  have hfound : (parameterContext.found limit parameterFile.tree).met = true ∧
      (parameterContext.found limit parameterFile.tree).count = 2 := by
    rcases h with rfl | rfl
    · decide
    · decide
  have htrace := (trace_eq {} { identifier := "x" } {} ⟨limit⟩ hlanguage).trans (if_pos hfound.1)
  exact ⟨_, htrace, (length_of_trace htrace).trans hfound.2⟩

/-- With room for two findings the list of parameters does not go past the limit. -/
theorem trace_findings_le_iff_parameters :
    ∃ t, trace {} parameterFile { identifier := "x" } {} ⟨2⟩ = .ok t ∧
      t.sources.length + t.destinations.length = 2 ∧
      ∀ before params after, parameterContext.sight parameterFile.tree = before ++ params :: after →
        params.kind = "formal_parameters" → parameterContext.tally before < 2 →
          parameterContext.tally (before ++ [params]) ≤ 2 := by
  obtain ⟨t, ht, hcount⟩ := exists_trace_parameterFile (.inr rfl)
  have hlimit := (trace_findings_le_iff {} parameterFile { identifier := "x" } {} ⟨2⟩ t ht).1
  exact ⟨t, ht, hcount, hlimit.mp (Nat.le_of_eq hcount)⟩

/-- **Two findings where there may be one.** The name of the function is an occurrence, and gives no
finding; the parameters are one visit, and give two. -/
theorem parameters_pass_limit :
    ∃ t, trace {} parameterFile { identifier := "x" } {} ⟨1⟩ = .ok t ∧
      1 < t.sources.length + t.destinations.length := by
  obtain ⟨t, ht, hcount⟩ := exists_trace_parameterFile (.inl rfl)
  exact ⟨t, ht, by omega⟩

end CallAtlas.DataFlow
