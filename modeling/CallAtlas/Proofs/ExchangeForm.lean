import CallAtlas.Code.Codec
import CallAtlas.DataFlow.Codec
import CallAtlas.Impact.Codec
import CallAtlas.Proofs.JsonFields

/-!
# Proofs.ExchangeForm — the exchange form gives back what was written

Each type has an encoder and a decoder for the exchange form, and `integers`, the whole numbers in a
value. For each of them the same three things are said at once (`Json.Faithful`): the decoder reads
what the encoder wrote, the encoder writes what the reader of texts can read, and the numbers that
are decoded from a text fit in 64 bits. All are proved field by field, in the order of the fields,
so that a new field is one line in each.

* `DeclarationKind.faithful` … `DataFlow.Trace.faithful` — the types, from the inside out.
* `exchange_form_round_trips` — what is exchanged as a whole.
-/

namespace CallAtlas

open Json (Faithful Fits RoundTrips faithful_string faithful_bool faithful_nat faithful_variant
  gives_optional_string)
open Json.Record (Gives Ensures gives_pure ensures_pure skips_required skips_withDefault
  gives_nullable skips_nullable)

/-! ## Enumerations -/

/-- A kind is written by its name, and the names of the kinds differ. The same holds of all
enumerations. -/
theorem DeclarationKind.faithful : Faithful toJson ofJson? fun _ => [] :=
  faithful_variant fun k => by cases k <;> rfl

theorem Layer.faithful : Faithful toJson ofJson? fun _ => [] :=
  faithful_variant fun k => by cases k <;> rfl

theorem HttpMethod.faithful : Faithful toJson ofJson? fun _ => [] :=
  faithful_variant fun k => by cases k <;> rfl

theorem DbOperation.faithful : Faithful toJson ofJson? fun _ => [] :=
  faithful_variant fun k => by cases k <;> rfl

theorem CallVia.faithful : Faithful toJson ofJson? fun _ => [] :=
  faithful_variant fun k => by cases k <;> rfl

theorem ExternalKind.faithful : Faithful toJson ofJson? fun _ => [] :=
  faithful_variant fun k => by cases k <;> rfl

theorem RiskLevel.faithful : Faithful toJson ofJson? fun _ => [] :=
  faithful_variant fun k => by cases k <;> rfl

/-! ## Declarations -/

def LineSpan.integers (s : LineSpan) : List Nat := [s.startLine, s.endLine]

/-- Both lines are written, and both are numbers of the span. -/
theorem LineSpan.faithful : Faithful toJson ofJson? integers where
  decode_encode s := by
    refine Gives.read? ?_
    refine (faithful_nat.required s.startLine (by simp)).bind ?_
    refine (faithful_nat.required s.endLine (by simp)).bind ?_
    exact gives_pure s
  plain {s} h := by
    simp only [integers, Json.fits_cons] at h
    exact .obj (by simp) (by simp [Json.Plain.natural, h])
  fits hj h := by
    refine Ensures.read? (P := (Fits ·.integers)) ?_ hj h
    refine faithful_nat.ensures.bind fun start hstart => ?_
    refine faithful_nat.ensures.bind fun stop hstop => ?_
    exact ensures_pure (Json.fits_append.mpr ⟨hstart, hstop⟩)

/-- What is missing is false. -/
theorem ErrorHandling.faithful : Faithful toJson ofJson? fun _ => [] where
  decode_encode e := by
    refine Gives.read? ?_
    refine (faithful_bool.withDefault e.tryCatch (by simp)).bind ?_
    refine (faithful_bool.withDefault e.promiseCatch (by simp)).bind ?_
    refine (faithful_bool.withDefault e.throws (by simp)).bind ?_
    exact gives_pure e
  plain _ := .obj (by simp) (by simp [Json.Plain.bool])
  fits _ _ := Json.fits_nil

def Declaration.integers (d : Declaration) : List Nat := d.span.integers

/-- The names around a declaration are left out where there are none. Its numbers are those of its
lines. -/
theorem Declaration.faithful : Faithful toJson ofJson? integers where
  decode_encode d := by
    refine Gives.read? ?_
    refine (faithful_string.required d.id (by simp)).bind ?_
    refine (faithful_string.required d.name (by simp)).bind ?_
    refine (DeclarationKind.faithful.required d.kind (by simp)).bind ?_
    refine (faithful_bool.required d.exported (by simp)).bind ?_
    refine (faithful_string.required d.signature (by simp)).bind ?_
    refine (LineSpan.faithful.required d.span (by simp)).bind ?_
    refine (faithful_string.required d.filePath (by simp)).bind ?_
    refine (gives_optional_string (o := d.container) (by simp)).bind ?_
    refine (gives_optional_string (o := d.enclosing) (by simp)).bind ?_
    refine (faithful_bool.withDefault d.isAsync (by simp)).bind ?_
    refine (faithful_bool.withDefault d.returnsUi (by simp)).bind ?_
    refine (ErrorHandling.faithful.withDefault d.errors (by simp)).bind ?_
    exact gives_pure d
  plain {d} h := by
    have hspan := LineSpan.faithful.plain h
    have hkind := DeclarationKind.faithful.plain (x := d.kind) Json.fits_nil
    have herrors := ErrorHandling.faithful.plain (x := d.errors) Json.fits_nil
    refine .obj ?_ ?_
    · -- a name that may be left out is in the list of members at most once
      simp +contextual [List.nodup_append, or_imp]
    · simp +contextual [or_imp, Json.Plain.str, Json.Plain.bool, hspan, hkind, herrors]
  fits hj h := by
    refine Ensures.read? (P := (Fits ·.integers)) ?_ hj h
    refine skips_required.bind fun id _ => ?_
    refine skips_required.bind fun name _ => ?_
    refine skips_required.bind fun kind _ => ?_
    refine skips_required.bind fun exported _ => ?_
    refine skips_required.bind fun signature _ => ?_
    refine LineSpan.faithful.ensures.bind fun span hspan => ?_
    refine skips_required.bind fun filePath _ => ?_
    refine skips_withDefault.bind fun container _ => ?_
    refine skips_withDefault.bind fun enclosing _ => ?_
    refine skips_withDefault.bind fun isAsync _ => ?_
    refine skips_withDefault.bind fun returnsUi _ => ?_
    refine skips_withDefault.bind fun errors _ => ?_
    exact ensures_pure hspan

/-! ## Calls -/

/-- Three kinds of targets, told apart by a member of their own. -/
theorem CallTarget.faithful : Faithful toJson ofJson? fun _ => [] where
  decode_encode t := by
    -- the member `type` is the first one and says how the others are read
    cases t with
    | named name receiver =>
      refine Gives.read? ?_
      refine (faithful_string.required name (by simp)).bind ?_
      refine (gives_optional_string (o := receiver) (by simp)).bind ?_
      exact gives_pure _
    | http method path =>
      refine Gives.read? ?_
      refine (HttpMethod.faithful.required method (by simp)).bind ?_
      refine (faithful_string.required path (by simp)).bind ?_
      exact gives_pure _
    | database client operation table =>
      refine Gives.read? ?_
      refine (faithful_string.required client (by simp)).bind ?_
      refine (DbOperation.faithful.required operation (by simp)).bind ?_
      refine (gives_optional_string (o := table) (by simp)).bind ?_
      exact gives_pure _
  plain {t} _ := by
    cases t with
    | named name receiver =>
      exact .obj (by simp +contextual) (by simp +contextual [or_imp, Json.Plain.str])
    | http method path =>
      have hmethod := HttpMethod.faithful.plain (x := method) Json.fits_nil
      exact .obj (by simp) (by simp [Json.Plain.str, hmethod])
    | database client operation table =>
      have hoperation := DbOperation.faithful.plain (x := operation) Json.fits_nil
      exact .obj (by simp +contextual) (by simp +contextual [or_imp, Json.Plain.str, hoperation])
  fits _ _ := Json.fits_nil

/-- As for the handling of errors. -/
theorem CallFlags.faithful : Faithful toJson ofJson? fun _ => [] where
  decode_encode f := by
    refine Gives.read? ?_
    refine (faithful_bool.withDefault f.awaited (by simp)).bind ?_
    refine (faithful_bool.withDefault f.conditional (by simp)).bind ?_
    refine (faithful_bool.withDefault f.guarded (by simp)).bind ?_
    exact gives_pure f
  plain _ := .obj (by simp) (by simp [Json.Plain.bool])
  fits _ _ := Json.fits_nil

def CallSite.integers (s : CallSite) : List Nat := [s.line]

/-- The line of a call is its only number. -/
theorem CallSite.faithful : Faithful toJson ofJson? integers where
  decode_encode s := by
    -- the fields in the order in which they are read
    refine Gives.read? ?_
    refine (faithful_string.required s.callerId (by simp)).bind ?_
    refine (CallTarget.faithful.required s.target (by simp)).bind ?_
    refine (gives_optional_string (o := s.calleeModule) (by simp)).bind ?_
    refine (faithful_nat.required s.line (by simp)).bind ?_
    refine (CallVia.faithful.withDefault s.via (by simp)).bind ?_
    refine (CallFlags.faithful.withDefault s.flags (by simp)).bind ?_
    exact gives_pure s
  plain {s} h := by
    have hline := faithful_nat.plain h
    have htarget := CallTarget.faithful.plain (x := s.target) Json.fits_nil
    have hvia := CallVia.faithful.plain (x := s.via) Json.fits_nil
    have hflags := CallFlags.faithful.plain (x := s.flags) Json.fits_nil
    refine .obj ?_ ?_
    · simp +contextual [List.nodup_append, or_imp]
    · simp +contextual [or_imp, Json.Plain.str, hline, htarget, hvia, hflags]
  fits hj h := by
    refine Ensures.read? (P := (Fits ·.integers)) ?_ hj h
    refine skips_required.bind fun callerId _ => ?_
    refine skips_required.bind fun target _ => ?_
    refine skips_withDefault.bind fun calleeModule _ => ?_
    refine faithful_nat.ensures.bind fun line hline => ?_
    refine skips_withDefault.bind fun via _ => ?_
    refine skips_withDefault.bind fun flags _ => ?_
    exact ensures_pure hline

/-! ## Files -/

/-- Three fields that are always there. -/
theorem ImportBinding.faithful : Faithful toJson ofJson? fun _ => [] where
  decode_encode b := by
    refine Gives.read? ?_
    refine (faithful_string.required b.localName (by simp)).bind ?_
    refine (faithful_string.required b.imported (by simp)).bind ?_
    refine (faithful_bool.required b.namespaced (by simp)).bind ?_
    exact gives_pure b
  plain _ := .obj (by simp) (by simp [Json.Plain.str, Json.Plain.bool])
  fits _ _ := Json.fits_nil

def ImportInfo.integers (i : ImportInfo) : List Nat := [i.line]

/-- The bindings have no numbers, so the line is the only one. -/
theorem ImportInfo.faithful : Faithful toJson ofJson? integers where
  decode_encode i := by
    refine Gives.read? ?_
    refine (faithful_string.required i.source (by simp)).bind ?_
    refine (ImportBinding.faithful.list.required i.bindings (by simp)).bind ?_
    refine (faithful_bool.withDefault i.typeOnly (by simp)).bind ?_
    refine (faithful_nat.required i.line (by simp)).bind ?_
    exact gives_pure i
  plain {i} h := by
    have hline := faithful_nat.plain h
    have hbindings := ImportBinding.faithful.list.plain (Json.fits_flatMap_nil i.bindings)
    exact .obj (by simp) (by simp [Json.Plain.str, Json.Plain.bool, hline, hbindings])
  fits hj h := by
    refine Ensures.read? (P := (Fits ·.integers)) ?_ hj h
    refine skips_required.bind fun source _ => ?_
    refine skips_required.bind fun bindings _ => ?_
    refine skips_withDefault.bind fun typeOnly _ => ?_
    refine faithful_nat.ensures.bind fun line hline => ?_
    exact ensures_pure hline

def FileAnalysis.integers (f : FileAnalysis) : List Nat :=
  f.declarations.flatMap Declaration.integers ++ f.imports.flatMap ImportInfo.integers
    ++ f.calls.flatMap CallSite.integers

/-- The numbers of a file are those of its declarations, imports and calls, in this order. -/
theorem FileAnalysis.faithful : Faithful toJson ofJson? integers where
  decode_encode f := by
    refine Gives.read? ?_
    refine (faithful_string.required f.filePath (by simp)).bind ?_
    refine (Layer.faithful.required f.layer (by simp)).bind ?_
    refine (Declaration.faithful.list.required f.declarations (by simp)).bind ?_
    refine (ImportInfo.faithful.list.required f.imports (by simp)).bind ?_
    refine (CallSite.faithful.list.required f.calls (by simp)).bind ?_
    refine (faithful_bool.required f.isComponent (by simp)).bind ?_
    refine (faithful_bool.required f.isHook (by simp)).bind ?_
    refine (faithful_bool.required f.isRouteHandler (by simp)).bind ?_
    refine (faithful_bool.withDefault f.hasJsx (by simp)).bind ?_
    refine (faithful_bool.withDefault f.truncated (by simp)).bind ?_
    exact gives_pure f
  plain {f} h := by
    -- the numbers are split as the fields are
    obtain ⟨⟨hdeclarations, himports⟩, hcalls⟩ :=
      (Json.fits_append.trans (and_congr_left' Json.fits_append)).mp h
    have hlayer := Layer.faithful.plain (x := f.layer) Json.fits_nil
    have hdeclarations := Declaration.faithful.list.plain hdeclarations
    have himports := ImportInfo.faithful.list.plain himports
    have hcalls := CallSite.faithful.list.plain hcalls
    exact .obj (by simp)
      (by simp [Json.Plain.str, Json.Plain.bool, hlayer, hdeclarations, himports, hcalls])
  fits hj h := by
    refine Ensures.read? (P := (Fits ·.integers)) ?_ hj h
    refine skips_required.bind fun filePath _ => ?_
    refine skips_required.bind fun layer _ => ?_
    refine Declaration.faithful.list.ensures.bind fun declarations hdeclarations => ?_
    refine ImportInfo.faithful.list.ensures.bind fun imports himports => ?_
    refine CallSite.faithful.list.ensures.bind fun calls hcalls => ?_
    refine skips_required.bind fun isComponent _ => ?_
    refine skips_required.bind fun isHook _ => ?_
    refine skips_required.bind fun isRouteHandler _ => ?_
    refine skips_withDefault.bind fun hasJsx _ => ?_
    refine skips_withDefault.bind fun truncated _ => ?_
    have hfiles := Json.fits_append.mpr ⟨hdeclarations, himports⟩
    exact ensures_pure (Json.fits_append.mpr ⟨hfiles, hcalls⟩)

/-! ## Edges -/

def ExternalEdge.integers (e : ExternalEdge) : List Nat := [e.line]

/-- The handler is left out as long as none is matched. -/
theorem ExternalEdge.faithful : Faithful toJson ofJson? integers where
  decode_encode e := by
    refine Gives.read? ?_
    refine (faithful_string.required e.callerId (by simp)).bind ?_
    refine (ExternalKind.faithful.required e.kind (by simp)).bind ?_
    refine (faithful_string.required e.target (by simp)).bind ?_
    refine (CallTarget.faithful.required e.call (by simp)).bind ?_
    refine (faithful_nat.required e.line (by simp)).bind ?_
    refine (CallFlags.faithful.withDefault e.flags (by simp)).bind ?_
    refine (gives_optional_string (o := e.matchedHandler) (by simp)).bind ?_
    exact gives_pure e
  plain {e} h := by
    have hline := faithful_nat.plain h
    have hkind := ExternalKind.faithful.plain (x := e.kind) Json.fits_nil
    have hcall := CallTarget.faithful.plain (x := e.call) Json.fits_nil
    have hflags := CallFlags.faithful.plain (x := e.flags) Json.fits_nil
    refine .obj ?_ ?_
    · simp +contextual
    · simp +contextual [or_imp, Json.Plain.str, hline, hkind, hcall, hflags]
  fits hj h := by
    refine Ensures.read? (P := (Fits ·.integers)) ?_ hj h
    refine skips_required.bind fun callerId _ => ?_
    refine skips_required.bind fun kind _ => ?_
    refine skips_required.bind fun target _ => ?_
    refine skips_required.bind fun call _ => ?_
    refine faithful_nat.ensures.bind fun line hline => ?_
    refine skips_withDefault.bind fun flags _ => ?_
    refine skips_withDefault.bind fun matchedHandler _ => ?_
    exact ensures_pure hline

/-! ## Reports -/

/-- A list of texts has no numbers. -/
theorem Feature.faithful : Faithful toJson ofJson? fun _ => [] where
  decode_encode f := by
    refine Gives.read? ?_
    refine (faithful_string.required f.name (by simp)).bind ?_
    refine (faithful_string.list.required f.matchedVia (by simp [Json.ofStrings])).bind ?_
    exact gives_pure f
  plain {f} _ := by
    have hvia := faithful_string.list.plain (Json.fits_flatMap_nil f.matchedVia)
    exact .obj (by simp) (by simp [Json.Plain.str, Json.ofStrings, hvia])
  fits _ _ := Json.fits_nil

def AffectedNode.integers (n : AffectedNode) : List Nat := [n.distance, n.fanIn]

/-- Two numbers: how far the declaration is, and how many callers it has. -/
theorem AffectedNode.faithful : Faithful toJson ofJson? integers where
  decode_encode n := by
    refine Gives.read? ?_
    refine (faithful_string.required n.id (by simp)).bind ?_
    refine (faithful_string.required n.name (by simp)).bind ?_
    refine (faithful_string.required n.filePath (by simp)).bind ?_
    refine (faithful_nat.required n.distance (by simp)).bind ?_
    refine (faithful_nat.required n.fanIn (by simp)).bind ?_
    refine (RiskLevel.faithful.required n.risk (by simp)).bind ?_
    exact gives_pure n
  plain {n} h := by
    simp only [integers, Json.fits_cons] at h
    have hrisk := RiskLevel.faithful.plain (x := n.risk) Json.fits_nil
    exact .obj (by simp) (by simp [Json.Plain.str, Json.Plain.natural, h, hrisk])
  fits hj h := by
    refine Ensures.read? (P := (Fits ·.integers)) ?_ hj h
    refine skips_required.bind fun id _ => ?_
    refine skips_required.bind fun name _ => ?_
    refine skips_required.bind fun filePath _ => ?_
    refine faithful_nat.ensures.bind fun distance hdistance => ?_
    refine faithful_nat.ensures.bind fun fanIn hfanIn => ?_
    refine skips_required.bind fun risk _ => ?_
    exact ensures_pure (Json.fits_append.mpr ⟨hdistance, hfanIn⟩)

def ImpactReport.integers (r : ImpactReport) : List Nat := r.affected.flatMap AffectedNode.integers

/-- The highest risk is written in any case, as `null` where nothing is affected. -/
theorem ImpactReport.faithful : Faithful toJson ofJson? integers where
  decode_encode r := by
    refine Gives.read? ?_
    refine (faithful_string.required r.targetId (by simp)).bind ?_
    refine (faithful_string.required r.targetName (by simp)).bind ?_
    refine (AffectedNode.faithful.list.required r.affected (by simp)).bind ?_
    refine (Feature.faithful.list.required r.featuresAffected (by simp)).bind ?_
    refine (faithful_string.list.required r.affectedEntryPoints (by simp [Json.ofStrings])).bind ?_
    refine (gives_nullable RiskLevel.faithful.decode_encode nofun (o := r.highestRisk)
      (by simp)).bind ?_
    refine (faithful_bool.required r.truncated (by simp)).bind ?_
    exact gives_pure r
  plain {r} h := by
    have haffected := AffectedNode.faithful.list.plain h
    have hfeatures := Feature.faithful.list.plain (Json.fits_flatMap_nil r.featuresAffected)
    have hentries := faithful_string.list.plain (Json.fits_flatMap_nil r.affectedEntryPoints)
    have hrisk : (Json.ofOption RiskLevel.toJson r.highestRisk).Plain := by
      -- an absent level is written too
      cases r.highestRisk with
      | none => exact .null
      | some level => exact RiskLevel.faithful.plain Json.fits_nil
    refine .obj (by simp) ?_
    simp [Json.Plain.str, Json.Plain.bool, Json.ofStrings, haffected, hfeatures, hentries, hrisk]
  fits hj h := by
    refine Ensures.read? (P := (Fits ·.integers)) ?_ hj h
    refine skips_required.bind fun targetId _ => ?_
    refine skips_required.bind fun targetName _ => ?_
    refine AffectedNode.faithful.list.ensures.bind fun affected haffected => ?_
    refine skips_required.bind fun featuresAffected _ => ?_
    refine skips_required.bind fun affectedEntryPoints _ => ?_
    refine skips_nullable.bind fun highestRisk _ => ?_
    refine skips_required.bind fun truncated _ => ?_
    exact ensures_pure haffected

/-! ## Traces -/

namespace DataFlow

/-- The two kinds of ends of a flow have names of their own. -/
theorem SourceKind.faithful :
    Faithful (fun k : SourceKind => .str k.name)
      (Json.variant? Json.isNull (all.map fun k => (k.name, k))) fun _ => [] :=
  faithful_variant fun k => by cases k <;> rfl

theorem DestinationKind.faithful :
    Faithful (fun k : DestinationKind => .str k.name)
      (Json.variant? Json.isNull (all.map fun k => (k.name, k))) fun _ => [] :=
  faithful_variant fun k => by cases k <;> rfl

def Source.integers (s : Source) : List Nat := [s.line]

/-- A list of links is left out where it is empty. -/
theorem Source.faithful : Faithful toJson ofJson? integers where
  decode_encode s := by
    refine Gives.read? ?_
    refine (SourceKind.faithful.required s.kind (by simp)).bind ?_
    refine (faithful_nat.required s.line (by simp)).bind ?_
    refine (faithful_string.required s.detail (by simp)).bind ?_
    refine (gives_optional_string (o := s.declarationId) (by simp)).bind ?_
    refine (faithful_string.withoutEmpty s.linkedIds (by simp [Json.ofStrings])).bind ?_
    exact gives_pure s
  plain {s} h := by
    have hline := faithful_nat.plain h
    have hlinked := faithful_string.list.plain (Json.fits_flatMap_nil s.linkedIds)
    refine .obj ?_ ?_
    · -- the member is there or not, and in both cases the names differ
      by_cases hempty : s.linkedIds.isEmpty = true
      · simp +contextual [hempty]
      · simp +contextual [hempty, List.nodup_append]
    · by_cases hempty : s.linkedIds.isEmpty = true
      · simp +contextual [hempty, or_imp, Json.Plain.str, hline]
      · simp +contextual [hempty, or_imp, Json.Plain.str, Json.ofStrings, hline, hlinked]
  fits hj h := by
    refine Ensures.read? (P := (Fits ·.integers)) ?_ hj h
    refine skips_required.bind fun kind _ => ?_
    refine faithful_nat.ensures.bind fun line hline => ?_
    refine skips_required.bind fun detail _ => ?_
    refine skips_withDefault.bind fun declarationId _ => ?_
    refine skips_withDefault.bind fun linkedIds _ => ?_
    exact ensures_pure hline

def Destination.integers (d : Destination) : List Nat := [d.line]

/-- Two names that may be absent. -/
theorem Destination.faithful : Faithful toJson ofJson? integers where
  decode_encode d := by
    refine Gives.read? ?_
    refine (DestinationKind.faithful.required d.kind (by simp)).bind ?_
    refine (faithful_nat.required d.line (by simp)).bind ?_
    refine (faithful_string.required d.detail (by simp)).bind ?_
    refine (gives_optional_string (o := d.declarationId) (by simp)).bind ?_
    refine (gives_optional_string (o := d.calleeId) (by simp)).bind ?_
    exact gives_pure d
  plain {d} h := by
    have hline := faithful_nat.plain h
    refine .obj ?_ ?_
    · simp +contextual [List.nodup_append]
    · simp +contextual [or_imp, Json.Plain.str, hline]
  fits hj h := by
    refine Ensures.read? (P := (Fits ·.integers)) ?_ hj h
    refine skips_required.bind fun kind _ => ?_
    refine faithful_nat.ensures.bind fun line hline => ?_
    refine skips_required.bind fun detail _ => ?_
    refine skips_withDefault.bind fun declarationId _ => ?_
    refine skips_withDefault.bind fun calleeId _ => ?_
    exact ensures_pure hline

def Trace.integers (t : Trace) : List Nat :=
  t.sources.flatMap Source.integers ++ t.destinations.flatMap Destination.integers

/-- The numbers of a trace are the lines of its sources and destinations. -/
theorem Trace.faithful : Faithful toJson ofJson? integers where
  decode_encode t := by
    refine Gives.read? ?_
    refine (faithful_string.required t.file (by simp)).bind ?_
    refine (faithful_string.required t.identifier (by simp)).bind ?_
    refine (gives_optional_string (o := t.scopeId) (by simp)).bind ?_
    refine (Source.faithful.list.required t.sources (by simp)).bind ?_
    refine (Destination.faithful.list.required t.destinations (by simp)).bind ?_
    refine (faithful_bool.required t.truncated (by simp)).bind ?_
    exact gives_pure t
  plain {t} h := by
    obtain ⟨hsources, hdestinations⟩ := Json.fits_append.mp h
    have hsources := Source.faithful.list.plain hsources
    have hdestinations := Destination.faithful.list.plain hdestinations
    refine .obj ?_ ?_
    · simp +contextual [List.nodup_append, or_imp]
    · simp +contextual [or_imp, Json.Plain.str, Json.Plain.bool, hsources, hdestinations]
  fits hj h := by
    refine Ensures.read? (P := (Fits ·.integers)) ?_ hj h
    refine skips_required.bind fun file _ => ?_
    refine skips_required.bind fun identifier _ => ?_
    refine skips_withDefault.bind fun scopeId _ => ?_
    refine Source.faithful.list.ensures.bind fun sources hsources => ?_
    refine Destination.faithful.list.ensures.bind fun destinations hdestinations => ?_
    refine skips_required.bind fun truncated _ => ?_
    exact ensures_pure (Json.fits_append.mpr ⟨hsources, hdestinations⟩)

end DataFlow

/-- **The exchange form gives back what was written.** File analyses, external edges, impact reports
and data-flow traces come back from their exchange form; from its text too, if their integers fit in
64 bits. Whatever was decoded comes back in both ways, with all that was left out or not asked for
in the form that it was decoded from. -/
theorem exchange_form_round_trips :
    RoundTrips FileAnalysis.toJson FileAnalysis.ofJson? FileAnalysis.integers ∧
      RoundTrips ExternalEdge.toJson ExternalEdge.ofJson? ExternalEdge.integers ∧
      RoundTrips ImpactReport.toJson ImpactReport.ofJson? ImpactReport.integers ∧
      RoundTrips DataFlow.Trace.toJson DataFlow.Trace.ofJson? DataFlow.Trace.integers :=
  ⟨FileAnalysis.faithful.roundTrips, ExternalEdge.faithful.roundTrips,
    ImpactReport.faithful.roundTrips, DataFlow.Trace.faithful.roundTrips⟩

/-- Members that no field asks for are ignored, and defaults stand in for what is left out. -/
example :
    ExternalEdge.ofJson? (.obj [("seen", .arr [.null]), ("line", .ofNat 7), ("caller_id", .str "a"),
      ("target", .str "f"), ("kind", .str "unresolved"),
        ("call", .obj [("receiver", .null), ("name", .str "f"), ("type", .str "named")])])
      = some ⟨"a", .unresolved, "f", .named "f" none, 7, {}, none⟩ := by
  cbv

end CallAtlas
