import CallAtlas.Proofs.ExtractionLayout
import CallAtlas.Proofs.RegistryClosed

/-!
# Proofs.RouteTable — files that are called route handlers, and files in the route table

Whether a file handles requests is decided twice. The layer table asks for a route file with an
exported declaration named like a request method. The route table asks the declaration to be at the
top level too. What is extracted from a file and exported is never nested in a function, so the two
can differ over members of classes only: a method `GET` of an exported class makes its file a route
handler that serves no request.

* `isRouteHandler_classify_iff` — the flag, under any table of rules.
* `handlersOf_ne_nil_iff`, `mem_routes_build` — the entries of the route table.
* `route_flag_iff_listed` — flag and table agree exactly unless members alone are named like
  methods.
* `member_makes_route_handler` — an exported class with a method `GET`.
-/

namespace CallAtlas

variable {f : FileAnalysis} {d : Declaration}

/-! ## The flag -/

/-- The flag of a file is set by any rule for route handlers that applies. -/
theorem FileAnalysis.isRouteHandler_classify_iff (rules : List LayerRule) (f : FileAnalysis) :
    (f.classify rules).isRouteHandler = true ↔
      ∃ r ∈ rules, r.applies f = true ∧ r.layer = .routeHandler := by
  show ((LayerRule.matching rules f).map (·.layer)).contains .routeHandler = true ↔ _
  rw [List.contains_iff_mem, List.mem_map]
  simp only [LayerRule.matching, List.mem_filter, and_assoc]

/-- The built-in table has one rule for route handlers. -/
theorem FileAnalysis.isRouteHandler_defaults_iff (settings : ExtractionSettings)
    (f : FileAnalysis) :
    (f.classify (LayerRule.defaults settings)).isRouteHandler = true ↔
      (RoutePattern.ofFile? f.filePath).isSome = true ∧
        ∃ d ∈ f.declarations, d.exported = true ∧ Naming.isMethodHandler d = true := by
  rw [isRouteHandler_classify_iff]
  simp [LayerRule.defaults, LayerRule.isRouteFile, FileAnalysis.exported]

/-! ## The route table -/

namespace Registry

/-- A method handler is named after a method. -/
theorem exists_method_of_isMethodHandler (h : Naming.isMethodHandler d = true) :
    ∃ m : HttpMethod, m.name = d.name := by
  obtain ⟨-, hname⟩ := Bool.and_eq_true_iff.mp h
  cases hparse : HttpMethod.parse? d.name with
  | none =>
    rw [hparse] at hname
    cases hname
  | some m =>
    rw [hparse] at hname
    exact ⟨m, beq_iff_eq.mp hname⟩

/-- A declaration that can be a handler in the route table. -/
def IsHandler (d : Declaration) : Prop :=
  d.exported = true ∧ d.isTopLevel = true ∧ Naming.isMethodHandler d = true

/-- **There are handlers if some declaration can be one.** A later one of the same method may take
its place, but the method stays. -/
theorem handlersOf_ne_nil_iff {ds : List Declaration} :
    handlersOf ds ≠ [] ↔ ∃ d ∈ ds, IsHandler d := by
  unfold handlersOf
  rw [Ne, List.filterMap_eq_nil_iff]
  simp only [Option.map_eq_none_iff, List.find?_eq_none, List.mem_reverse, List.mem_filter,
    Bool.and_eq_true, decide_eq_true_eq, not_forall, not_not]
  constructor
  · rintro ⟨m, -, d, ⟨hd, ⟨hexported, htop⟩, hhandler⟩, -⟩
    exact ⟨d, hd, hexported, htop, hhandler⟩
  · rintro ⟨d, hd, hexported, htop, hhandler⟩
    -- `d` itself may be replaced, but it shows that the search for its method finds something
    obtain ⟨m, hm⟩ := exists_method_of_isMethodHandler hhandler
    have hall : m ∈ HttpMethod.all := by cases m <;> decide
    exact ⟨m, hall, d, ⟨hd, ⟨hexported, htop⟩, hhandler⟩, hm.symm⟩

/-- **The entries of the route table** are those of route files with handlers. -/
theorem mem_routes_build {fs : List FileAnalysis} {e : RouteEntry} :
    e ∈ (build fs).routes ↔ ∃ f ∈ fs, ∃ p, RoutePattern.ofFile? f.filePath = some p ∧
      handlersOf f.declarations ≠ [] ∧
      e = ⟨p, f.filePath, handlersOf f.declarations⟩ := by
  unfold routes
  rw [List.mem_filterMap]
  simp only [mem_files_build]
  refine exists_congr fun f => and_congr_right fun _ => ?_
  cases RoutePattern.ofFile? f.filePath with
  | none => simp
  | some p =>
    cases handlersOf f.declarations with
    | nil => simp
    | cons first rest => simp [eq_comm]

/-- The file has an entry with a handler. -/
def Lists (r : Registry) (path : String) : Prop := ∃ e ∈ r.routes, e.file = path ∧ e.handlers ≠ []

/-- A file is listed for its own declarations, if no other file has its path. -/
theorem lists_build_iff {fs : List FileAnalysis} (hpaths : (fs.map (·.filePath)).Nodup)
    (hf : f ∈ fs) :
    (build fs).Lists f.filePath ↔
      (RoutePattern.ofFile? f.filePath).isSome = true ∧ ∃ d ∈ f.declarations, IsHandler d := by
  rw [← handlersOf_ne_nil_iff]
  constructor
  · rintro ⟨e, he, hpath, -⟩
    obtain ⟨g, hg, p, hp, hhandlers, rfl⟩ := mem_routes_build.mp he
    obtain rfl : g = f := List.inj_on_of_nodup_map hpaths hg hf hpath
    exact ⟨by rw [hp]; rfl, hhandlers⟩
  · rintro ⟨hroute, hhandlers⟩
    obtain ⟨p, hp⟩ := Option.isSome_iff_exists.mp hroute
    exact ⟨_, mem_routes_build.mpr ⟨f, hf, p, hp, hhandlers, rfl⟩, rfl, hhandlers⟩

/-! ## Flag and table -/

/-- What an analysis holds comes from the walk of a file. -/
def Extracted (f : FileAnalysis) : Prop := ∃ settings file, SourceFile.extract settings file = .ok f

/-- An exported member of a class that is named like a request method. -/
def IsMethodMember (d : Declaration) : Prop :=
  d.exported = true ∧ d.container.isSome = true ∧ Naming.isMethodHandler d = true

/-- An exported declaration of a file is not nested, so it is at the top level or a member of a
class. -/
theorem Extracted.isTopLevel_or_container (h : Extracted f) (hd : d ∈ f.declarations)
    (hexported : d.exported = true) : d.isTopLevel = true ∨ d.container.isSome = true := by
  obtain ⟨settings, file, hread⟩ := h
  -- a role changes no declaration, so any table of rules will do
  have hanalyze : file.analyze settings [] = .ok (f.classify []) := by
    unfold SourceFile.analyze
    rw [hread]
  obtain ⟨-, hdeclarations, -⟩ := SourceFile.read_of_analyze hanalyze
  change f.declarations = _ at hdeclarations
  rw [hdeclarations] at hd
  have hnested : d.enclosing = none := (Extraction.extract_laid _ file.tree).exported d hd hexported
  unfold Declaration.isTopLevel
  rw [hnested]
  cases d.container with
  | none => exact .inl rfl
  | some c => exact .inr rfl

/-- An exported handler is at the top level or the member of a class. -/
theorem Extracted.exists_handler_iff (h : Extracted f) :
    (∃ d ∈ f.declarations, d.exported = true ∧ Naming.isMethodHandler d = true) ↔
      (∃ d ∈ f.declarations, IsHandler d) ∨ ∃ d ∈ f.declarations, IsMethodMember d := by
  constructor
  · rintro ⟨d, hd, hexported, hhandler⟩
    rcases h.isTopLevel_or_container hd hexported with htop | hmember
    · exact .inl ⟨d, hd, hexported, htop, hhandler⟩
    · exact .inr ⟨d, hd, hexported, hmember, hhandler⟩
  · rintro (⟨d, hd, hexported, -, hhandler⟩ | ⟨d, hd, hexported, -, hhandler⟩)
    · exact ⟨d, hd, hexported, hhandler⟩
    · exact ⟨d, hd, hexported, hhandler⟩

/-- Classification keeps the paths. -/
theorem map_filePath_classify (rules : List LayerRule) (fs : List FileAnalysis) :
    (fs.map (·.classify rules)).map (·.filePath) = fs.map (·.filePath) := by
  rw [List.map_map]
  rfl

/-- **Flag and route table.** Take files that were read, with distinct paths and roles by the
built-in table. A file that the route table lists has the flag of a route handler. The two agree
exactly unless it is a route file in which members of classes are named like request methods and
nothing at the top level is. -/
theorem route_flag_iff_listed (settings : ExtractionSettings) (fs : List FileAnalysis)
    (f : FileAnalysis) (hextracted : ∀ g ∈ fs, Extracted g) (hpaths : (fs.map (·.filePath)).Nodup)
    (hf : f ∈ fs) :
    let rules := LayerRule.defaults settings
    let table := build (fs.map (·.classify rules))
    (table.Lists f.filePath → (f.classify rules).isRouteHandler = true) ∧
      (((f.classify rules).isRouteHandler = true ↔ table.Lists f.filePath) ↔
        ((RoutePattern.ofFile? f.filePath).isSome = true →
          (∃ d ∈ f.declarations, IsMethodMember d) →
          ∃ d ∈ f.declarations, IsHandler d)) := by
  intro rules table
  -- the table asks for a handler at the top level, the flag for any exported one
  have hlisted : table.Lists f.filePath ↔
      (RoutePattern.ofFile? f.filePath).isSome = true ∧ ∃ d ∈ f.declarations, IsHandler d :=
    lists_build_iff (f := f.classify rules) (by rw [map_filePath_classify]; exact hpaths)
      (List.mem_map_of_mem hf)
  have hflag := FileAnalysis.isRouteHandler_defaults_iff settings f
  rw [(hextracted f hf).exists_handler_iff] at hflag
  constructor
  · intro h
    obtain ⟨hroute, hhandler⟩ := hlisted.mp h
    exact hflag.mpr ⟨hroute, .inl hhandler⟩
  · rw [hflag, hlisted]
    constructor
    · intro hagree hroute hmember
      exact (hagree.mp ⟨hroute, .inr hmember⟩).2
    · intro hcovered
      constructor
      · rintro ⟨hroute, hhandler | hmember⟩
        · exact ⟨hroute, hhandler⟩
        · exact ⟨hroute, hcovered hroute hmember⟩
      · rintro ⟨hroute, hhandler⟩
        exact ⟨hroute, .inl hhandler⟩

/-! ## A class in a route file -/

/-- Node of a declaration with a name and a body. -/
def declarationNode (kind name body : String) (parts : List Tree.Node) : Tree.Node :=
  .mk { kind, line := 1, endLine := 1, fields := ["declaration"] }
    [.mk { kind := "identifier", text := name, fields := ["name"] } [],
      .mk { kind := body, fields := ["body"] } parts]

/-- The route of `/api/x`, which exports these nodes. -/
def routeSource (parts : List Tree.Node) : SourceFile :=
  ⟨"app/api/x/route.ts", "",
    .mk { kind := "program" } (parts.map fun part => .mk { kind := "export_statement" } [part])⟩

/-- `class Api { GET() {} }` -/
def apiClass : Tree.Node :=
  declarationNode "class_declaration" "Api" "class_body"
    [declarationNode "method_definition" "GET" "statement_block" []]

/-- `function POST() {}` -/
def postFunction : Tree.Node := declarationNode "function_declaration" "POST" "statement_block" []

/-- What is read of an exported class, method or function on the first line. -/
def routeDeclaration (name : String) (kind : DeclarationKind)
    (container : Option String) : Declaration :=
  { id := "app/api/x/route.ts:" ++ (container.map (· ++ ".")).getD "" ++ name, name, kind,
    exported := true
    signature := if kind = .classDecl then
      "" else "()", span := ⟨1, 1⟩, filePath := "app/api/x/route.ts", container }

def memberFile : FileAnalysis :=
  { filePath := "app/api/x/route.ts"
    declarations := [routeDeclaration "Api" .classDecl none,
      routeDeclaration "GET" .method (some "Api")] }

def mixedFile : FileAnalysis :=
  { filePath := "app/api/x/route.ts"
    declarations := memberFile.declarations ++ [routeDeclaration "POST" .function none] }

theorem extracted_memberFile : Extracted memberFile := ⟨{}, routeSource [apiClass], by decide⟩

theorem extracted_mixedFile :
    Extracted mixedFile := ⟨{}, routeSource [apiClass, postFunction], by decide⟩

/-- With a function `POST` beside the class, the file has the flag and is listed. -/
theorem route_flag_iff_listed_mixed :
    (∀ g ∈ [mixedFile], Extracted g) ∧ ([mixedFile].map (·.filePath)).Nodup ∧
      (mixedFile.classify (LayerRule.defaults {})).isRouteHandler = true ∧
      (build ([mixedFile].map (·.classify (LayerRule.defaults {})))).Lists
        "app/api/x/route.ts" := by
  have hextracted : ∀ g ∈ [mixedFile], Extracted g :=
    List.forall_mem_singleton.mpr extracted_mixedFile
  have hpaths : ([mixedFile].map (·.filePath)).Nodup := List.nodup_singleton _
  have hagree :=
    (route_flag_iff_listed {} [mixedFile] mixedFile hextracted hpaths (List.mem_singleton_self _)).2
  have hpost : ∃ d ∈ mixedFile.declarations, IsHandler d :=
    ⟨routeDeclaration "POST" .function none, by decide, by decide, by decide, by decide⟩
  have hflag : (mixedFile.classify (LayerRule.defaults {})).isRouteHandler = true := by decide
  exact ⟨hextracted, hpaths, hflag, (hagree.mpr fun _ _ => hpost).mp hflag⟩

/-- **A member makes a route handler.** A route file that exports only a class with a method `GET`
has the flag, but is not listed. -/
theorem member_makes_route_handler :
    Extracted memberFile ∧ (memberFile.classify (LayerRule.defaults {})).isRouteHandler = true ∧
      ¬ (build ([memberFile].map (·.classify (LayerRule.defaults {})))).Lists
        "app/api/x/route.ts" := by
  refine ⟨extracted_memberFile, by decide, ?_⟩
  have hlisted : (build ([memberFile].map (·.classify (LayerRule.defaults {})))).Lists
        "app/api/x/route.ts" ↔
      (RoutePattern.ofFile? memberFile.filePath).isSome = true ∧
        ∃ d ∈ memberFile.declarations, IsHandler d :=
    lists_build_iff (f := memberFile.classify (LayerRule.defaults {})) (List.nodup_singleton _)
      (List.mem_singleton_self _)
  rw [hlisted]
  rintro ⟨-, d, hd, -, htop, hhandler⟩
  -- the class is at the top level but no handler, its method is a handler but not at the top level
  have hboth : ∀ d ∈ memberFile.declarations, (d.isTopLevel && Naming.isMethodHandler d)
      = false := by decide
  have hd := hboth d hd
  rw [htop, hhandler] at hd
  cases hd

end Registry

end CallAtlas
