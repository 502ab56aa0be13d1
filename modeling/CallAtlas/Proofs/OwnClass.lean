import CallAtlas.Proofs.ExtractionScript
import CallAtlas.Proofs.LexicalScope

/-!
# Proofs.OwnClass — the class that a call through `this` stays in

A call `this.m()` is meant for a method of the class around the caller. A declaration does not know
the body that it stands in, only the name of the class. So the method is looked for in the whole
file, by the name of the class and its own, and the first declaration with both names is taken.
Where a file has two classes of one name, which is common for classes that are local to functions, a
call in the second one can land in the first one.

* `MethodOf` — a method that stands in a body, told from the nodes where declarations are made.
* `InClass` — the class around a declaration, directly or through the functions that it is nested
  in.
* `Filed.resolveCall?_this_iff` — what a call through `this` refers to.
* `first_of_foremost` — of the declarations with one name, the first one has the smallest id.
* `this_call_stays_iff` — when a call stays in a body.
* `this_call_leaves_class` — a call that does not.
-/

namespace CallAtlas

open CallAtlas.Tree CallAtlas.Extraction

/-! ## Names in a file -/

/-- The declaration with a qualified name that has the smallest id. -/
structure Foremost (ds : List Declaration) (name : String) (d : Declaration) : Prop where
  mem : d ∈ ds
  named : d.qualifiedName = name
  least : ∀ e ∈ ds, e.qualifiedName = name → d.id ≤ e.id

variable {ds : List Declaration} {name path : String} {d : Declaration} {os : List Origin}

theorem Foremost.lt_of_ne (h : Foremost ds name d) (hids : (ds.map (·.id)).Nodup) {e : Declaration}
    (he : e ∈ ds) (hnamed : e.qualifiedName = name) (hne : e ≠ d) : d.id < e.id := by
  apply lt_of_le_of_ne (h.least e he hnamed)
  intro hid
  exact hne (List.inj_on_of_nodup_map hids he h.mem hid.symm)

/-- At most one declaration of a name is foremost. -/
theorem Foremost.unique {d' : Declaration} (h : Foremost ds name d) (h' : Foremost ds name d')
    (hids : (ds.map (·.id)).Nodup) : d = d' := by
  have hid : d.id = d'.id := le_antisymm (h.least d' h'.mem h'.named) (h'.least d h.mem h.named)
  exact List.inj_on_of_nodup_map hids h.mem h'.mem hid

/-- What holds of the foremost declaration: any other one without it comes behind one with it. -/
theorem Foremost.holds_iff (h : Foremost ds name d) (hids : (ds.map (·.id)).Nodup)
    (P : Declaration → Prop) :
    P d ↔ ∀ e ∈ ds, e.qualifiedName = name → ¬ P e →
      ∃ e' ∈ ds, e'.qualifiedName = name ∧ P e' ∧ e'.id < e.id := by
  constructor
  · intro hd e he hnamed hnot
    refine ⟨d, h.mem, h.named, hd, h.lt_of_ne hids he hnamed ?_⟩
    rintro rfl
    exact hnot hd
  · intro hall
    by_contra hnot
    obtain ⟨e, he, hnamed, -, hlt⟩ := hall d h.mem h.named hnot
    exact absurd (h.least e he hnamed) (not_le_of_gt hlt)

/-- A text comes no later than its continuations. -/
theorem le_append (s t : String) : s ≤ s ++ t := by
  rw [String.le_iff_toList_le, String.toList_append]
  cases t.toList with
  | nil => rw [List.append_nil]
  | cons c cs =>
    conv_lhs => rw [← List.append_nil s.toList]
    exact le_of_lt (List.Lex.append_left _ List.Lex.nil s.toList)

namespace Extraction

/-- Every declaration has its origin. -/
theorem AllMade.exists_origin (h : AllMade path os ds) {i : Nat} (hi : ds[i]? = some d) :
    ∃ o, os[i]? = some o ∧ Made path (ds.take i) o d := by
  have hlt : i < os.length := by
    rw [← h.length]
    exact (List.getElem?_eq_some_iff.mp hi).1
  exact ⟨os[i], List.getElem?_eq_getElem hlt, h.made (List.getElem?_eq_getElem hlt) hi⟩

/-- What makes an id unique is written behind path and name. -/
theorem AllMade.le_id (h : AllMade path os ds) (hd : d ∈ ds) :
    path ++ ":" ++ d.qualifiedName ≤ d.id := by
  obtain ⟨i, hi⟩ := List.mem_iff_getElem?.mp hd
  obtain ⟨o, -, hmade⟩ := h.exists_origin hi
  obtain ⟨tail, htail⟩ :=
    freshId_eq_append ((ds.take i).map (·.id)) (path ++ ":" ++ d.qualifiedName) o.place.line
  rw [hmade.id, htail]
  exact le_append _ _

/-- The first declaration with a name has the plain id, unless a declaration with another name has
it. -/
theorem AllMade.id_of_first {before after : List Declaration}
    (h : AllMade path os (before ++ d :: after))
    (hfirst : ∀ e ∈ before, e.qualifiedName ≠ d.qualifiedName)
    (hplain : ∀ e ∈ before, e.id = path ++ ":" ++ d.qualifiedName →
      e.qualifiedName = d.qualifiedName) : d.id = path ++ ":" ++ d.qualifiedName := by
  have hd : (before ++ d :: after)[before.length]? = some d := by simp
  obtain ⟨o, -, hmade⟩ := h.exists_origin hd
  rw [List.take_left] at hmade
  have hfree : path ++ ":" ++ d.qualifiedName ∉ before.map (·.id) := by
    intro htaken
    obtain ⟨e, he, hid⟩ := List.mem_map.mp htaken
    exact hfirst e he (hplain e he hid)
  rw [hmade.id, freshId, if_neg (by simpa using hfree)]

/-- **The first declaration with a name has the smallest id**, unless a declaration with another
name has the plain id. -/
theorem AllMade.first_of_foremost (h : AllMade path os ds) (hids : (ds.map (·.id)).Nodup)
    (hd : Foremost ds name d)
    (hplain : ∀ e ∈ ds, e.id = path ++ ":" ++ name → e.qualifiedName = name) :
    ∃ before after, ds = before ++ d :: after ∧ ∀ e ∈ before, e.qualifiedName ≠ name := by
  obtain ⟨first, hfirst⟩ : ∃ e, ds.find? (fun e => e.qualifiedName = name) = some e :=
    Option.isSome_iff_exists.mp (List.find?_isSome.mpr ⟨d, hd.mem, by simpa using hd.named⟩)
  obtain ⟨hnamed, before, after, rfl, hbefore⟩ := List.find?_eq_some_iff_append.mp hfirst
  have hnamed : first.qualifiedName = name := by simpa using hnamed
  have hbefore : ∀ e ∈ before, e.qualifiedName ≠ name := by simpa using hbefore
  have hmem : first ∈ before ++ first :: after := List.mem_append_right before List.mem_cons_self
  -- the first of the name gets the plain id, which every later one extends
  have hid : first.id = path ++ ":" ++ name := by
    rw [← hnamed]
    refine h.id_of_first (by rwa [hnamed]) fun e he heid => ?_
    rw [hnamed] at heid ⊢
    exact hplain e (List.mem_append_left _ he) heid
  have hle : first.id ≤ d.id := by
    rw [hid, ← hd.named]
    exact h.le_id hd.mem
  have hsame : first.id = d.id := le_antisymm hle (hd.least first hmem hnamed)
  obtain rfl := List.inj_on_of_nodup_map hids hmem hd.mem hsame
  exact ⟨before, after, rfl, hbefore⟩

/-! ## Bodies and classes -/

/-- A method that is made at a node of the body. -/
def MethodOf (os : List Origin) (ds : List Declaration) (body : Cursor) (d : Declaration) : Prop :=
  ∃ (i : Nat) (o : Origin), os[i]? = some o ∧ ds[i]? = some d ∧ o.kind = .method ∧
    o.place.parent? = some body

/-- The number of a class and that of a declaration in it: a member, or what is nested in a function
in it. -/
inductive InClass (os : List Origin) (ds : List Declaration) (j : Nat) : Nat → Prop where
  | member {i : Nat} {o : Origin} (ho : os[i]? = some o)
      (hclass : o.scope.classIndex = some j) : InClass os ds j i
  | nested {i k : Nat} {o : Origin} {d : Declaration} (ho : os[i]? = some o) (hd : ds[i]? = some d)
      (hfree : d.container = none) (howner : o.scope.owner = some k)
      (outer : InClass os ds j k) : InClass os ds j i

/-- An index into the declarations before is an index into all of them. -/
theorem getElem?_of_bind_take {α : Type} {ds : List Declaration} {n : Nat} {g : Declaration → α}
    {i : Option Nat} {a : α} (h : (i.bind ((ds.take n)[·]?)).map g = some a) :
    ∃ j e, i = some j ∧ ds[j]? = some e ∧ g e = a := by
  obtain ⟨e, he, ha⟩ := Option.map_eq_some_iff.mp h
  obtain ⟨j, hj, hget⟩ := Option.bind_eq_some_iff.mp he
  rw [List.getElem?_take] at hget
  split at hget
  · exact ⟨j, e, hj, hget, ha⟩
  · cases hget

end Extraction

namespace Registry

variable {r : Registry} {f : FileAnalysis}

/-- **What the walk outwards finds is the class around.** Induction on the walk: it leaves a
declaration that is no member of a class for the one that owns it. -/
theorem exists_inClass_of_climbs (hmade : AllMade f.filePath os f.declarations)
    (hnested : Nested f.declarations) {visited : List Declaration} {c : String}
    (hclimbs : (⟨[f]⟩ : Registry).Climbs (·.container.isSome) d visited)
    (hclass : visited.getLast?.bind (·.container) = some c) {i : Nat}
    (hi : f.declarations[i]? = some d) :
    ∃ j e, InClass os f.declarations j i ∧ f.declarations[j]? = some e ∧ e.name = c := by
  induction hclimbs generalizing i with
  | @halt d hstop =>
    obtain ⟨o, ho, hfrom⟩ := hmade.exists_origin hi
    have hcontainer : d.container = some c := by simpa using hclass
    rw [hfrom.container] at hcontainer
    obtain ⟨j, e, hj, hget, hname⟩ := getElem?_of_bind_take hcontainer
    exact ⟨j, e, .member ho hj, hget, hname⟩
  | @top d hgo houter =>
    have hnone : d.container = none := by simpa using hgo
    rw [List.getLast?_singleton, Option.bind_some, hnone] at hclass
    cases hclass
  | @up d outer visited hgo houter rest ih =>
    obtain ⟨o, ho, hfrom⟩ := hmade.exists_origin hi
    have hne : visited ≠ [] := by cases rest <;> simp
    rw [List.getLast?_cons_of_ne_nil hne] at hclass
    -- the owner is the declaration of the file with the id that is looked up
    obtain ⟨id, hid, hlookup⟩ := Option.bind_eq_some_iff.mp houter
    have henclosing := hfrom.enclosing
    rw [hid] at henclosing
    obtain ⟨k, owner, hk, hget, hownerId⟩ := getElem?_of_bind_take henclosing.symm
    have hmem : outer ∈ f.declarations := by
      simpa [declarations] using mem_declarations_of_declaration? hlookup
    have hsame : owner.id = outer.id := hownerId.trans (id_of_declaration? hlookup).symm
    obtain rfl := List.inj_on_of_nodup_map hnested.nodup (List.mem_of_getElem? hget) hmem hsame
    obtain ⟨j, e, hin, he, hname⟩ := ih hclass hget
    exact ⟨j, e, .nested ho hi (by simpa using hgo) hk hin, he, hname⟩

/-- The class that `this` stands for is around the caller, if the ids of its scopes are those of its
file only. -/
theorem Filed.exists_inClass (h : r.Filed) (hf : f ∈ r.files)
    (hmade : AllMade f.filePath os f.declarations) {i : Nat}
    (hi : f.declarations[i]? = some d) {c : String} (hclass : r.owningClass? d = some c)
    (hapart : ∀ s ∈ (f.scopesOf d).tail, ∀ g ∈ r.files, g.filePath ≠ f.filePath →
      s.id ∉ g.declarations.map (·.id)) :
    ∃ j e, InClass os f.declarations j i ∧ f.declarations[j]? = some e ∧ e.name = c := by
  have hnested := h.nested f hf
  have hmem : d ∈ f.declarations := List.mem_of_getElem? hi
  obtain ⟨-, visited, hclimbs, hown⟩ :=
    settled_of_nested (r := ⟨[f]⟩) (by simpa using hnested)
      (show d ∈ _ by simpa [declarations] using hmem)
  have hsame : r.owningClass? d = (⟨[f]⟩ : Registry).owningClass? d := by
    rw [owningClass?, h.scopesOf_eq hf hmem hapart]
    rfl
  rw [hclass, hown] at hsame
  exact exists_inClass_of_climbs hmade hnested hclimbs hsame.symm hi

/-! ## Calls through `this` -/

/-- **What a call through `this` refers to**: the foremost declaration of the file with the name of
the class and that of the method. -/
theorem Filed.resolveCall?_this_iff (h : r.Filed) (hf : f ∈ r.files) {caller : Declaration}
    (hcaller : caller ∈ f.declarations) (method : String) (module? : Option String) :
    r.resolveCall? caller (.member "this" method) module? = some d ↔
      ∃ c, r.owningClass? caller = some c ∧ Foremost f.declarations (c ++ "." ++ method) d := by
  have hfile : r.file? caller.filePath = some f := by
    rw [(h.located f hf caller hcaller).filePath]
    exact h.file?_eq hf
  have hresolve : r.resolveCall? caller (.member "this" method) module?
      = (r.owningClass? caller).bind fun c =>
        (r.qualified f.filePath (c ++ "." ++ method)).head? := by
    simp [resolveCall?, CallTarget.member, hfile, resolveMember?]
  rw [hresolve, Option.bind_eq_some_iff]
  refine exists_congr fun c => and_congr_right fun _ => ?_
  have hsorted : (r.qualified f.filePath (c ++ "." ++ method)).Pairwise fun a b =>
      Order.text a.id b.id = true :=
    Order.pairwise_sortOn Order.text_total _ _
  -- candidates are sorted by id, so the head is the foremost
  have hforemost : ∀ e, (r.qualified f.filePath (c ++ "." ++ method)).head? = some e →
      Foremost f.declarations (c ++ "." ++ method) e := by
    intro e hhead
    obtain ⟨rest, hrest⟩ := List.head?_eq_some_iff.mp hhead
    obtain ⟨hmem, hnamed⟩ := (h.mem_qualified_iff hf).mp (List.mem_of_mem_head? hhead)
    refine ⟨hmem, hnamed, fun e' he' hnamed' => ?_⟩
    have hqualified := (h.mem_qualified_iff hf).mpr ⟨he', hnamed'⟩
    rw [hrest] at hqualified hsorted
    rcases List.mem_cons.mp hqualified with rfl | hlater
    · exact le_refl _
    · exact of_decide_eq_true ((List.pairwise_cons.mp hsorted).1 e' hlater)
  constructor
  · exact hforemost d
  · intro hd
    have hmem := (h.mem_qualified_iff hf).mpr ⟨hd.mem, hd.named⟩
    obtain ⟨first, hfirst⟩ :=
      Option.isSome_iff_exists.mp (List.isSome_head?.mpr (List.ne_nil_of_mem hmem))
    rw [hfirst, hd.unique (hforemost first hfirst) (h.nested f hf).nodup]

end Registry

/-! ## Extracted files -/

/-- What the declarations of a file are made from. -/
def SourceFile.origins (settings : ExtractionSettings) (file : SourceFile) : List Origin :=
  Extraction.origins (fileScript settings 400 file.tree)

/-- The declarations of an analysed file are made by the origins of its tree. -/
theorem SourceFile.allMade_of_analyze {settings : ExtractionSettings} {rules : List LayerRule}
    {file : SourceFile} {f : FileAnalysis} (h : file.analyze settings rules = .ok f) :
    AllMade f.filePath (file.origins settings) f.declarations := by
  obtain ⟨hpath, hdeclarations, -⟩ := read_of_analyze h
  rw [hpath, hdeclarations]
  exact allMade_extract { path := Path.normalize file.path, settings } file.tree

namespace Registry

/-- **When a call through `this` stays in a body.** In the registry of any source files that have
paths of their own, for a file of it and a source that it was read from: if a call `this.m()` of a
declaration is resolved, then there is a class around the caller, and the call refers to the
declaration of the file with the name of that class and of the method that has the smallest id. The
class is that of the caller's own scopes if no other file has the id of a declaration around the
caller. The declaration is the first one of the file with these names, unless one with other names
has their plain id. So it is a method of the body in question if and only if each other declaration
with these names comes behind one that is. -/
theorem this_call_stays_iff (settings : ExtractionSettings) (rules : List LayerRule)
    (files : List SourceFile) (r : Registry)
    (hr : build (Batch.analyze settings rules files).analyses = r)
    (hpaths : (r.files.map (·.filePath)).Nodup) (file : SourceFile) (f : FileAnalysis)
    (hread : file.analyze settings rules = .ok f) (hf : f ∈ r.files) (i : Nat)
    (caller : Declaration) (hcaller : f.declarations[i]? = some caller) (method : String)
    (module? : Option String) (d : Declaration)
    (hd : r.resolveCall? caller (.member "this" method) module? = some d) :
    ∃ c, r.owningClass? caller = some c ∧
      Foremost f.declarations (c ++ "." ++ method) d ∧
      ((∀ s ∈ (f.scopesOf caller).tail, ∀ g ∈ r.files, g.filePath ≠ f.filePath →
        s.id ∉ g.declarations.map (·.id)) →
        ∃ j e, InClass (file.origins settings) f.declarations j i ∧
          f.declarations[j]? = some e ∧ e.name = c) ∧
      ((∀ e ∈ f.declarations, e.id = f.filePath ++ ":" ++ (c ++ "." ++ method) →
          e.qualifiedName = c ++ "." ++ method) →
        ∃ before after, f.declarations = before ++ d :: after ∧
          ∀ e ∈ before, e.qualifiedName ≠ c ++ "." ++ method) ∧
      ∀ body, MethodOf (file.origins settings) f.declarations body d ↔
        ∀ e ∈ f.declarations, e.qualifiedName = c ++ "." ++ method →
          ¬ MethodOf (file.origins settings) f.declarations body e →
          ∃ e' ∈ f.declarations, e'.qualifiedName = c ++ "." ++ method ∧
            MethodOf (file.origins settings) f.declarations body e' ∧ e'.id < e.id := by
  have h : r.Filed := by
    subst hr
    exact filed_build hpaths
  have hmade := SourceFile.allMade_of_analyze hread
  have hids := (h.nested f hf).nodup
  -- the call goes to the foremost method of that name, whichever class body it is in
  obtain ⟨c, hclass, hforemost⟩ :=
    (h.resolveCall?_this_iff hf (List.mem_of_getElem? hcaller) method module?).mp hd
  exact ⟨c, hclass, hforemost, h.exists_inClass hf hmade hcaller hclass,
    hmade.first_of_foremost hids hforemost, fun body => hforemost.holds_iff hids _⟩

/-! ## Two classes of one name -/

/-- A function on a line of its own. In it is a class `C`, with a method that calls the other
one. -/
def localClass (name : String) (line : Nat) : Tree.Node :=
  let block (kind name body : String) (parts : List Tree.Node) : Tree.Node :=
    .mk { kind, line, endLine := line }
      [.mk { kind := "identifier", text := name, fields := ["name"] } [],
        .mk { kind := body, line, endLine := line, fields := ["body"] } parts]
  let call : Tree.Node :=
    .mk { kind := "call_expression", line, endLine := line }
      [.mk { kind := "member_expression", fields := ["function"] }
        [.mk { kind := "this", text := "this", fields := ["object"] } [],
          .mk { kind := "property_identifier", text := "save", fields := ["property"] } []]]
  block "function_declaration" name "statement_block" [block "class_declaration" "C" "class_body"
    [block "method_definition" "run" "statement_block" [call],
      block "method_definition" "save" "statement_block" []]]

def twinSource :
    SourceFile := ⟨"f.ts", "", .mk { kind := "program" } [localClass "a" 1, localClass "b" 2]⟩

def firstMethod (name : String) : Declaration :=
  strayDeclaration "f.ts" name .method (some "C") (some "f.ts:a")

def secondMethod (name : String) : Declaration :=
  { strayDeclaration "f.ts" name .method (some "C") (some "f.ts:b") with
    id := "f.ts:C." ++ name ++ "@2", span := ⟨2, 2⟩ }

def twinFile : FileAnalysis :=
  { filePath := "f.ts"
    declarations :=
      [strayDeclaration "f.ts" "a" .function none none,
        strayDeclaration "f.ts" "C" .classDecl none (some "f.ts:a"), firstMethod "run",
          firstMethod "save",
            { strayDeclaration "f.ts" "b" .function none none with span := ⟨2, 2⟩ },
        { strayDeclaration "f.ts" "C" .classDecl none
            (some "f.ts:b") with id := "f.ts:C@2", span := ⟨2, 2⟩ },
        secondMethod "run", secondMethod "save"]
    calls :=
      [{ callerId := "f.ts:C.run", target := .member "this" "save", line := 1, via := .direct,
         flags := {} },
        { callerId := "f.ts:C.run@2", target := .member "this" "save", line := 2, via := .direct,
          flags := {} }] }

theorem twinSource_analyze : twinSource.analyze {} [] = .ok twinFile := by decide

/-- The registry of one analysed file holds that file. -/
theorem build_singleton {settings : ExtractionSettings} {rules : List LayerRule} {file : SourceFile}
    {f : FileAnalysis} (hf : file.analyze settings rules = .ok f) :
    build (Batch.analyze settings rules [file]).analyses = ⟨[f]⟩ := by
  simp only [Batch.analyze, List.map_cons, List.map_nil, hf, List.filterMap_cons,
    List.filterMap_nil, Order.sortOn, List.mergeSort_singleton, build]

theorem build_twin : build (Batch.analyze {} [] [twinSource]).analyses = ⟨[twinFile]⟩ :=
  build_singleton twinSource_analyze

/-- Both calls find the method of the first class. -/
theorem resolveCall?_twin {caller : Declaration}
    (hcaller : caller = firstMethod "run" ∨ caller = secondMethod "run") :
    (⟨[twinFile]⟩ : Registry).resolveCall? caller (.member "this" "save") none
      = some (firstMethod "save") := by
  have hqualified : (⟨[twinFile]⟩ : Registry).qualified "f.ts" "C.save"
      = [firstMethod "save", secondMethod "save"] :=
    List.mergeSort_of_pairwise (by decide)
  have hclass : (⟨[twinFile]⟩ : Registry).owningClass? caller = some "C" := by
    rcases hcaller with rfl | rfl <;> decide
  have hfile : (⟨[twinFile]⟩ : Registry).file? caller.filePath = some twinFile := by
    rcases hcaller with rfl | rfl <;> decide
  simp [resolveCall?, CallTarget.member, hfile, resolveMember?, hclass,
    show twinFile.filePath = "f.ts" from rfl, hqualified]

/-- A method of this file is on the line of its body. -/
theorem line_of_methodOf_twin {body : Cursor} {d : Declaration}
    (h : MethodOf (twinSource.origins {}) twinFile.declarations body d) :
    body.line = d.span.startLine := by
  obtain ⟨i, o, ho, hi, hkind, hparent⟩ := h
  let bodyLine (o : Origin) := (o.kind, o.place.parent?.map Cursor.line)
  have hlines : ∀ p ∈ ((twinSource.origins {}).map bodyLine).zip twinFile.declarations,
      p.1.1 = .method → p.1.2 = some p.2.span.startLine := by
    decide
  have hmem : (bodyLine o, d) ∈ ((twinSource.origins {}).map bodyLine).zip
      twinFile.declarations := by
    apply List.mem_of_getElem? (i := i)
    rw [List.getElem?_zip_eq_some, List.getElem?_map, ho]
    exact ⟨rfl, hi⟩
  have hline := hlines _ hmem hkind
  dsimp only [bodyLine] at hline
  rw [hparent] at hline
  exact Option.some_inj.mp hline

/-- The first of the two calls stays, since its class comes first. -/
theorem this_call_stays_iff_first :
    let r := build (Batch.analyze {} [] [twinSource]).analyses
    r.resolveCall? (firstMethod "run") (.member "this" "save") none = some (firstMethod "save") ∧
      (∃ j e, InClass (twinSource.origins {}) twinFile.declarations j 2 ∧
        twinFile.declarations[j]? = some e ∧
        e.name = "C") ∧
      (∃ before after, twinFile.declarations = before ++ firstMethod "save" :: after ∧
        ∀ e ∈ before, e.qualifiedName ≠ "C.save") ∧
      ∃ body, MethodOf (twinSource.origins {}) twinFile.declarations body (firstMethod "run") ∧
        MethodOf (twinSource.origins {}) twinFile.declarations body (firstMethod "save") := by
  rw [build_twin]
  have hcall := resolveCall?_twin (.inl rfl)
  obtain ⟨c, hclass, -, haround, hfirst, hbody⟩ :=
    this_call_stays_iff {} [] [twinSource] _ build_twin
      (by decide) twinSource twinFile twinSource_analyze
      List.mem_cons_self 2 (firstMethod "run") rfl "save" none (firstMethod "save") hcall
  obtain rfl : "C" = c := Option.some_inj.mp hclass
  refine ⟨hcall, haround (by decide), hfirst (by decide), _, ⟨2, _, rfl, rfl, rfl, rfl⟩,
    (hbody _).mpr ?_⟩
  -- only the second method with the name is not in the body, and its id is larger
  intro e he hnamed hnot
  have hcases : ∀ e ∈ twinFile.declarations, e.qualifiedName = "C.save" →
      e = firstMethod "save" ∨ firstMethod "save" ∈ twinFile.declarations ∧
        (firstMethod "save").id < e.id := by
    decide
  rcases hcases e he hnamed with rfl | ⟨hmem, hlt⟩
  · exact absurd ⟨3, _, rfl, rfl, rfl, rfl⟩ hnot
  · exact ⟨firstMethod "save", hmem, by decide, ⟨3, _, rfl, rfl, rfl, rfl⟩, hlt⟩

/-- **A call that leaves its class.** The second `run` calls `this.save()`, and its class has such a
method, but the call refers to the method of the first class. -/
theorem this_call_leaves_class :
    let r := build (Batch.analyze {} [] [twinSource]).analyses
    ∃ body, MethodOf (twinSource.origins {}) twinFile.declarations body (secondMethod "run") ∧
      MethodOf (twinSource.origins {}) twinFile.declarations body (secondMethod "save") ∧
      r.resolveCall? (secondMethod "run") (.member "this" "save") none = some (firstMethod "save") ∧
      ¬ MethodOf (twinSource.origins {}) twinFile.declarations body (firstMethod "save") := by
  rw [build_twin]
  refine ⟨_, ⟨6, _, rfl, rfl, rfl, rfl⟩, ⟨7, _, rfl, rfl, rfl, rfl⟩, resolveCall?_twin (.inr rfl),
    fun hfirst => ?_⟩
  -- the body is on the second line, and the method on the first one
  exact absurd (line_of_methodOf_twin hfirst) (by decide)

end Registry

end CallAtlas
