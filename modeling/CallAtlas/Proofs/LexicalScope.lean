import CallAtlas.Proofs.ExtractionLayout
import CallAtlas.Proofs.ScopeChain

/-!
# Proofs.LexicalScope — a plain name is looked for in the scopes around the caller

A plain name refers to the declaration that is nested in the nearest scope around the caller, else
to one at the top of the file, else to an export. `Scoped` says what this rule promises, whatever
the scopes are. Resolution keeps the promise for the scopes that it walks through
(`Filed.scoped_resolveIn?`).

These are not always the scopes of the file. The walk outwards looks ids up among all files, and the
id of a declaration is its path, a colon and its name, where both may have colons of their own. So
two files with different paths can share ids, and then the walk goes through the other file and may
come back to a scope that is not around the caller.

* `Scoped` — what a plain call may find.
* `Filed.climbs_of_apart` — a walk stays in its file if no other file has the ids that it looks up.
* `plain_call_scoped_iff` — when a plain call finds what the scopes of its own file promise.
* `stray_call_not_scoped` — a walk that strays.
-/

namespace CallAtlas

open Extraction (Nested Located)

/-- A declaration and those around it, looked up in its file only. -/
def FileAnalysis.scopesOf (f : FileAnalysis) (d : Declaration) : List Declaration :=
  (⟨[f]⟩ : Registry).scopesOf d

/-- A name without a dot is not that of a member. -/
theorem Declaration.qualifiedName_eq_iff {d : Declaration} {name : String}
    (hname : '.' ∉ name.toList) : d.qualifiedName = name ↔ d.name = name ∧ d.container = none := by
  unfold qualifiedName
  split
  · next c hc =>
    refine ⟨?_, fun h => by simp [hc] at h⟩
    rintro rfl
    simp at hname
  · next hc => simp [hc]

theorem Declaration.enclosing_of_isTopLevel {d : Declaration}
    (h : d.isTopLevel = true) : d.enclosing = none :=
  Option.isNone_iff_eq_none.mp (Bool.and_eq_true_iff.mp h).1

namespace Registry

variable {r : Registry} {f : FileAnalysis} {d : Declaration} {name path : String}
  {module? : Option String}
  {scopes : List Declaration}

/-! ## Files with paths of their own -/

/-- No two files share a path. Declarations know the path of their file and are nested in it. -/
structure Filed (r : Registry) : Prop where
  paths : (r.files.map (·.filePath)).Nodup
  located : ∀ f ∈ r.files, ∀ d ∈ f.declarations, Located f.filePath d
  nested : ∀ f ∈ r.files, Nested f.declarations

namespace Filed

theorem file_eq (h : r.Filed) (hf : f ∈ r.files) {g : FileAnalysis} (hg : g ∈ r.files)
    (hpath : g.filePath = f.filePath) : g = f :=
  List.inj_on_of_nodup_map h.paths hg hf hpath

/-- In a filed registry a file is found by its path. -/
theorem file?_eq (h : r.Filed) (hf : f ∈ r.files) : r.file? f.filePath = some f := by
  obtain ⟨g, hg⟩ : ∃ g, r.file? f.filePath = some g :=
    Option.isSome_iff_exists.mp (List.find?_isSome.mpr ⟨f, List.mem_reverse.mpr hf, by simp⟩)
  have hpath : g.filePath = f.filePath := by simpa using List.find?_some hg
  rw [hg, h.file_eq hf (mem_files_of_file? hg) hpath]

/-- The candidates for a qualified name are the declarations of the file with that name. -/
theorem mem_qualified_iff (h : r.Filed) (hf : f ∈ r.files) :
    d ∈ r.qualified f.filePath name ↔ d ∈ f.declarations ∧ d.qualifiedName = name := by
  rw [qualified, Order.mem_sortOn, List.mem_flatMap]
  constructor
  · rintro ⟨g, hg, hd⟩
    obtain ⟨hg, hpath⟩ := List.mem_filter.mp hg
    obtain ⟨hd, hqualified⟩ := List.mem_filter.mp hd
    obtain rfl := h.file_eq hf hg (by simpa using hpath)
    exact ⟨hd, by simpa using hqualified⟩
  · rintro ⟨hd, hqualified⟩
    exact ⟨f, List.mem_filter.mpr ⟨hf, by simp⟩,
      List.mem_filter.mpr ⟨hd, by simpa using hqualified⟩⟩

/-- The candidates for a plain name are no members. -/
theorem mem_qualified (h : r.Filed) (hf : f ∈ r.files) (hname : '.' ∉ name.toList) :
    d ∈ r.qualified f.filePath name ↔ d ∈ f.declarations ∧ d.name = name ∧ d.container = none := by
  rw [h.mem_qualified_iff hf, Declaration.qualifiedName_eq_iff hname]

/-- An id that no other file has is looked up in the file. -/
theorem declaration?_eq (h : r.Filed) (hf : f ∈ r.files) (hd : d ∈ f.declarations)
    (hapart : ∀ g ∈ r.files, g.filePath ≠ f.filePath → d.id ∉ g.declarations.map (·.id)) :
    r.declaration? d.id = some d := by
  obtain ⟨e, he⟩ : ∃ e, r.declaration? d.id = some e :=
    Option.isSome_iff_exists.mp
      (List.find?_isSome.mpr ⟨d, List.mem_reverse.mpr (mem_declarations_of_file hf hd), by simp⟩)
  have hid : e.id = d.id := id_of_declaration? he
  obtain ⟨g, hg, hmem⟩ := List.mem_flatMap.mp (mem_declarations_of_declaration? he)
  have hpath : g.filePath = f.filePath := by
    by_contra hne
    exact hapart g hg hne (List.mem_map.mpr ⟨e, hmem, hid⟩)
  obtain rfl := h.file_eq hf hg hpath
  rw [he, List.inj_on_of_nodup_map (h.nested g hg).nodup hmem hd hid]

end Filed

/-! ## Exports -/

theorem exported_of_exportOf? (h : r.exportOf? path name = some d) :
    d.exported = true ∧ d.isTopLevel = true := by
  simpa using List.find?_some h

/-- A default export is exported and at the top level, in each of the ways it is found. -/
theorem exported_of_defaultExportOf? (h : r.defaultExportOf? path name = some d) :
    d.exported = true ∧ d.isTopLevel = true := by
  obtain ⟨f, -, h⟩ := Option.bind_eq_some_iff.mp h
  rcases eq_some_of_orElse h with h | h
  · exact exported_of_exportOf? h
  · rcases eq_some_of_orElse h with h | h
    · exact exported_of_exportOf? h
    · split at h
      · next only honly =>
        obtain rfl : only = d := Option.some.inj h
        have hmem : only ∈ [only] := List.mem_singleton_self only
        rw [← honly] at hmem
        obtain ⟨hexported, -⟩ := Bool.and_eq_true_iff.mp (List.mem_filter.mp hmem).2
        exact Bool.and_eq_true_iff.mp hexported
      · cases h

/-- The closest global is exported and at the top level. -/
theorem exported_of_closestGlobal? (h : r.closestGlobal? path name = some d) :
    d.exported = true ∧ d.isTopLevel = true := by
  unfold closestGlobal? at h
  split at h
  · cases h
  · next first rest hcandidates =>
    have hmem := foldl_choose_mem (nearer_cases path) first rest
    rw [Option.some.inj h, ← hcandidates] at hmem
    obtain ⟨hnamed, hexported⟩ := List.mem_filter.mp hmem
    have htop := (List.mem_filter.mp (List.mem_mergeSort.mp hnamed)).2
    exact ⟨(Bool.and_eq_true_iff.mp hexported).1, (Bool.and_eq_true_iff.mp htop).1⟩

/-- **A name that no scope holds is that of an export.** -/
theorem exported_of_resolveFree? (h : r.resolveFree? f name module? = some d) :
    d.exported = true ∧ d.isTopLevel = true := by
  unfold resolveFree? at h
  split at h
  · split at h
    · cases h
    · split at h
      · split at h
        · exact exported_of_defaultExportOf? h
        · exact exported_of_exportOf? h
      · cases h
      · exact exported_of_closestGlobal? h
  · exact exported_of_closestGlobal? h

/-- A value import of a name is found among the bindings of the file. -/
theorem exists_importedBinding? {i : ImportInfo} (hi : i ∈ f.imports) (htypes : i.typeOnly = false)
    (hbinding : ∃ b ∈ i.bindings, b.localName = name) :
    ∃ b, importedBinding? f (some i.source) name = some b := by
  obtain ⟨b, hb, hlocal⟩ := hbinding
  have hfound : (i.binding? name).isSome = true :=
    List.find?_isSome.mpr ⟨b, hb, by simpa using hlocal⟩
  have himport : i ∈ f.imports.filter fun j => j.source = i.source && !j.typeOnly :=
    List.mem_filter.mpr ⟨hi, by simp [htypes]⟩
  exact Option.isSome_iff_exists.mp (List.findSome?_isSome_iff.mpr ⟨i, himport, hfound⟩)

/-- A name that is imported from a package resolves to nothing. -/
theorem resolveFree?_of_package {i : ImportInfo} (hi : i ∈ f.imports) (htypes : i.typeOnly = false)
    (hbinding : ∃ b ∈ i.bindings, b.localName = name)
    (hpackage : r.resolveModule f.filePath i.source = .package) :
    r.resolveFree? f name (some i.source) = none := by
  obtain ⟨b, hb⟩ := exists_importedBinding? hi htypes hbinding
  simp [resolveFree?, hb, hpackage]

/-! ## Scopes -/

/-- The declaration with a name that is nested in the first of the scopes that holds any. -/
def nestedIn? (r : Registry) (path name : String)
    (scopes : List Declaration) : Option Declaration :=
  scopes.findSome? fun s => (r.qualified path name).find? (·.enclosing = some s.id)

/-- What a plain name refers to, if these are the scopes around the caller. -/
def resolveIn? (r : Registry) (f : FileAnalysis) (name : String) (module? : Option String)
    (scopes : List Declaration) : Option Declaration :=
  (r.nestedIn? f.filePath name scopes).or
    (((r.qualified f.filePath name).find? (·.isTopLevel)).or (r.resolveFree? f name module?))

/-- Resolution of a plain call in a filed registry goes along the scopes of the caller. -/
theorem Filed.resolveCall?_eq (h : r.Filed) (hf : f ∈ r.files) {caller : Declaration}
    (hcaller : caller ∈ f.declarations) (name : String) (module? : Option String) :
    r.resolveCall? caller (.plain name) module?
      = r.resolveIn? f name module? (r.scopesOf caller) := by
  have hfile : r.file? caller.filePath = some f := by
    rw [(h.located f hf caller hcaller).filePath]
    exact h.file?_eq hf
  have hscope : r.closestScope? caller (r.qualified f.filePath name)
      = (r.nestedIn? f.filePath name (r.scopesOf caller)).or
        ((r.qualified f.filePath name).find? (·.isTopLevel)) := by
    rw [closestScope?, closest, Option.orElse_eq_orElse, Option.orElse_eq_or, nestedIn?]
  simp only [resolveCall?, CallTarget.plain, hfile, Option.bind_eq_bind, Option.bind_some,
    resolvePlain?, hscope, resolveIn?, ← Option.or_assoc]
  split
  · next hfound => rw [hfound, Option.some_or]
  · next hmissed => rw [hmissed, Option.none_or]

/-- What is found is nested in the first scope that holds a candidate. -/
theorem exists_scope_of_nestedIn? (h : r.nestedIn? path name scopes = some d) :
    ∃ (k : Nat) (s : Declaration), scopes[k]? = some s ∧
      (r.qualified path name).find? (·.enclosing = some s.id) = some d ∧
      ∀ j < k, ∀ t, scopes[j]? = some t → ∀ c ∈ r.qualified path name, c.enclosing ≠ some t.id := by
  obtain ⟨before, s, after, rfl, hfind, hbefore⟩ := List.findSome?_eq_some_iff.mp h
  refine ⟨before.length, s, by simp, hfind, fun j hj t ht c hc hinside => ?_⟩
  rw [List.getElem?_append_left hj] at ht
  have hmissed := List.find?_eq_none.mp (hbefore t (List.mem_of_getElem? ht)) c hc
  exact hmissed (by simpa using hinside)

/-- A candidate in some scope is found, or another one in a nearer scope. Induction on the
scopes. -/
theorem exists_nestedIn? {c : Declaration} (hc : c ∈ r.qualified path name) {k : Nat}
    {s : Declaration} (hs : scopes[k]? = some s) (hinside : c.enclosing = some s.id) :
    ∃ d, r.nestedIn? path name scopes = some d ∧ ∃ j ≤ k, ∃ t, scopes[j]? = some t ∧
      d.enclosing = some t.id := by
  -- along the scopes: an earlier scope that has a candidate wins
  induction scopes generalizing k with
  | nil => simp at hs
  | cons first rest ih =>
    cases hfirst : (r.qualified path name).find? (·.enclosing = some first.id) with
    | some d =>
      refine ⟨d, by simp [nestedIn?, hfirst], 0, Nat.zero_le k, first, rfl, ?_⟩
      simpa using List.find?_some hfirst
    | none =>
      cases k with
      | zero =>
        obtain rfl : first = s := by simpa using hs
        exact absurd (by simpa using hinside) (List.find?_eq_none.mp hfirst c hc)
      | succ k =>
        obtain ⟨d, hd, j, hj, t, ht, hnested⟩ := ih (by simpa using hs)
        refine ⟨d, ?_, j + 1, Nat.succ_le_succ hj, t, by simpa using ht, hnested⟩
        rw [nestedIn?, List.findSome?_cons, hfirst]
        exact hd

theorem resolveIn?_of_nestedIn? (h : r.nestedIn? f.filePath name scopes = some d) :
    r.resolveIn? f name module? scopes = some d := by
  rw [resolveIn?, h, Option.some_or]

/-- What no scope holds is at the top of the file or an export. -/
theorem resolveIn?_cases (h : r.resolveIn? f name module? scopes = some d) :
    r.nestedIn? f.filePath name scopes = some d ∨
      r.nestedIn? f.filePath name scopes = none ∧ d.isTopLevel = true ∧
        (d ∈ r.qualified f.filePath name ∨ d.exported = true) := by
  refine (Option.or_eq_some_iff.mp h).imp_right fun ⟨hmissed, h⟩ => ⟨hmissed, ?_⟩
  rcases Option.or_eq_some_iff.mp h with h | ⟨-, h⟩
  · exact ⟨by simpa using List.find?_some h, Or.inl (List.mem_of_find?_eq_some h)⟩
  · obtain ⟨hexported, htop⟩ := exported_of_resolveFree? h
    exact ⟨htop, Or.inr hexported⟩

/-- What a call of a plain name from a file may find, if these are the scopes around the caller. -/
structure Scoped (r : Registry) (f : FileAnalysis) (scopes : List Declaration) (name : String)
    (module? : Option String) (found : Option Declaration) : Prop where
  /-- In the file it is at the top or in a scope. -/
  inFile : ∀ d, found = some d → d.filePath = f.filePath →
    d.isTopLevel = true ∨ ∃ s ∈ scopes, d.enclosing = some s.id
  /-- In another file it is an export. -/
  elsewhere : ∀ d, found = some d → d.filePath ≠ f.filePath →
    d.exported = true ∧ d.isTopLevel = true
  /-- Something in a scope hides all that is farther away. -/
  nearest : ∀ c ∈ f.declarations, c.name = name → c.container = none →
    ∀ (k : Nat) (s : Declaration), scopes[k]? = some s → c.enclosing = some s.id →
      ∃ d, found = some d ∧ ∃ j ≤ k, ∃ t, scopes[j]? = some t ∧ d.enclosing = some t.id
  /-- What is imported from a package and not declared in the file is not found. -/
  package : (∀ c ∈ f.declarations, c.name = name → c.container = none →
      c.isTopLevel = false ∧ ∀ s ∈ scopes, c.enclosing ≠ some s.id) →
    ∀ i ∈ f.imports, i.typeOnly = false → (∃ b ∈ i.bindings, b.localName = name) →
      module? = some i.source →
      r.resolveModule f.filePath i.source = .package → found = none

/-- **Resolution keeps the promise** for any scopes that it is given. -/
theorem Filed.scoped_resolveIn? (h : r.Filed) (hf : f ∈ r.files) (hname : '.' ∉ name.toList)
    (module? : Option String) (scopes : List Declaration) :
    r.Scoped f scopes name module? (r.resolveIn? f name module? scopes) where
  inFile d hd _ := by
    rcases resolveIn?_cases hd with hnested | ⟨-, htop, -⟩
    · obtain ⟨k, s, hs, hfind, -⟩ := exists_scope_of_nestedIn? hnested
      exact Or.inr ⟨s, List.mem_of_getElem? hs, by simpa using List.find?_some hfind⟩
    · exact Or.inl htop
  elsewhere d hd hpath := by
    have hnot : d ∉ r.qualified f.filePath name := fun hmem =>
      hpath (h.located f hf d ((h.mem_qualified hf hname).mp hmem).1).filePath
    rcases resolveIn?_cases hd with hnested | ⟨-, htop, hmem | hexported⟩
    · obtain ⟨k, s, -, hfind, -⟩ := exists_scope_of_nestedIn? hnested
      exact absurd (List.mem_of_find?_eq_some hfind) hnot
    · exact absurd hmem hnot
    · exact ⟨hexported, htop⟩
  nearest c hc hcname hcontainer k s hs hinside := by
    obtain ⟨d, hd, hnearer⟩ :=
      exists_nestedIn? ((h.mem_qualified hf hname).mpr ⟨hc, hcname, hcontainer⟩) hs hinside
    exact ⟨d, resolveIn?_of_nestedIn? hd, hnearer⟩
  -- nothing nested and nothing at the top level, so the import decides
  package := by
    rintro hfree i hi htypes hbinding rfl hpackage
    have hnested : r.nestedIn? f.filePath name scopes = none := by
      refine List.findSome?_eq_none_iff.mpr fun s hs => List.find?_eq_none.mpr fun c hc => ?_
      obtain ⟨hdeclared, hcname, hcontainer⟩ := (h.mem_qualified hf hname).mp hc
      simpa using (hfree c hdeclared hcname hcontainer).2 s hs
    have htop : (r.qualified f.filePath name).find? (·.isTopLevel) = none := by
      refine List.find?_eq_none.mpr fun c hc => ?_
      obtain ⟨hdeclared, hcname, hcontainer⟩ := (h.mem_qualified hf hname).mp hc
      simp [(hfree c hdeclared hcname hcontainer).1]
    rw [resolveIn?, hnested, htop, resolveFree?_of_package hi htypes hbinding hpackage]
    rfl

/-- **The promise tells what nested declaration is found.** If what is found along some scopes keeps
the promise for others, both lead to the same nested declaration. -/
theorem Filed.nestedIn?_eq_of_scoped (h : r.Filed) (hf : f ∈ r.files) (hname : '.' ∉ name.toList)
    {own : List Declaration}
    (hscoped : r.Scoped f own name module? (r.resolveIn? f name module? scopes)) :
    r.nestedIn? f.filePath name scopes = r.nestedIn? f.filePath name own := by
  have hnearest : ∀ c ∈ r.qualified f.filePath name, ∀ (k : Nat) (s : Declaration),
      own[k]? = some s → c.enclosing = some s.id →
        ∃ d, r.resolveIn? f name module? scopes = some d ∧
          ∃ j ≤ k, ∃ t, own[j]? = some t ∧ d.enclosing = some t.id := by
    intro c hc
    obtain ⟨hdeclared, hcname, hcontainer⟩ := (h.mem_qualified hf hname).mp hc
    exact hscoped.nearest c hdeclared hcname hcontainer
  cases hnested : r.nestedIn? f.filePath name scopes with
  | none =>
    -- what is found is at the top of a file, so the other scopes hold nothing
    symm
    by_contra hsome
    obtain ⟨b, hb⟩ := Option.ne_none_iff_exists'.mp hsome
    obtain ⟨k, s, hs, hfind, -⟩ := exists_scope_of_nestedIn? hb
    obtain ⟨d, hd, -, -, t, -, hinside⟩ :=
      hnearest b (List.mem_of_find?_eq_some hfind) k s hs (by simpa using List.find?_some hfind)
    rcases resolveIn?_cases hd with hsome | ⟨-, htop, -⟩
    · rw [hnested] at hsome
      cases hsome
    · rw [Declaration.enclosing_of_isTopLevel htop] at hinside
      cases hinside
  | some a =>
    have hfound : r.resolveIn? f name module? scopes = some a := resolveIn?_of_nestedIn? hnested
    obtain ⟨-, s, -, hfinda, -⟩ := exists_scope_of_nestedIn? hnested
    have hmem : a ∈ r.qualified f.filePath name := List.mem_of_find?_eq_some hfinda
    have hinside : a.enclosing = some s.id := by simpa using List.find?_some hfinda
    have hpath : a.filePath = f.filePath :=
      (h.located f hf a ((h.mem_qualified hf hname).mp hmem).1).filePath
    obtain ⟨k, t, ht, hat⟩ : ∃ (k : Nat) (t : Declaration), own[k]? = some t ∧
        a.enclosing = some t.id := by
      rcases hscoped.inFile a hfound hpath with htop | ⟨t, ht, hat⟩
      · rw [Declaration.enclosing_of_isTopLevel htop] at hinside
        cases hinside
      · obtain ⟨k, hk⟩ := List.mem_iff_getElem?.mp ht
        exact ⟨k, t, hk, hat⟩
    obtain ⟨b, hb, -⟩ := exists_nestedIn? hmem ht hat
    obtain ⟨m, u, hu, hfindb, hbefore⟩ := exists_scope_of_nestedIn? hb
    -- `a` is in a scope no farther than that of `b`, which is the first with a candidate
    obtain ⟨a', ha', j, hj, v, hv, hav⟩ :=
      hnearest b (List.mem_of_find?_eq_some hfindb) m u hu (by simpa using List.find?_some hfindb)
    obtain rfl := Option.some.inj (hfound.symm.trans ha')
    obtain rfl : j = m := by
      by_contra hne
      exact hbefore j (Nat.lt_of_le_of_ne hj hne) v hv a hmem hav
    obtain rfl := Option.some.inj (hu.symm.trans hv)
    rw [hb, ← hfinda, ← hfindb, ← hinside, ← hav]

/-! ## Walks that stay in a file -/

/-- **A walk stays in its file** if no other file has the ids that it looks up. Induction on the
walk. -/
theorem Filed.climbs_of_apart (h : r.Filed) (hf : f ∈ r.files) {stop : Declaration → Bool}
    {visited : List Declaration}
    (hclimbs : (⟨[f]⟩ : Registry).Climbs stop d visited) (hd : d ∈ f.declarations)
    (hapart : ∀ s ∈ visited.tail, ∀ g ∈ r.files, g.filePath ≠ f.filePath →
      s.id ∉ g.declarations.map (·.id)) : r.Climbs stop d visited := by
  induction hclimbs with
  | halt hstop => exact .halt hstop
  | @top d hgo houter =>
    -- a declaration around this one would be in the file
    have hnone : d.enclosing = none := by
      by_contra hsome
      obtain ⟨id, hid⟩ := Option.ne_none_iff_exists'.mp hsome
      obtain ⟨e, he, rfl⟩ := List.mem_map.mp ((h.nested f hf).enclosing_mem hd hid)
      have hlookup := List.find?_eq_none.mp (show (⟨[f]⟩ : Registry).declaration? e.id = none by
        rw [outer?, hid] at houter
        exact houter)
      exact hlookup e (by simpa [declarations] using he) (by simp)
    exact .top hgo (by rw [outer?, hnone]; rfl)
  | @up d outer visited hgo houter rest ih =>
    obtain ⟨id, hid, hlookup⟩ := Option.bind_eq_some_iff.mp houter
    have hmem : outer ∈ f.declarations := by
      simpa [declarations] using mem_declarations_of_declaration? hlookup
    obtain rfl : outer.id = id := id_of_declaration? hlookup
    have hsame : r.outer? d = some outer := by
      rw [outer?, hid]
      exact h.declaration?_eq hf hmem (hapart outer rest.mem_self)
    exact .up hgo hsame (ih hmem fun s hs => hapart s (List.mem_of_mem_tail hs))

theorem Filed.climbs_scopesOf (h : r.Filed) (hf : f ∈ r.files) {caller : Declaration}
    (hcaller : caller ∈ f.declarations) :
    (⟨[f]⟩ : Registry).Climbs (fun _ => false) caller (f.scopesOf caller) :=
  (settled_of_nested (by simpa using h.nested f hf) (by simpa [declarations] using hcaller)).scopes

/-- Where no other file has an id of the scopes, the scopes are those of the file. -/
theorem Filed.scopesOf_eq (h : r.Filed) (hf : f ∈ r.files) {caller : Declaration}
    (hcaller : caller ∈ f.declarations)
    (hapart : ∀ s ∈ (f.scopesOf caller).tail, ∀ g ∈ r.files, g.filePath ≠ f.filePath →
      s.id ∉ g.declarations.map (·.id)) : r.scopesOf caller = f.scopesOf caller := by
  have hwalk := (settled_of_nested h.nested (mem_declarations_of_file hf hcaller)).scopes
  exact hwalk.unique (h.climbs_of_apart hf (h.climbs_scopesOf hf hcaller) hcaller hapart)

/-- What comes before the first colon is known from the whole. -/
theorem eq_of_append_colon {p q x y : String} (hp : ':' ∉ p.toList) (hq : ':' ∉ q.toList)
    (h : p ++ ":" ++ x = q ++ ":" ++ y) : p = q := by
  have hcut : ∀ {s t : String}, ':' ∉ s.toList →
      (s ++ ":" ++ t).toList.takeWhile (· ≠ ':') = s.toList := by
    intro s t hs
    have hall : ∀ c ∈ s.toList, decide (c ≠ ':') = true := by
      intro c hc
      simpa using fun heq : c = ':' => hs (heq ▸ hc)
    rw [String.toList_append, String.toList_append, List.append_assoc,
      List.takeWhile_append_of_pos hall]
    simp
  exact String.toList_inj.mp ((hcut hp).symm.trans (h ▸ hcut hq))

/-- Ids of different files differ if no path has a colon. -/
theorem Filed.apart_of_colon_free (h : r.Filed) (hf : f ∈ r.files)
    (hpaths : ∀ g ∈ r.files, ':' ∉ g.filePath.toList) (hd : d ∈ f.declarations) :
    ∀ g ∈ r.files, g.filePath ≠ f.filePath → d.id ∉ g.declarations.map (·.id) := by
  intro g hg hne hid
  obtain ⟨e, he, hsame⟩ := List.mem_map.mp hid
  obtain ⟨x, hx⟩ := (h.located f hf d hd).id
  obtain ⟨y, hy⟩ := (h.located g hg e he).id
  exact hne (eq_of_append_colon (hpaths g hg) (hpaths f hf) (hy.symm.trans (hsame.trans hx)))

/-! ## Extracted files -/

/-- The declarations of an analysed file carry its path. -/
theorem located_of_analyze {settings : ExtractionSettings} {rules : List LayerRule}
    {file : SourceFile} (h : file.analyze settings rules = .ok f) :
    ∀ d ∈ f.declarations, Located f.filePath d := by
  obtain ⟨hpath, hdeclarations, -⟩ := SourceFile.read_of_analyze h
  rw [hpath, hdeclarations]
  exact Extraction.extract_located _ _

/-- The registry of analysed files with distinct paths is filed. -/
theorem filed_build {settings : ExtractionSettings} {rules : List LayerRule}
    {files : List SourceFile}
    (hpaths : ((build (Batch.analyze settings rules files).analyses).files.map
      (·.filePath)).Nodup) :
    (build (Batch.analyze settings rules files).analyses).Filed where
  paths := hpaths
  located f hf := by
    obtain ⟨file, -, hread⟩ := exists_analyze_of_mem_build hf
    exact located_of_analyze hread
  nested f hf := (recorded_of_mem_build hf).nested

/-- **When plain calls respect scopes.** In the registry of any source files that have paths of
their own, for a caller and a name without a dot: the scopes of the caller in its file are walked
through to the end. A call of the name finds what they promise if and only if the walk that is made,
among all files, leads to the same nested declaration as they do. It does if no other file has the
id of a declaration around the caller, and so it does for all callers if no path has a colon. -/
theorem plain_call_scoped_iff (settings : ExtractionSettings) (rules : List LayerRule)
    (files : List SourceFile) :
    let r := build (Batch.analyze settings rules files).analyses
    (r.files.map (·.filePath)).Nodup →
      ∀ f ∈ r.files, ∀ caller ∈ f.declarations, ∀ name module?, '.' ∉ name.toList →
        let own := f.scopesOf caller
        let found := r.resolveCall? caller (.plain name) module?
        (⟨[f]⟩ : Registry).Climbs (fun _ => false) caller own ∧
          (r.Scoped f own name module? found ↔
            r.nestedIn? f.filePath name (r.scopesOf caller) = r.nestedIn? f.filePath name own) ∧
          ((∀ s ∈ own.tail, ∀ g ∈ r.files, g.filePath ≠ f.filePath →
            s.id ∉ g.declarations.map (·.id)) →
            r.Scoped f own name module? found) ∧
          ((∀ g ∈ r.files, ':' ∉ g.filePath.toList) → r.Scoped f own name module? found) := by
  intro r hpaths f hf caller hcaller name module? hname own found
  have h : r.Filed := filed_build hpaths
  have hfound : found = r.resolveIn? f name module? (r.scopesOf caller) :=
    h.resolveCall?_eq hf hcaller name module?
  have hwalk : (⟨[f]⟩ : Registry).Climbs (fun _ => false) caller own := h.climbs_scopesOf hf hcaller
  -- the steps after the nested search do not look at the scopes
  have hexact : r.Scoped f own name module? found ↔
      r.nestedIn? f.filePath name (r.scopesOf caller) = r.nestedIn? f.filePath name own := by
    rw [hfound]
    refine ⟨h.nestedIn?_eq_of_scoped hf hname, fun hsame => ?_⟩
    have hown : r.resolveIn? f name module? (r.scopesOf caller)
        = r.resolveIn? f name module? own := by
      rw [resolveIn?, hsame, resolveIn?]
    rw [hown]
    exact h.scoped_resolveIn? hf hname module? own
  have hids : (∀ s ∈ own.tail, ∀ g ∈ r.files, g.filePath ≠ f.filePath →
      s.id ∉ g.declarations.map (·.id)) → r.Scoped f own name module? found := by
    intro hapart
    rw [hexact, h.scopesOf_eq hf hcaller hapart]
  refine ⟨hwalk, hexact, hids, fun hcolons => hids fun s hs => ?_⟩
  have hdeclared : own ⊆ f.declarations := by
    simpa [declarations] using hwalk.subset (by simpa [declarations] using hcaller)
  exact h.apart_of_colon_free hf hcolons (hdeclared (List.mem_of_mem_tail hs))

/-! A class with two methods in one file. The first method holds `g`, which calls `foo`, and the
second one holds `foo`. In the other file, the second method of a class holds a class with the first
method. All methods have computed names, with comments in them, so that the ids of the methods are
the same in both files if the path of the other file is chosen for it. -/

def strayTree (kind name : String) (body : List Tree.Node) : Tree.Node :=
  let bodyKind := if kind = "class_declaration" then "class_body" else "statement_block"
  .mk { kind }
    [.mk { kind := "identifier", text := name, fields := ["name"] } [],
      .mk { kind := bodyKind, fields := ["body"] } body]

def straySource : SourceFile :=
  let call : Tree.Node :=
    .mk { kind := "call_expression" } [.mk { kind := "identifier", text := "foo",
                                             fields := ["function"] } []]
  ⟨"a.ts", "", .mk { kind := "program" } [strayTree "class_declaration" "C"
    [strayTree "method_definition" "[/*.ts:D.[/**/1]" [strayTree "function_declaration" "g" [call]],
      strayTree "method_definition" "[/*.ts:D.[/**/2]"
        [strayTree "function_declaration" "foo" []]]]⟩

def otherSource (path : String) : SourceFile :=
  ⟨path, "", .mk { kind := "program" } [strayTree "class_declaration" "D"
    [strayTree "method_definition" "[/**/2]"
      [strayTree "class_declaration" "D" [strayTree "method_definition" "[/**/1]" []]]]]⟩

/-- All lies on one line and is not exported. -/
def strayDeclaration (path name : String) (kind : DeclarationKind)
    (container enclosing : Option String) : Declaration :=
  { id := path ++ ":" ++ (container.map (· ++ ".")).getD "" ++ name, name, kind, exported := false
    signature := if kind = .classDecl then
      "" else "()", span := ⟨1, 1⟩, filePath := path, container, enclosing }

def strayCaller : Declaration :=
  strayDeclaration "a.ts" "g" .function none (some "a.ts:C.[/*.ts:D.[/**/1]")

def strayCallee : Declaration :=
  strayDeclaration "a.ts" "foo" .function none (some "a.ts:C.[/*.ts:D.[/**/2]")

def strayFile : FileAnalysis :=
  { filePath := "a.ts"
    declarations :=
      [strayDeclaration "a.ts" "C" .classDecl none none,
        strayDeclaration "a.ts" "[/*.ts:D.[/**/1]" .method (some "C") none, strayCaller,
        strayDeclaration "a.ts" "[/*.ts:D.[/**/2]" .method (some "C") none, strayCallee]
    calls := [{ callerId := "a.ts:g", target := .plain "foo", line := 1, via := .direct,
                flags := {} }] }

def otherFile (path : String) : FileAnalysis :=
  { filePath := path
    declarations :=
      [strayDeclaration path "D" .classDecl none none,
        strayDeclaration path "[/**/2]" .method (some "D") none,
          { strayDeclaration path "D" .classDecl none
              (some (path ++ ":D.[/**/2]")) with id := path ++ ":D@1" },
        strayDeclaration path "[/**/1]" .method (some "D") (some (path ++ ":D.[/**/2]"))] }

theorem straySource_analyze : straySource.analyze {} [] = .ok strayFile := by decide

theorem build_stray {path : String}
    (hother : (otherSource path).analyze {} [] = .ok (otherFile path)) (hpath : "a.ts" ≤ path) :
    build (Batch.analyze {} [] [straySource, otherSource path]).analyses
      = ⟨[strayFile, otherFile path]⟩ :=
  build_pair straySource_analyze hother hpath

theorem scopesOf_strayCaller :
    strayFile.scopesOf strayCaller
      = [strayCaller, strayDeclaration "a.ts" "[/*.ts:D.[/**/1]" .method (some "C") none] := by
  decide

/-- With another path no id is shared, and the walk stays in the file. -/
theorem plain_call_scoped_iff_apart :
    let r := build (Batch.analyze {} [] [straySource, otherSource "b.ts"]).analyses
    strayFile ∈ r.files ∧ strayCaller ∈ strayFile.declarations ∧
      r.Scoped strayFile (strayFile.scopesOf strayCaller) "foo" none
        (r.resolveCall? strayCaller (.plain "foo") none) := by
  have hbuild :=
    build_stray (show (otherSource "b.ts").analyze {} [] = .ok (otherFile "b.ts") by decide)
    (by decide)
  have hscoped := plain_call_scoped_iff {} [] [straySource, otherSource "b.ts"]
  rw [hbuild] at hscoped ⊢
  have hfile : strayFile ∈ [strayFile, otherFile "b.ts"] := List.mem_cons_self
  have hcaller : strayCaller ∈ strayFile.declarations := by decide
  obtain ⟨-, -, -, hcolons⟩ :=
    hscoped (by decide) strayFile hfile strayCaller hcaller "foo" none (by decide)
  exact ⟨hfile, hcaller, hcolons (by decide)⟩

/-- **A walk that strays.** From `g` the walk goes to the first method, looked up in the other file,
and from there to the second one, which is not around `g`. So the call finds a `foo` that it cannot
see. -/
theorem stray_call_not_scoped :
    let r := build (Batch.analyze {} [] [straySource, otherSource "a.ts:C.[/*.ts"]).analyses
    (r.files.map (·.filePath)).Nodup ∧ strayFile ∈ r.files ∧ strayCaller ∈ strayFile.declarations ∧
      r.resolveCall? strayCaller (.plain "foo") none = some strayCallee ∧
      ¬ r.Scoped strayFile (strayFile.scopesOf strayCaller) "foo" none
        (r.resolveCall? strayCaller (.plain "foo") none) := by
  have hother : (otherSource "a.ts:C.[/*.ts").analyze {} [] = .ok (otherFile "a.ts:C.[/*.ts") := by
    decide
  rw [build_stray hother (by decide)]
  intro r
  have hnamed : r.qualified "a.ts" "foo" = [strayCallee] := List.mergeSort_of_pairwise (by decide)
  have hscope : r.closestScope? strayCaller (r.qualified "a.ts" "foo") = some strayCallee := by
    rw [hnamed]
    decide
  have hfound : r.resolveCall? strayCaller (.plain "foo") none = some strayCallee := by
    show r.resolvePlain? strayCaller strayFile "foo" none = _
    rw [resolvePlain?, show strayFile.filePath = "a.ts" from rfl, hscope]
  refine ⟨by decide, List.mem_cons_self, by decide, hfound, fun hscoped => ?_⟩
  -- the callee is neither at the top level nor inside a scope of the caller's own file
  rcases hscoped.inFile strayCallee hfound rfl with htop | ⟨s, hs, hinside⟩
  · exact absurd htop (by decide)
  · rw [scopesOf_strayCaller] at hs
    revert s
    decide

end Registry

end CallAtlas
