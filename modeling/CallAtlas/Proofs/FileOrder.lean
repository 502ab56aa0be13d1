import CallAtlas.Proofs.AssemblyExact
import CallAtlas.Proofs.ExtractionNesting

/-!
# Proofs.FileOrder — the order of the files does not matter

Files come in some order and are read at once, but before anything is made of them they are sorted
by their paths. As long as these differ, no run can tell the order. Modules need a closer look: the
earlier of two files takes a name that both could have, and a name without a file is searched for
among all module names, in whatever order they are kept.

* `Batch.analyze_eq_of_perm`, `CallGraph.assemble_eq_of_perm` — reading and assembling forget the
  order.
* `Registry.Owns`, `Registry.Refers` — which file has a module name and where a specifier points,
  said of a set of paths, without any order of files or names. `Registry.resolveModule_eq_iff` —
  this is what is found.
* `Pipeline.run_eq_of_perm` — the order of the files does not matter to a run.
-/

namespace CallAtlas

/-! ## Reading -/

/-- What is kept of a list has distinct keys if the list has, and if each kept entry has the key of
its origin. -/
theorem nodup_map_filterMap {α β κ : Type} {f : α → Option β} {origin : α → κ} {key : β → κ}
    {xs : List α} (hkey : ∀ x y, f x = some y → key y = origin x) (hnodup : (xs.map origin).Nodup) :
    ((xs.filterMap f).map key).Nodup := by
  suffices hsub : ((xs.filterMap f).map key).Sublist (xs.map origin) from hnodup.sublist hsub
  clear hnodup
  induction xs with
  | nil => exact .slnil
  | cons x xs ih =>
    rw [List.map_cons]
    cases hx : f x with
    | none =>
      rw [List.filterMap_cons_none hx]
      exact ih.cons _
    | some y =>
      rw [List.filterMap_cons_some hx, List.map_cons, hkey x y hx]
      exact ih.cons_cons _

namespace SourceFile

variable {settings : ExtractionSettings} {rules : List LayerRule} {file : SourceFile}

/-- An analysed file is filed under its normalized path. -/
theorem filePath_of_analyze {f : FileAnalysis} (h : file.analyze settings rules = .ok f) :
    f.filePath = Path.normalize file.path :=
  (read_of_analyze h).1

theorem path_of_analyze {s : SkippedFile}
    (h : file.analyze settings rules = .error s) : s.path = file.path := by
  unfold analyze at h
  split at h
  · cases h
  · cases h
    rfl

end SourceFile

namespace Batch

variable {settings : ExtractionSettings} {rules : List LayerRule} {files files' : List SourceFile}

/-- Files of different paths give analyses of different paths. -/
theorem nodup_filePaths (hpaths : (files.map fun f => Path.normalize f.path).Nodup) :
    ((analyze settings rules files).analyses.map (·.filePath)).Nodup := by
  rw [analyze, ((Order.perm_sortOn _ _ _).map _).nodup_iff, List.filterMap_map]
  refine nodup_map_filterMap (fun file f hf => ?_) hpaths
  dsimp only [Function.comp_apply] at hf
  split at hf
  · next hread =>
    cases hf
    exact SourceFile.filePath_of_analyze hread
  · cases hf

theorem nodup_skippedPaths (hpaths : (files.map fun f => Path.normalize f.path).Nodup) :
    ((analyze settings rules files).skipped.map (·.path)).Nodup := by
  have hgiven : (files.map (·.path)).Nodup := by
    refine List.Nodup.of_map Path.normalize ?_
    rw [List.map_map]
    exact hpaths
  rw [analyze, ((Order.perm_sortOn _ _ _).map _).nodup_iff, List.filterMap_map]
  refine nodup_map_filterMap (fun file s hs => ?_) hgiven
  dsimp only [Function.comp_apply] at hs
  split at hs
  · cases hs
  · next hread =>
    cases hs
    exact SourceFile.path_of_analyze hread

/-- **Reading forgets the order of the files.** -/
theorem analyze_eq_of_perm (hperm : files.Perm files')
    (hpaths : (files.map fun f => Path.normalize f.path).Nodup) :
    analyze settings rules files = analyze settings rules files' := by
  have hresults := hperm.map (·.analyze settings rules)
  rw [analyze, analyze]
  congr 1
  · refine Order.sortOn_eq_of_perm Order.text_linear _ (hresults.filterMap _) ?_
    exact ((Order.perm_sortOn _ _ _).map _).nodup_iff.mp (nodup_filePaths hpaths)
  · refine Order.sortOn_eq_of_perm Order.text_linear _ (hresults.filterMap _) ?_
    exact ((Order.perm_sortOn _ _ _).map _).nodup_iff.mp (nodup_skippedPaths hpaths)

end Batch

/-- **Assembling forgets the order of the files.** -/
theorem CallGraph.assemble_eq_of_perm {files files' : List FileAnalysis} (hperm : files.Perm files')
    (hpaths : (files.map (·.filePath)).Nodup) : assemble files = assemble files' := by
  rw [assemble, assemble, Registry.build, Registry.build,
    Order.sortOn_eq_of_perm Order.text_linear FileAnalysis.filePath hperm hpaths]

namespace Registry

/-! ## Modules of a set of paths -/

section Modules

variable {known : String → Prop} {name stem path : String}

/-- Some file has this path. -/
def Known (files : List FileAnalysis) (path : String) : Prop := ∃ f ∈ files, f.filePath = path

/-- Of all known files with this module name, the file with the smallest path has it. -/
structure Owns (known : String → Prop) (name path : String) : Prop where
  mem : known path
  named : name ∈ moduleNames path
  least : ∀ other, known other → name ∈ moduleNames other → path ≤ other

/-- A module name has at most one owner, the least path. -/
theorem Owns.unique {path' : String} (h : Owns known name path)
    (h' : Owns known name path') : path = path' :=
  le_antisymm (h.least path' h'.mem h'.named) (h'.least path h.mem h.named)

/-- The path has a module name below some directory that ends like this. -/
def OwnsBelow (known : String → Prop) (stem path : String) : Prop :=
  ∃ name, Owns known name path ∧ Text.endsWith name ("/" ++ stem) = true

/-- Shorter paths come first, and among those of one length the smaller ones. -/
def precedes (a b : String) : Bool :=
  Order.lex Order.count Order.text (a.utf8ByteSize, a) (b.utf8ByteSize, b)

/-- Preference among paths, by length and then by text, is a linear order. -/
theorem precedes_linear : Order.Linear precedes := by
  have h := Order.lex_linear Order.count_linear Order.text_linear
  refine ⟨⟨fun a b c => h.trans _ _ _, fun a b => h.total _ _⟩, fun a b hab hba => ?_⟩
  exact (Prod.ext_iff.mp (h.antisymm _ _ hab hba)).2

/-- Where the name of a module points. -/
inductive Names (known : String → Prop) (stem : String) : ModuleRef → Prop where
  | exactly {path : String} (h : Owns known stem path) : Names known stem (.file path)
  | below {path : String} (hfree : ∀ other, ¬ Owns known stem other) (h : OwnsBelow known stem path)
      (hfirst : ∀ other, OwnsBelow known stem other → precedes path other = true) :
      Names known stem (.file path)
  | missing (hfree : ∀ other, ¬ Owns known stem other)
      (hnone : ∀ other, ¬ OwnsBelow known stem other) :
      Names known stem .missing

/-- A stem refers to one module at most. -/
theorem Names.unique {ref ref' : ModuleRef} (h : Names known stem ref)
    (h' : Names known stem ref') : ref = ref' := by
  -- the three ways to refer exclude each other; within one the owner or the preferred path is
  -- unique
  cases h with
  | exactly h =>
    cases h' with
    | exactly h' => rw [h.unique h']
    | below hfree | missing hfree => exact absurd h (hfree _)
  | below hfree hbelow hfirst =>
    cases h' with
    | exactly h' => exact absurd h' (hfree _)
    | below _ hbelow' hfirst' =>
      rw [precedes_linear.antisymm _ _ (hfirst _ hbelow') (hfirst' _ hbelow)]
    | missing _ hnone => exact absurd hbelow (hnone _)
  | missing hfree hnone =>
    cases h' with
    | exactly h' => exact absurd h' (hfree _)
    | below _ hbelow' => exact absurd hbelow' (hnone _)
    | missing => rfl

/-- Where a specifier in a file points. -/
def Refers (known : String → Prop) (fromFile specifier : String) (ref : ModuleRef) : Prop :=
  match requestedPath? fromFile specifier with
  | none => ref = .package
  | some base => Names known (withoutExtension base) ref

end Modules

/-! ## Modules of a registry -/

theorem shorter_eq (a b : String) : shorter a b = if precedes a b then a else b := by
  rw [shorter, Order.not_lex_count_text, ← precedes]
  cases precedes a b <;> rfl

theorem shorter_cases (a b : String) : shorter a b = a ∨ shorter a b = b := by
  rw [shorter_eq]
  split
  · exact Or.inl rfl
  · exact Or.inr rfl

/-- Folding with `shorter` ends at a path that precedes all. -/
theorem precedes_foldl_shorter (first : String) (rest : List String) :
    ∀ x ∈ first :: rest, precedes (rest.foldl shorter first) x = true :=
  Order.foldl_least precedes_linear.toTotal id shorter_eq first rest

variable {files : List FileAnalysis} {name path : String}

/-- The registry lists every module name of every known file. -/
theorem mem_modules :
    (name, path) ∈ (build files).modules ↔ Known files path ∧ name ∈ moduleNames path := by
  simp only [Known, modules, List.mem_flatMap, List.mem_map, (build_perm files).mem_iff,
    Prod.mk.injEq]
  constructor
  · rintro ⟨f, hf, _, hname, rfl, rfl⟩
    exact ⟨⟨f, hf, rfl⟩, hname⟩
  · rintro ⟨⟨f, hf, rfl⟩, hname⟩
    exact ⟨f, hf, name, hname, rfl, rfl⟩

/-- Modules are registered by path. -/
theorem pairwise_modules (files : List FileAnalysis) :
    (build files).modules.Pairwise fun a b => a.2 ≤ b.2 := by
  rw [modules, List.pairwise_flatMap]
  constructor
  · intro f _
    exact List.pairwise_map.mpr (List.pairwise_of_forall fun _ _ => le_refl _)
  · refine (build_pairwise files).imp fun {f f'} hle a ha b hb => ?_
    obtain ⟨_, -, rfl⟩ := List.mem_map.mp ha
    obtain ⟨_, -, rfl⟩ := List.mem_map.mp hb
    exact hle

/-- The first file that is registered under a name has it. -/
theorem owns_of_find? (h : (build files).modules.find? (fun m => m.1 = name) = some (name, path)) :
    Owns (Known files) name path := by
  obtain ⟨hfile, hname⟩ := mem_modules.mp (List.mem_of_find?_eq_some h)
  refine ⟨hfile, hname, fun other hother hname' => ?_⟩
  -- whatever has the name stands at the first entry with the name, or behind it
  obtain ⟨-, before, after, hsplit, hbefore⟩ := List.find?_eq_some_iff_append.mp h
  have hmem := mem_modules.mpr ⟨hother, hname'⟩
  have hsorted := pairwise_modules files
  rw [hsplit] at hmem hsorted
  rcases List.mem_append.mp hmem with hmem | hmem
  · exact absurd (hbefore _ hmem) (by simp)
  · rcases List.mem_cons.mp hmem with heq | hmem
    · rw [(Prod.mk.inj heq).2]
    · exact (List.pairwise_cons.mp (List.pairwise_append.mp hsorted).2.1).1 _ hmem

/-- **The first registration of a name is that of the smallest path.** -/
theorem mem_modulesByName :
    (name, path) ∈ (build files).modulesByName ↔ Owns (Known files) name path := by
  have hfirst : (name, path) ∈ (build files).modulesByName ↔
      (build files).modules.find? (fun m => m.1 = name) = some (name, path) := by
    show (name, path) ∈ (build files).modules.foldl (addByKey Prod.fst) [] ↔ _
    rw [mem_foldl_addByKey]
    simp
  rw [hfirst]
  constructor
  · exact owns_of_find?
  · intro howns
    obtain ⟨⟨name', p⟩, hm⟩ : ∃ m, (build files).modules.find? (fun m => m.1 = name) = some m :=
      exists_find?_eq_some ⟨_, mem_modules.mpr ⟨howns.mem, howns.named⟩, decide_eq_true rfl⟩
    obtain rfl : name' = name := by simpa using List.find?_some hm
    rw [hm, howns.unique (owns_of_find? hm)]

/-- The files below a stem are those the registry finds by the ending of their module names. -/
theorem ownsBelow_iff {stem : String} : OwnsBelow (Known files) stem path ↔
    path ∈ ((build files).modulesByName.filter fun m =>
      Text.endsWith m.1 ("/" ++ stem)).map (·.2) := by
  simp only [OwnsBelow, ← mem_modulesByName, List.mem_map, List.mem_filter, Prod.exists,
    exists_eq_right]

/-- The lookup of a module name finds its owner. -/
theorem owns_of_lookup (h : (build files).modulesByName.lookup name = some path) :
    Owns (Known files) name path := by
  obtain ⟨before, after, hsplit, -⟩ := List.lookup_eq_some_iff.mp h
  rw [← mem_modulesByName, hsplit]
  exact List.mem_append_right before List.mem_cons_self

theorem not_owns_of_lookup (h : (build files).modulesByName.lookup name = none) (path : String) :
    ¬ Owns (Known files) name path := by
  intro howns
  have hne := List.lookup_eq_none_iff.mp h _ (mem_modulesByName.mpr howns)
  simp at hne

/-- **Resolution of a specifier gives what the specifier refers to.** -/
theorem refers_resolveModule (files : List FileAnalysis) (fromFile specifier : String) :
    Refers (Known files) fromFile specifier ((build files).resolveModule fromFile specifier) := by
  unfold Refers resolveModule
  cases requestedPath? fromFile specifier with
  | none => rfl
  | some base =>
    dsimp only
    split
    · next hlookup => exact .exactly (owns_of_lookup hlookup)
    · next hlookup =>
      split
      · next hnil =>
        refine .missing (not_owns_of_lookup hlookup) fun other hother => ?_
        rw [ownsBelow_iff, hnil] at hother
        exact List.not_mem_nil hother
      · -- several files below the stem: the fold keeps the preferred one
        next first rest hcons =>
        have hmem : rest.foldl shorter first ∈ first :: rest :=
          foldl_choose_mem shorter_cases first rest
        rw [← hcons, ← ownsBelow_iff] at hmem
        refine .below (not_owns_of_lookup hlookup) hmem fun other hother => ?_
        rw [ownsBelow_iff, hcons] at hother
        exact precedes_foldl_shorter first rest other hother

/-- **What a specifier refers to depends on the set of paths alone.** -/
theorem resolveModule_eq_iff {fromFile specifier : String} {ref : ModuleRef} :
    (build files).resolveModule fromFile specifier = ref ↔
      Refers (Known files) fromFile specifier ref := by
  have hfound := refers_resolveModule files fromFile specifier
  constructor
  · rintro rfl
    exact hfound
  · intro h
    unfold Refers at h hfound
    split at h
    · next hnone =>
      rw [hnone] at hfound
      rw [hfound, h]
    · next hsome =>
      rw [hsome] at hfound
      exact hfound.unique h

end Registry

/-- **The order of the files does not matter.** A run over files whose written-out paths differ has
one output, whatever the order of the files; a graph is the same for every order of analyses with
distinct paths; and where an import points is said by the set of the paths, without any order of
files or module names. -/
theorem Pipeline.run_eq_of_perm (p : Pipeline) :
    (∀ files files' : List SourceFile, files.Perm files' →
      (files.map fun f => Path.normalize f.path).Nodup →
        p.run files = p.run files') ∧
      (∀ files files' : List FileAnalysis, files.Perm files' → (files.map (·.filePath)).Nodup →
        CallGraph.assemble files = CallGraph.assemble files') ∧
      ∀ (files : List FileAnalysis) (fromFile specifier : String) (ref : ModuleRef),
        (Registry.build files).resolveModule fromFile specifier = ref ↔
          Registry.Refers (Registry.Known files) fromFile specifier ref := by
  refine ⟨fun files files' hperm hpaths => ?_, fun _ _ => CallGraph.assemble_eq_of_perm,
    fun _ _ _ _ => Registry.resolveModule_eq_iff⟩
  have hbatch : p.analyze files = p.analyze files' := Batch.analyze_eq_of_perm hperm hpaths
  rw [run, run, hbatch]

/-- A file with one function. -/
def greetSource (path : String) : SourceFile :=
  ⟨path, "", .mk { kind := "program" } [.mk { kind := "function_declaration" }
    [.mk { kind := "identifier", text := "greet", fields := ["name"] } []]]⟩

/-- Two files that could both be the module `./greet`: the smaller path has the name, whichever file
comes first. -/
theorem Pipeline.run_eq_of_perm_greet :
    let p : Pipeline := ⟨{}, [], ⟨[]⟩⟩
    p.run [greetSource "greet.tsx", greetSource "./greet.ts"]
        = p.run [greetSource "./greet.ts", greetSource "greet.tsx"] ∧
      (Registry.build [{ filePath := "greet.tsx" },
        { filePath := "greet.ts" }]).resolveModule "main.ts" "./greet"
        = .file "greet.ts" := by
  intro p
  obtain ⟨hrun, -, hmodule⟩ := run_eq_of_perm p
  refine ⟨hrun _ _ (.swap _ _ _) (by decide), (hmodule _ _ _ _).mpr ?_⟩
  have hrequested : Registry.requestedPath? "main.ts" "./greet" = some "greet" := by decide
  rw [Registry.Refers, hrequested]
  refine .exactly ⟨⟨_, List.mem_cons_of_mem _ List.mem_cons_self, rfl⟩, by decide, ?_⟩
  rintro other ⟨f, hf, rfl⟩ -
  revert f
  decide

end CallAtlas
