import CallAtlas.Proofs.FileOrder
import CallAtlas.Proofs.TextCuts

/-!
# Proofs.RelativeImport — the file that a relative import lands on

A relative specifier names one module: it is followed from the directory of the importing file, and
its extension is dropped. A file that is this module is found if there is one. If there is none, the
same search goes on that finds the files behind an alias, among the modules whose names end in the
searched one. An alias leaves open where the sources start, a relative specifier does not. So a
relative import can land on a file in another part of the project.

* `IsModuleFile`, `mem_moduleNames_iff` — the files that are a module, said without cutting paths.
* `withoutExtension_joinPath` — the extension can be dropped before or after the specifier is
  followed, if this ends in a name.
* `resolveModule_relative_iff` — what a relative specifier leads to, and when that is the module it
  names.
* `relative_import_strays` — a relative import that lands elsewhere.
-/

namespace CallAtlas.Registry

variable {path stem name last lead : String}

/-! ## Modules and their files -/

/-- The file is the module with this name: under the name itself, or as the index of a directory. -/
def IsModuleFile (name path : String) : Prop :=
  ∃ ext ∈ moduleExtensions, path = name ++ "." ++ ext ∨ path = name ++ "/index." ++ ext

theorem not_mem_extension {ext : String} (hext : ext ∈ moduleExtensions) :
    '.' ∉ ext.toList ∧ '/' ∉ ext.toList := by
  have hall : ∀ ext ∈ moduleExtensions, '.' ∉ ext.toList ∧ '/' ∉ ext.toList := by decide
  exact hall ext hext

theorem eq_append_extension_iff {ext : String} :
    path = stem ++ "." ++ ext ↔ path.toList = stem.toList ++ '.' :: ext.toList := by
  rw [← String.toList_inj]
  simp

/-- The stem of a path is what stands before a module extension. -/
theorem moduleStem?_eq_some_iff :
    moduleStem? path = some stem ↔ ∃ ext ∈ moduleExtensions, path = stem ++ "." ++ ext := by
  unfold moduleStem?
  rw [Option.bind_eq_bind, Option.bind_eq_some_iff]
  constructor
  · rintro ⟨⟨front, ext⟩, hcut, h⟩
    dsimp only at h
    split at h
    · next hext =>
      obtain rfl := Option.some.inj h
      exact ⟨ext, hext, eq_append_extension_iff.mpr (Text.splitLast?_eq_some_iff.mp hcut).1⟩
    · cases h
  · -- an extension has no dot, so the last dot is the one before it
    rintro ⟨ext, hext, hpath⟩
    refine ⟨(stem, ext), ?_, if_pos hext⟩
    exact Text.splitLast?_eq_some_iff.mpr ⟨eq_append_extension_iff.mp hpath,
      (not_mem_extension hext).1⟩

theorem append_index (name ext : String) :
    name ++ "/index" ++ "." ++ ext = name ++ "/index." ++ ext := by
  rw [← String.toList_inj]
  simp

/-- **The names of a module are those whose file it is.** -/
theorem mem_moduleNames_iff : name ∈ moduleNames path ↔ IsModuleFile name path := by
  unfold moduleNames
  constructor
  · intro h
    split at h
    · cases h
    · next stem hstem =>
      obtain ⟨ext, hext, hpath⟩ := moduleStem?_eq_some_iff.mp hstem
      -- a file is named by its stem, an index file also by its directory
      rcases List.mem_cons.mp h with rfl | hindex
      · exact ⟨ext, hext, Or.inl hpath⟩
      · rw [Option.mem_toList, Text.stripTail?_eq_some_iff] at hindex
        rw [hindex, append_index] at hpath
        exact ⟨ext, hext, Or.inr hpath⟩
  · rintro ⟨ext, hext, hpath | hpath⟩
    · rw [moduleStem?_eq_some_iff.mpr ⟨ext, hext, hpath⟩]
      exact List.mem_cons_self
    · rw [← append_index] at hpath
      rw [moduleStem?_eq_some_iff.mpr ⟨ext, hext, hpath⟩]
      apply List.mem_cons_of_mem
      rw [Option.mem_toList, Text.stripTail?_eq_some_iff]

variable {files : List FileAnalysis}

/-- Of the files that are a module, one has its name. -/
theorem exists_owns (hknown : Known files path) (hfile : IsModuleFile name path) :
    ∃ owner, Owns (Known files) name owner := by
  have hmem : (name, path) ∈ (build files).modules :=
    mem_modules.mpr ⟨hknown, mem_moduleNames_iff.mpr hfile⟩
  obtain ⟨⟨found, owner⟩, hfind⟩ : ∃ m,
      (build files).modules.find? (fun m => m.1 = name) = some m :=
    exists_find?_eq_some ⟨_, hmem, decide_eq_true rfl⟩
  obtain rfl : found = name := by simpa using List.find?_some hfind
  exact ⟨owner, owns_of_find? hfind⟩

/-- A module name has an owner exactly when some file is a module of that name. -/
theorem exists_owns_iff :
    (∃ owner, Owns (Known files) name owner) ↔
      ∃ path, Known files path ∧ IsModuleFile name path := by
  constructor
  · rintro ⟨owner, howns⟩
    exact ⟨owner, howns.mem, mem_moduleNames_iff.mp howns.named⟩
  · rintro ⟨path, hknown, hfile⟩
    exact exists_owns hknown hfile

/-- A file below a stem is a module of a longer name. -/
theorem isModuleFile_of_ownsBelow {known : String → Prop} (h : OwnsBelow known stem path) :
    ∃ dir, IsModuleFile (dir ++ "/" ++ stem) path := by
  obtain ⟨name, howns, hends⟩ := h
  obtain ⟨dir, rfl⟩ := Text.endsWith_iff.mp hends
  rw [← String.append_assoc] at howns
  exact ⟨dir, mem_moduleNames_iff.mp howns.named⟩

/-- Some file is below a stem exactly when it is a module of a longer name. -/
theorem exists_ownsBelow_iff :
    (∃ owner, OwnsBelow (Known files) stem owner) ↔
      ∃ path dir, Known files path ∧ IsModuleFile (dir ++ "/" ++ stem) path := by
  constructor
  · rintro ⟨owner, hbelow⟩
    obtain ⟨dir, hfile⟩ := isModuleFile_of_ownsBelow hbelow
    obtain ⟨name, howns, -⟩ := hbelow
    exact ⟨owner, dir, howns.mem, hfile⟩
  · rintro ⟨path, dir, hknown, hfile⟩
    obtain ⟨owner, howns⟩ := exists_owns hknown hfile
    exact ⟨owner, _, howns, Text.endsWith_iff.mpr ⟨dir, String.append_assoc⟩⟩

/-! ## Following a specifier -/

/-- What stands before the last part of a path. -/
def IsLead (lead : String) : Prop := lead = "" ∨ ∃ dir, lead = dir ++ "/"

/-- An extension lies in the last part of a path. -/
theorem exists_stem_of_append {ext : String} (hlead : IsLead lead) (hext : ext ∈ moduleExtensions)
    (h : lead ++ last = stem ++ "." ++ ext) : ∃ front, last = front ++ "." ++ ext := by
  rcases hlead with rfl | ⟨dir, rfl⟩
  · rw [String.empty_append] at h
    exact ⟨stem, h⟩
  · have hslash : '/' ∉ '.' :: ext.toList := by simp [(not_mem_extension hext).2]
    have hsuffix : '.' :: ext.toList <:+ dir.toList ++ '/' :: last.toList := by
      refine ⟨stem.toList, ?_⟩
      rw [← eq_append_extension_iff.mp h]
      simp
    obtain ⟨front, hfront⟩ := Text.suffix_of_suffix_append_cons hslash hsuffix
    refine ⟨String.ofList front, eq_append_extension_iff.mpr ?_⟩
    rw [String.toList_ofList, hfront]

/-- The extension is looked for in the last part of a path only. -/
theorem moduleStem?_append (hlead : IsLead lead) :
    moduleStem? (lead ++ last) = (moduleStem? last).map (lead ++ ·) := by
  apply Option.ext
  intro stem
  rw [moduleStem?_eq_some_iff, Option.map_eq_some_iff]
  simp only [moduleStem?_eq_some_iff]
  constructor
  · rintro ⟨ext, hext, h⟩
    obtain ⟨front, rfl⟩ := exists_stem_of_append hlead hext h
    refine ⟨front, ⟨ext, hext, rfl⟩, ?_⟩
    rw [← String.append_assoc, ← String.append_assoc, eq_append_extension_iff] at h
    rw [← String.toList_inj]
    apply (List.append_left_inj ('.' :: ext.toList)).mp
    rw [← h]
    simp
  · rintro ⟨front, ⟨ext, hext, rfl⟩, rfl⟩
    exact ⟨ext, hext, by simp only [String.append_assoc]⟩

theorem withoutExtension_append (hlead : IsLead lead) :
    withoutExtension (lead ++ last) = lead ++ withoutExtension last := by
  unfold withoutExtension
  rw [moduleStem?_append hlead]
  cases moduleStem? last <;> rfl

/-- A part of a path that leads to an entry of a directory. -/
structure IsName (part : String) : Prop where
  noSlash : '/' ∉ part.toList
  ne_empty : part ≠ ""
  ne_here : part ≠ "."
  ne_above : part ≠ ".."

/-- The specifier ends in a name, and still does without its extension. -/
def EndsInName (specifier : String) : Prop :=
  ∃ front last, specifier = front ++ "/" ++ last ∧ IsName last ∧ IsName (withoutExtension last)

/-- One part of a specifier, followed from the directories so far. -/
def follow (parts : List String) (part : String) : List String :=
  if part = "" || part = "." then parts
  else if part = ".." then parts.dropLast
  else parts ++ [part]

/-- A plain name goes one directory down. -/
theorem follow_name (parts : List String) (h : IsName last) :
    follow parts last = parts ++ [last] := by
  simp [follow, h.ne_empty, h.ne_here, h.ne_above]

/-- Joining follows the parts of the relative path from the parts of the directory. -/
theorem joinPath_eq (dir relative : String) : joinPath dir relative =
    Text.join "/" ((Text.split '/' relative).foldl follow
      ((Text.split '/' dir).filter (· != ""))) :=
  rfl

/-- A joined path is a lead followed by its last part. -/
theorem exists_join_append (parts : List String) :
    ∃ lead, IsLead lead ∧ ∀ last, Text.join "/" (parts ++ [last]) = lead ++ last := by
  cases parts with
  | nil => exact ⟨"", Or.inl rfl, fun last => by simp [Text.join]⟩
  | cons first rest =>
    refine ⟨Text.join "/" (first :: rest) ++ "/", Or.inr ⟨_, rfl⟩, fun last => ?_⟩
    unfold Text.join
    rw [String.intercalate_append_of_ne_nil (List.cons_ne_nil _ _) (List.cons_ne_nil _ _),
      String.intercalate_singleton]

/-- Whatever name a specifier ends in, it is followed into the same directory. -/
theorem exists_joinPath_append (dir front : String) :
    ∃ lead, IsLead lead ∧ ∀ last, IsName last →
      joinPath dir (front ++ "/" ++ last) = lead ++ last := by
  obtain ⟨lead, hlead, hjoin⟩ :=
    exists_join_append ((Text.split '/' front).foldl follow ((Text.split '/' dir).filter (· != "")))
  refine ⟨lead, hlead, fun last hlast => ?_⟩
  have hsplit : Text.split '/' (front ++ "/" ++ last) = Text.split '/' front ++ [last] := by
    rw [Text.split_append_cons (a := front) (b := last) (by simp),
      Text.split_eq_singleton hlast.noSlash]
  rw [joinPath_eq, hsplit, List.foldl_append, List.foldl_cons, List.foldl_nil, follow_name _ hlast]
  exact hjoin last

/-- **An extension can be dropped before or after the specifier is followed**, if the specifier ends
in a name. -/
theorem withoutExtension_joinPath (dir : String) {specifier : String} (h : EndsInName specifier) :
    withoutExtension (joinPath dir specifier) = joinPath dir (withoutExtension specifier) := by
  obtain ⟨front, last, rfl, hlast, hbare⟩ := h
  obtain ⟨lead, hlead, hjoin⟩ := exists_joinPath_append dir front
  have hfront : IsLead (front ++ "/") := .inr ⟨front, rfl⟩
  calc withoutExtension (joinPath dir (front ++ "/" ++ last))
      = withoutExtension (lead ++ last) := by rw [hjoin last hlast]
    _ = lead ++ withoutExtension last := withoutExtension_append hlead
    _ = joinPath dir (front ++ "/" ++ withoutExtension last) := (hjoin _ hbare).symm
    _ = joinPath dir (withoutExtension (front ++ "/" ++ last)) := by
      rw [withoutExtension_append hfront]

/-! ## Relative imports -/

/-- The module that a relative specifier asks for: the specifier, followed from the directory of the
file, without its extension. -/
def requestedName (fromFile specifier : String) : String :=
  withoutExtension (joinPath (directoryOf fromFile) specifier)

/-- A relative specifier is resolved by the name it asks for. -/
theorem names_resolveModule (files : List FileAnalysis) (fromFile : String) {specifier : String}
    (hrelative : isRelative specifier = true) :
    Names (Known files) (requestedName fromFile specifier)
      ((build files).resolveModule fromFile specifier) := by
  have hrefers := refers_resolveModule files fromFile specifier
  have hpath : requestedPath? fromFile specifier
      = some (joinPath (directoryOf fromFile) specifier) := if_pos hrelative
  unfold Refers at hrefers
  rw [hpath] at hrefers
  exact hrefers

/-- A module below another directory is found only where none has the name itself. -/
theorem Names.isModuleFile_iff {found : ModuleRef} (h : Names (Known files) name found) :
    (∀ path, found = .file path → IsModuleFile name path) ↔
      (∃ path, Known files path ∧ IsModuleFile name path) ∨
        ∀ path dir, Known files path → ¬ IsModuleFile (dir ++ "/" ++ name) path := by
  -- found exactly, found below some other directory, or missing
  cases h with
  | @exactly owner howns =>
    have hfile := mem_moduleNames_iff.mp howns.named
    constructor
    · intro _
      exact Or.inl ⟨owner, howns.mem, hfile⟩
    · intro _ path hpath
      rwa [← ModuleRef.file.inj hpath]
  | @below owner hfree hbelow hfirst =>
    obtain ⟨dir, hdir⟩ := isModuleFile_of_ownsBelow hbelow
    obtain ⟨_, howns, -⟩ := hbelow
    constructor
    · intro hall
      exact Or.inl ⟨owner, howns.mem, hall owner rfl⟩
    · rintro (hexact | hnone)
      · obtain ⟨other, hother⟩ := exists_owns_iff.mpr hexact
        exact absurd hother (hfree other)
      · exact absurd hdir (hnone owner dir howns.mem)
  | missing hfree hnone =>
    constructor
    · intro _
      refine Or.inr fun path dir hknown hfile => ?_
      obtain ⟨owner, howner⟩ := exists_ownsBelow_iff.mpr ⟨path, dir, hknown, hfile⟩
      exact hnone owner howner
    · intro _ path hpath
      cases hpath

/-- Nothing is found where no file is the module, or one with its name below some directory. -/
theorem Names.eq_missing_iff {found : ModuleRef} (h : Names (Known files) name found) :
    found = .missing ↔
      ∀ path, Known files path → ¬ IsModuleFile name path ∧
        ∀ dir, ¬ IsModuleFile (dir ++ "/" ++ name) path := by
  constructor
  · rintro rfl path hknown
    cases h with
    | missing hfree hnone =>
      constructor
      · intro hfile
        obtain ⟨owner, howner⟩ := exists_owns hknown hfile
        exact hfree owner howner
      · intro dir hfile
        obtain ⟨owner, howner⟩ := exists_ownsBelow_iff.mpr ⟨path, dir, hknown, hfile⟩
        exact hnone owner howner
  · -- with no module of the name anywhere, only one way is left
    intro hnone
    cases h with
    | exactly howns => exact absurd (mem_moduleNames_iff.mp howns.named) (hnone _ howns.mem).1
    | below hfree hbelow =>
      obtain ⟨dir, hdir⟩ := isModuleFile_of_ownsBelow hbelow
      obtain ⟨_, howns, -⟩ := hbelow
      exact absurd hdir ((hnone _ howns.mem).2 dir)
    | missing => rfl

/-- **What a relative import leads to.** It is never taken for a package. Nothing is found exactly
if no file is the named module, and none is a module whose name ends in it. A file that is found is
one of these. It is the named module exactly if some file is, or if no file is a module whose name
ends in it. The name is that of the specifier without its extension, followed from the directory of
the file, if the specifier ends in a name, or if neither it nor the directory that it leads to has
an extension. -/
theorem resolveModule_relative_iff (files : List FileAnalysis) (fromFile specifier : String)
    (found : ModuleRef) (hrelative : isRelative specifier = true)
    (hfound : (build files).resolveModule fromFile specifier = found) :
    found ≠ .package ∧
      (found = .missing ↔ ∀ path, Known files path →
        ¬ IsModuleFile (requestedName fromFile specifier) path ∧
        ∀ dir, ¬ IsModuleFile (dir ++ "/" ++ requestedName fromFile specifier) path) ∧
      (∀ path, found = .file path → Known files path ∧
        (IsModuleFile (requestedName fromFile specifier) path ∨
        ∃ dir, IsModuleFile (dir ++ "/" ++ requestedName fromFile specifier) path)) ∧
      ((∀ path, found = .file path → IsModuleFile (requestedName fromFile specifier) path) ↔
        (∃ path, Known files path ∧ IsModuleFile (requestedName fromFile specifier) path) ∨
          ∀ path dir, Known files path →
            ¬ IsModuleFile (dir ++ "/" ++ requestedName fromFile specifier) path) ∧
      ((EndsInName specifier ∨
          moduleStem? specifier = none ∧
            moduleStem? (joinPath (directoryOf fromFile) specifier) = none) →
        requestedName fromFile specifier
          = joinPath (directoryOf fromFile) (withoutExtension specifier)) := by
  -- all clauses but the last are about the requested name
  have hnames := names_resolveModule files fromFile hrelative
  rw [hfound] at hnames
  refine ⟨?_, hnames.eq_missing_iff, ?_, hnames.isModuleFile_iff, ?_⟩
  · rintro rfl
    cases hnames
  · rintro path rfl
    cases hnames with
    | exactly howns => exact ⟨howns.mem, Or.inl (mem_moduleNames_iff.mp howns.named)⟩
    | below hfree hbelow =>
      have hdir := isModuleFile_of_ownsBelow hbelow
      obtain ⟨_, howns, -⟩ := hbelow
      exact ⟨howns.mem, Or.inr hdir⟩
  · rintro (hends | ⟨hspecifier, hdirectory⟩)
    · exact withoutExtension_joinPath _ hends
    · rw [requestedName, withoutExtension, withoutExtension, hspecifier, hdirectory]
      rfl

/-- A module beside the importing file, and one of the same name elsewhere. -/
def besideFiles : List FileAnalysis :=
  [{ filePath := "lib/src/config.ts" }, { filePath := "src/config/index.ts" },
    { filePath := "src/index.ts" }]

/-- The index of a directory is found, not the file that ends in the same name. -/
theorem resolveModule_relative_iff_index :
    isRelative "./config.js" = true ∧
      (build besideFiles).resolveModule "src/index.ts" "./config.js" = .file "src/config/index.ts" ∧
      Known besideFiles "src/config/index.ts" ∧
      (∀ path, ModuleRef.file "src/config/index.ts" = .file path → IsModuleFile "src/config" path) ∧
      "src/config" = joinPath "src" "./config" := by
  have hbuild : build besideFiles = ⟨besideFiles⟩ :=
    congrArg Registry.mk (List.mergeSort_of_pairwise (by decide))
  have hfound : (build besideFiles).resolveModule "src/index.ts" "./config.js"
      = .file "src/config/index.ts" := by
    rw [hbuild]
    decide
  obtain ⟨-, -, hfile, hexact, hname⟩ :=
    resolveModule_relative_iff besideFiles "src/index.ts" "./config.js" _ (by decide) hfound
  have hknown := (hfile _ rfl).1
  -- the extension of the specifier is dropped before the file is looked up
  have hrequested : requestedName "src/index.ts" "./config.js" = "src/config" := by decide
  rw [hrequested] at hexact hname
  have hindex : IsModuleFile "src/config" "src/config/index.ts" :=
    ⟨"ts", by decide, Or.inr (by decide)⟩
  refine ⟨by decide, hfound, hknown, hexact.mpr (Or.inl ⟨_, hknown, hindex⟩), ?_⟩
  exact hname (Or.inl ⟨".", "config.js", by decide, ⟨by decide, by decide, by decide, by decide⟩,
    ⟨by decide, by decide, by decide, by decide⟩⟩)

/-- No module beside the importing file, and one of that name in another package. -/
def strayedFiles : List FileAnalysis :=
  [{ filePath := "packages/api/src/config.ts" }, { filePath := "src/index.ts" }]

/-- **A relative import that lands elsewhere.** No file is the module that it names. -/
theorem relative_import_strays :
    isRelative "./config" = true ∧ joinPath "src" (withoutExtension "./config") = "src/config" ∧
      (build strayedFiles).resolveModule "src/index.ts" "./config"
        = .file "packages/api/src/config.ts" ∧
      ¬ IsModuleFile "src/config" "packages/api/src/config.ts" := by
  have hbuild : build strayedFiles = ⟨strayedFiles⟩ :=
    congrArg Registry.mk (List.mergeSort_of_pairwise (by decide))
  refine ⟨by decide, by decide, ?_, ?_⟩
  · rw [hbuild]
    decide
  · rw [← mem_moduleNames_iff]
    decide

end CallAtlas.Registry
