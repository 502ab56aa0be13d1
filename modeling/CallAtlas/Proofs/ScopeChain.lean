import Mathlib.Data.List.Infix
import CallAtlas.Pipeline
import CallAtlas.Proofs.ExtractionNesting
import CallAtlas.Proofs.RegistryClosed
import CallAtlas.Proofs.Sorting

/-!
# Proofs.ScopeChain — the walk outwards from a declaration ends

A declaration names the one around it by id, and ids are looked up among all files. Where files
share a path they can share ids, and then the later file answers, so that a walk outwards may leave
the file that it started in. It ends all the same: a look-up stays in the file, and then it goes to
an earlier declaration, or it goes on to a later file.

* `Climbs` — a loop over scopes that comes to its end. A loop without end is none of them
  (`not_climbs_of_endless`).
* `later_or_before_of_outer?` — one step outwards goes to an earlier declaration of the file or to a
  later file.
* `endsWithin_of_nested` — hence every loop ends where the declarations of every file are nested,
  and it takes no more rounds than there are declarations.
* `Resolves` — what a call refers to, with such loops in place of the bounded chain of scopes.
* `scope_walks_end` — on everything that is extracted, loops end and calls are resolved.
-/

namespace CallAtlas.Registry

open Extraction (Nested Recorded)

variable {r : Registry} {stop : Declaration → Bool} {d : Declaration}

/-! ## Loops -/

/-- A loop that starts at a declaration, goes on to the one around it while `stop` does not hold,
and ends. The list has the declarations that it looks at. -/
inductive Climbs (r : Registry) (stop : Declaration → Bool) :
    Declaration → List Declaration → Prop where
  | halt {d : Declaration} (hstop : stop d = true) : Climbs r stop d [d]
  | top {d : Declaration} (hgo : stop d = false) (houter : r.outer? d = none) : Climbs r stop d [d]
  | up {d outer : Declaration} {visited : List Declaration} (hgo : stop d = false)
      (houter : r.outer? d = some outer)
      (rest : Climbs r stop outer visited) : Climbs r stop d (d :: visited)

theorem Climbs.mem_self {visited : List Declaration}
    (h : r.Climbs stop d visited) : d ∈ visited := by
  cases h <;> exact List.mem_cons_self

/-- A loop that starts in the registry stays in it. -/
theorem Climbs.subset {visited : List Declaration} (h : r.Climbs stop d visited)
    (hd : d ∈ r.declarations) : visited ⊆ r.declarations := by
  induction h with
  | halt hstop => simpa using hd
  | top hgo houter => simpa using hd
  | up hgo houter rest ih =>
    obtain ⟨id, -, hlookup⟩ := Option.bind_eq_some_iff.mp houter
    exact List.cons_subset.mpr ⟨hd, ih (mem_declarations_of_declaration? hlookup)⟩

/-- A climb is determined by where it starts and where it stops. -/
theorem Climbs.unique {visited visited' : List Declaration} (h : r.Climbs stop d visited)
    (h' : r.Climbs stop d visited') : visited = visited' := by
  -- at each declaration exactly one of the three rules applies
  induction h generalizing visited' with
  | halt hstop => cases h' <;> simp_all
  | top hgo houter => cases h' <;> simp_all
  | up hgo houter rest ih =>
    cases h' with
    | halt hstop => simp_all
    | top _ htop => simp_all
    | up _ houter' rest' =>
      obtain rfl := Option.some.inj (houter.symm.trans houter')
      rw [ih rest']

/-- Where declarations lead on to each other and none stops the loop, there is no end. -/
theorem not_climbs_of_endless {endless : Declaration → Prop} (hgo : ∀ d, endless d → stop d = false)
    (houter : ∀ d, endless d → ∃ outer, r.outer? d = some outer ∧ endless outer) (hd : endless d)
    (visited : List Declaration) : ¬ r.Climbs stop d visited := by
  intro h
  induction h with
  | halt hstop => simp [hgo _ hd] at hstop
  | top _ htop =>
    obtain ⟨outer, hsome, -⟩ := houter _ hd
    simp [hsome] at htop
  | up _ hup _ ih =>
    obtain ⟨outer, hsome, hendless⟩ := houter _ hd
    obtain rfl := Option.some.inj (hup.symm.trans hsome)
    exact ih hendless

/-- The bounded chain of scopes is what the loop without stop looks at, if the bound is no less. -/
theorem scopeChain_of_climbs {visited : List Declaration} (h : r.Climbs (fun _ => false) d visited)
    {fuel : Nat} (hfuel : visited.length ≤ fuel) : r.scopeChain fuel d = visited := by
  induction h generalizing fuel with
  | halt hstop => cases hstop
  | top _ houter =>
    cases fuel with
    | zero => simp at hfuel
    | succ fuel => simp only [scopeChain, houter]
  | up _ houter _ ih =>
    cases fuel with
    | zero => simp at hfuel
    | succ fuel => simp only [scopeChain, houter, ih (Nat.le_of_succ_le_succ hfuel)]

/-- The class of `this` is that of the first scope with one, where the loop stops. -/
theorem findSome?_container_of_climbs {visited all : List Declaration}
    (h : r.Climbs (·.container.isSome) d visited) (hall : r.Climbs (fun _ => false) d all) :
    all.findSome? (·.container) = visited.getLast?.bind (·.container) := by
  induction h generalizing all with
  | halt hstop =>
    obtain ⟨c, hc⟩ := Option.isSome_iff_exists.mp hstop
    cases hall <;> simp [hc]
  | top hgo houter =>
    obtain rfl := hall.unique (.top rfl houter)
    have hnone := Option.isSome_eq_false_iff.mp hgo
    simp_all
  | @up d outer visited hgo houter rest ih =>
    cases hall with
    | halt hstop => cases hstop
    | top _ htop => simp [houter] at htop
    | up _ hup restAll =>
      obtain rfl := Option.some.inj (houter.symm.trans hup)
      -- no class here, so both loops go on and the last declaration stays the same
      have hne : visited ≠ [] := by cases rest <;> simp
      have hnone : d.container = none := by simpa using hgo
      rw [List.findSome?_cons, hnone, ih restAll, List.getLast?_cons_of_ne_nil hne]

/-! ## An end for every loop -/

/-- A look-up of an id that a file holds is answered by this file or by a later one. -/
theorem later_or_same_of_declaration? {earlier later : List FileAnalysis} {f : FileAnalysis}
    (hfiles : r.files = earlier ++ f :: later) {id : String} (hid : id ∈ f.declarations.map (·.id))
    (h : r.declaration? id = some d) : d ∈ later.flatMap (·.declarations) ∨ d ∈ f.declarations := by
  rw [declaration?, declarations, hfiles, List.flatMap_append, List.flatMap_cons,
    List.reverse_append, List.reverse_append, List.append_assoc, List.find?_append] at h
  cases hlater : (later.flatMap (·.declarations)).reverse.find? (·.id = id) with
  | some x =>
    rw [hlater, Option.some_or] at h
    obtain rfl := Option.some.inj h
    exact Or.inl (List.mem_reverse.mp (List.mem_of_find?_eq_some hlater))
  | none =>
    obtain ⟨x, hx, hxid⟩ := List.mem_map.mp hid
    obtain ⟨y, hy⟩ : ∃ y, f.declarations.reverse.find? (·.id = id) = some y :=
      Option.isSome_iff_exists.mp (List.find?_isSome.mpr ⟨x, List.mem_reverse.mpr hx,
        by simpa using hxid⟩)
    rw [hlater, Option.none_or, List.find?_append, hy, Option.some_or] at h
    obtain rfl := Option.some.inj h
    exact Or.inr (List.mem_reverse.mp (List.mem_of_find?_eq_some hy))

/-- **One step outwards.** The declaration around one that is nested in some declarations of a file
is one of these, or it is in a later file: no other declaration of the file has their ids. -/
theorem later_or_before_of_outer? {earlier later : List FileAnalysis} {f : FileAnalysis}
    (hfiles : r.files = earlier ++ f :: later) (hf : Nested f.declarations)
    {before : List Declaration} (hbefore : before ⊆ f.declarations)
    (hinside : ∀ id, d.enclosing = some id → id ∈ before.map (·.id)) {outer : Declaration}
    (houter : r.outer? d = some outer) :
    outer ∈ later.flatMap (·.declarations) ∨ outer ∈ before := by
  obtain ⟨id, hid, hlookup⟩ := Option.bind_eq_some_iff.mp houter
  obtain ⟨x, hx, hxid⟩ := List.mem_map.mp (hinside id hid)
  have hmem : id ∈ f.declarations.map (·.id) := List.mem_map.mpr ⟨x, hbefore hx, hxid⟩
  refine (later_or_same_of_declaration? hfiles hmem hlookup).imp_right fun hout => ?_
  have hsame : outer.id = x.id := (id_of_declaration? hlookup).trans hxid.symm
  rw [List.inj_on_of_nodup_map hf.nodup hout (hbefore hx) hsame]
  exact hx

/-- All loops that start in a list of declarations end within some number of rounds. -/
def EndsWithin (r : Registry) (stop : Declaration → Bool) (ds : List Declaration)
    (rounds : Nat) : Prop :=
  ∀ d ∈ ds, ∃ visited, r.Climbs stop d visited ∧ visited.length ≤ rounds

theorem EndsWithin.mono {ds : List Declaration} {rounds rounds' : Nat}
    (h : r.EndsWithin stop ds rounds) (hle : rounds ≤ rounds') : r.EndsWithin stop ds rounds' := by
  intro d hd
  obtain ⟨visited, hclimbs, hlength⟩ := h d hd
  exact ⟨visited, hclimbs, Nat.le_trans hlength hle⟩

/-- What ends within some rounds for two lists does so for both together. -/
theorem EndsWithin.append {ds ds' : List Declaration} {rounds : Nat}
    (h : r.EndsWithin stop ds rounds) (h' : r.EndsWithin stop ds' rounds) :
    r.EndsWithin stop (ds ++ ds') rounds := by
  intro d hd
  exact (List.mem_append.mp hd).elim (h d) (h' d)

/-- A loop ends one round after the loop from the declaration around. -/
theorem endsWithin_singleton {rounds : Nat}
    (h : ∀ outer, r.outer? d = some outer →
      ∃ visited, r.Climbs stop outer visited ∧ visited.length ≤ rounds) :
    r.EndsWithin stop [d] (rounds + 1) := by
  intro x hx
  obtain rfl := List.mem_singleton.mp hx
  cases hstop : stop x with
  | true => exact ⟨[x], .halt hstop, Nat.le_add_left 1 rounds⟩
  | false =>
    cases houter : r.outer? x with
    | none => exact ⟨[x], .top hstop houter, Nat.le_add_left 1 rounds⟩
    | some outer =>
      obtain ⟨visited, hclimbs, hlength⟩ := h outer houter
      exact ⟨x :: visited, .up hstop houter hclimbs, Nat.succ_le_succ hlength⟩

/-- **Within a file.** If all loops from the later files end, so do those from any beginning of the
file. Induction on the nesting: a declaration leads to an earlier one of the same file, or to a
later file. -/
theorem endsWithin_of_isPrefix {earlier later : List FileAnalysis} {f : FileAnalysis}
    (hfiles : r.files = earlier ++ f :: later) (hf : Nested f.declarations) {rounds : Nat}
    (hlater : r.EndsWithin stop (later.flatMap (·.declarations)) rounds) {ds : List Declaration}
    (hds : Nested ds) (hbegins : ds <+: f.declarations) :
    r.EndsWithin stop ds (ds.length + rounds) := by
  induction hds with
  | nil => exact fun d hd => absurd hd List.not_mem_nil
  | @snoc ds last before fresh inside ih =>
    have hbefore : ds <+: f.declarations := (List.prefix_append ds [last]).trans hbegins
    have hends : r.EndsWithin stop ds (ds.length + rounds) := ih hbefore
    have hlast : r.EndsWithin stop [last] (ds.length + rounds + 1) := by
      refine endsWithin_singleton fun outer houter => ?_
      rcases later_or_before_of_outer? hfiles hf hbefore.subset inside houter with hout | hout
      · exact hlater.mono (Nat.le_add_left _ _) outer hout
      · exact hends outer hout
    rw [List.length_append, List.length_singleton, Nat.add_right_comm]
    exact (hends.mono (Nat.le_succ _)).append hlast

/-- **Every loop ends.** Induction on the files, the last one first. -/
theorem endsWithin_of_nested (hnested : ∀ f ∈ r.files, Nested f.declarations)
    (stop : Declaration → Bool) : r.EndsWithin stop r.declarations r.declarations.length := by
  suffices h : ∀ later earlier, r.files = earlier ++ later →
      r.EndsWithin stop (later.flatMap (·.declarations))
        (later.flatMap (·.declarations)).length from
    h r.files [] rfl
  intro later
  induction later with
  | nil => exact fun _ _ d hd => absurd hd List.not_mem_nil
  | cons f later ih =>
    intro earlier hfiles
    -- the later files are a case of their own, with one more file before them
    have hlater := ih (earlier ++ [f]) (by rw [hfiles, List.append_assoc]; rfl)
    have hf : Nested f.declarations := hnested f (by rw [hfiles]; simp)
    rw [List.flatMap_cons, List.length_append]
    exact (endsWithin_of_isPrefix hfiles hf hlater hf (List.prefix_refl _)).append
      (hlater.mono (Nat.le_add_left _ _))

/-! ## Resolution with loops -/

/-- What a call refers to. Where the scopes around the caller matter, a loop over them has come to
its end. -/
inductive Resolves (r : Registry) (caller : Declaration) :
    CallTarget → Option String → Option Declaration → Prop where
  | request {method : HttpMethod} {path : String} {module? : Option String} :
      Resolves r caller (.http method path) module? none
  | database {client : String} {operation : DbOperation} {table module? : Option String} :
      Resolves r caller (.database client operation table) module? none
  | nowhere {name : String} {receiver module? : Option String}
      (hfile : r.file? caller.filePath = none) :
      Resolves r caller (.named name receiver) module? none
  | inScope {f : FileAnalysis} {name : String} {module? : Option String}
      {visited : List Declaration} {d : Declaration}
      (hfile : r.file? caller.filePath = some f) (hloop : r.Climbs (fun _ => false) caller visited)
      (hfound : closest visited (r.qualified f.filePath name) = some d) :
      Resolves r caller (.named name none) module? (some d)
  | free {f : FileAnalysis} {name : String} {module? : Option String} {visited : List Declaration}
      (hfile : r.file? caller.filePath = some f) (hloop : r.Climbs (fun _ => false) caller visited)
      (hmissed : closest visited (r.qualified f.filePath name) = none) :
      Resolves r caller (.named name none) module? (r.resolveFree? f name module?)
  | own {f : FileAnalysis} {name : String} {module? : Option String} {visited : List Declaration}
      (hfile : r.file? caller.filePath = some f)
      (hloop : r.Climbs (·.container.isSome) caller visited) :
      Resolves r caller (.named name (some "this")) module?
        ((visited.getLast?.bind (·.container)).bind fun c =>
          (r.qualified f.filePath (c ++ "." ++ name)).head?)
  | member {f : FileAnalysis} {receiver name : String} {module? : Option String}
      (hfile : r.file? caller.filePath = some f) (hreceiver : receiver ≠ "this") :
      Resolves r caller (.named name (some receiver)) module?
        (r.resolveReceiver? f receiver name module?)

/-- The two loops of a caller end, and the bounded chain of scopes shows what they find. -/
structure Settled (r : Registry) (caller : Declaration) : Prop where
  scopes : r.Climbs (fun _ => false) caller (r.scopesOf caller)
  own : ∃ visited, r.Climbs (·.container.isSome) caller visited ∧
    r.owningClass? caller = visited.getLast?.bind (·.container)

/-- Where every file is nested, the fuel of the scope walk suffices. -/
theorem settled_of_nested (hnested : ∀ f ∈ r.files, Nested f.declarations) {caller : Declaration}
    (hcaller : caller ∈ r.declarations) : r.Settled caller := by
  obtain ⟨all, hall, hlength⟩ := endsWithin_of_nested hnested (fun _ => false) caller hcaller
  obtain ⟨visited, hvisited, -⟩ := endsWithin_of_nested hnested (·.container.isSome) caller hcaller
  have hscopes : r.scopesOf caller = all := scopeChain_of_climbs hall (Nat.le_succ_of_le hlength)
  refine ⟨hscopes ▸ hall, visited, hvisited, ?_⟩
  rw [owningClass?, hscopes]
  exact findSome?_container_of_climbs hvisited hall

/-- **Resolution is total, and it is what is computed.** -/
theorem Settled.resolves_iff {caller : Declaration} (h : r.Settled caller) (target : CallTarget)
    (module? : Option String) (found : Option Declaration) :
    r.Resolves caller target module? found ↔ found = r.resolveCall? caller target module? := by
  obtain ⟨hscopes, own, hown, hclass⟩ := h
  constructor
  · intro hresolves
    -- each rule is a branch of the resolution, with the walk that the branch makes
    cases hresolves with
    | request => rfl
    | database => rfl
    | nowhere hfile => simp [resolveCall?, hfile]
    | inScope hfile hloop hfound =>
      obtain rfl := hloop.unique hscopes
      have hclosest : r.closestScope? caller _ = _ := hfound
      simp [resolveCall?, hfile, resolvePlain?, hclosest]
    | free hfile hloop hmissed =>
      obtain rfl := hloop.unique hscopes
      have hclosest : r.closestScope? caller _ = _ := hmissed
      simp [resolveCall?, hfile, resolvePlain?, hclosest]
    | own hfile hloop =>
      obtain rfl := hloop.unique hown
      simp [resolveCall?, hfile, resolveMember?, hclass]
    | member hfile hreceiver => simp [resolveCall?, hfile, resolveMember?, hreceiver]
  · rintro rfl
    cases target with
    | http method path => exact .request
    | database client operation table => exact .database
    | named name receiver =>
      unfold resolveCall?
      cases hfile : r.file? caller.filePath with
      | none => exact .nowhere hfile
      | some f =>
        cases receiver with
        | none =>
          dsimp only [Option.bind_eq_bind, Option.bind_some, resolvePlain?]
          cases hclosest : r.closestScope? caller (r.qualified f.filePath name) with
          | some d => exact .inScope hfile hscopes hclosest
          | none => exact .free hfile hscopes hclosest
        | some receiver =>
          dsimp only [Option.bind_eq_bind, Option.bind_some, resolveMember?]
          by_cases hreceiver : receiver = "this"
          · subst hreceiver
            rw [if_pos rfl, hclass]
            exact .own hfile hown
          · rw [if_neg hreceiver]
            exact .member hfile hreceiver

/-! ## Extracted files -/

/-- A file that was read is nested and accounted for, whatever its role. -/
theorem recorded_of_analyze {settings : ExtractionSettings} {rules : List LayerRule}
    {file : SourceFile} {f : FileAnalysis} (h : file.analyze settings rules = .ok f) :
    Recorded f.declarations f.calls := by
  obtain ⟨-, hdeclarations, hcalls⟩ := SourceFile.read_of_analyze h
  rw [hdeclarations, hcalls]
  exact Extraction.extract_recorded _ _

/-- The files of a registry come from source files. -/
theorem exists_analyze_of_mem_build {settings : ExtractionSettings} {rules : List LayerRule}
    {files : List SourceFile} {f : FileAnalysis}
    (h : f ∈ (build (Batch.analyze settings rules files).analyses).files) :
    ∃ file ∈ files, file.analyze settings rules = .ok f := by
  have hanalysis := Order.mem_sortOn.mp (mem_files_build.mp h)
  obtain ⟨result, hresult, hok⟩ := List.mem_filterMap.mp hanalysis
  obtain ⟨file, hfile, hread⟩ := List.mem_map.mp hresult
  split at hok
  · cases hok
    exact ⟨file, hfile, hread⟩
  · cases hok

/-- Every file of the registry is recorded as its extraction left it. -/
theorem recorded_of_mem_build {settings : ExtractionSettings} {rules : List LayerRule}
    {files : List SourceFile} {f : FileAnalysis}
    (h : f ∈ (build (Batch.analyze settings rules files).analyses).files) :
    Recorded f.declarations f.calls := by
  obtain ⟨file, -, hread⟩ := exists_analyze_of_mem_build h
  exact recorded_of_analyze hread

/-- The registry of two files that come in the order of their paths. -/
theorem build_pair {settings : ExtractionSettings} {rules : List LayerRule}
    {first second : SourceFile} {f g : FileAnalysis} (hf : first.analyze settings rules = .ok f)
    (hg : second.analyze settings rules = .ok g) (hle : f.filePath ≤ g.filePath) :
    build (Batch.analyze settings rules [first, second]).analyses = ⟨[f, g]⟩ := by
  have hanalyses : (Batch.analyze settings rules [first, second]).analyses
      = Order.sortOn Order.text (·.filePath) [f, g] := by
    simp only [Batch.analyze, List.map_cons, List.map_nil, hf, hg, List.filterMap_cons,
      List.filterMap_nil]
  have hsorted : Order.sortOn Order.text (·.filePath) [f, g] = [f, g] :=
    List.mergeSort_of_pairwise (by simpa [Order.text] using hle)
  rw [build, hanalyses, hsorted, hsorted]

/-- **Walks over scopes end on everything that is extracted.** For any list of source files, also of
files that share paths and ids, in the registry of their analyses: every loop outwards from any
declaration ends, whatever stops it, and in one way only; the bounded chain of scopes is the whole
of it; what a call by the declaration refers to is determined by ended loops, and it is what is
computed; and every call site has a declaration of the registry as its caller. -/
theorem scope_walks_end (settings : ExtractionSettings) (rules : List LayerRule)
    (files : List SourceFile) :
    let r := build (Batch.analyze settings rules files).analyses
    (∀ d ∈ r.declarations, ∀ stop, ∃! visited, r.Climbs stop d visited) ∧
      (∀ d ∈ r.declarations, r.Climbs (fun _ => false) d (r.scopesOf d) ∧
        (r.scopesOf d).length ≤ r.declarations.length) ∧
      (∀ d ∈ r.declarations, ∀ target module? found,
        r.Resolves d target module? found ↔ found = r.resolveCall? d target module?) ∧
      ∀ f ∈ r.files, ∀ s ∈ f.calls,
        ∃ caller ∈ r.declarations, r.declaration? s.callerId = some caller := by
  intro r
  have hnested : ∀ f ∈ r.files, Nested f.declarations := fun f hf =>
    (recorded_of_mem_build hf).nested
  refine ⟨fun d hd stop => ?_, fun d hd => ?_,
    fun d hd => (settled_of_nested hnested hd).resolves_iff, ?_⟩
  · obtain ⟨visited, hclimbs, -⟩ := endsWithin_of_nested hnested stop d hd
    exact ⟨visited, hclimbs, fun other hother => hother.unique hclimbs⟩
  · obtain ⟨visited, hclimbs, hlength⟩ := endsWithin_of_nested hnested (fun _ => false) d hd
    have hscopes := (settled_of_nested hnested hd).scopes
    exact ⟨hscopes, (hscopes.unique hclimbs) ▸ hlength⟩
  · intro f hf s hs
    obtain ⟨d, hd, hid⟩ := List.mem_map.mp ((recorded_of_mem_build hf).callers s hs)
    -- the caller is declared in its own file, so the look-up by id finds some declaration
    obtain ⟨caller, hcaller⟩ : ∃ caller, r.declaration? s.callerId = some caller := by
      refine Option.isSome_iff_exists.mp (List.find?_isSome.mpr ⟨d, ?_, by simpa using hid⟩)
      exact List.mem_reverse.mpr (mem_declarations_of_file hf hd)
    exact ⟨caller, mem_declarations_of_declaration? hcaller, hcaller⟩

/-! Two files that share a path and cross each other: in the first `f` holds `g`, in the second `g`
holds `f`. Each holds a call of the outer function by the inner one. -/

def crossedSource (path outer inner : String) : SourceFile :=
  let named (name field : String) : Tree.Node :=
    .mk { kind := "identifier", text := name, fields := [field] } []
  let call : Tree.Node := .mk { kind := "call_expression" } [named outer "function"]
  let nested : Tree.Node := .mk { kind := "function_declaration" } [named inner "name", call]
  ⟨path, "",
    .mk { kind := "program" } [.mk { kind := "function_declaration" } [named outer "name", nested]]⟩

def crossedDeclaration (name : String) (enclosing : Option String) : Declaration :=
  { id := "m.ts:" ++ name, name, kind := .function, exported := false, signature := "()",
    span := ⟨1, 1⟩
    filePath := "m.ts", enclosing }

def crossedFile (outer inner : String) : FileAnalysis :=
  { filePath := "m.ts"
    declarations :=
      [crossedDeclaration outer none, crossedDeclaration inner (some ("m.ts:" ++ outer))]
    calls := [{ callerId := "m.ts:" ++ inner, target := .plain outer, line := 1, via := .direct,
                flags := {} }] }

def crossedRegistry : Registry := ⟨[crossedFile "f" "g", crossedFile "g" "f"]⟩

theorem crossedSource_analyze :
    (crossedSource "./m.ts" "f" "g").analyze {} [] = .ok (crossedFile "f" "g") ∧
      (crossedSource "m.ts" "g" "f").analyze {} [] = .ok (crossedFile "g" "f") := by
  decide

theorem build_crossed :
    build (Batch.analyze {} []
      [crossedSource "./m.ts" "f" "g", crossedSource "m.ts" "g" "f"]).analyses
      = crossedRegistry :=
  build_pair crossedSource_analyze.1 crossedSource_analyze.2 (by decide)

theorem scopesOf_crossed : crossedRegistry.scopesOf (crossedDeclaration "g" (some "m.ts:f"))
    = [crossedDeclaration "g" (some "m.ts:f"), crossedDeclaration "f" (some "m.ts:g"),
      crossedDeclaration "g" none] := by
  decide

/-- The call of the sample is found in a scope that the other file declares. -/
theorem resolveCall?_crossed :
    crossedRegistry.resolveCall? (crossedDeclaration "g" (some "m.ts:f")) (.plain "f") none
      = some (crossedDeclaration "f" (some "m.ts:g")) := by
  have hnamed : crossedRegistry.qualified "m.ts" "f"
      = [crossedDeclaration "f" none, crossedDeclaration "f" (some "m.ts:g")] :=
    List.mergeSort_of_pairwise (by decide)
  have hscope : crossedRegistry.closestScope? (crossedDeclaration "g" (some "m.ts:f"))
      (crossedRegistry.qualified "m.ts" "f") = some (crossedDeclaration "f" (some "m.ts:g")) := by
    rw [hnamed, closestScope?, closest, scopesOf_crossed]
    decide
  show crossedRegistry.resolvePlain? (crossedDeclaration "g" (some "m.ts:f"))
    (crossedFile "g" "f") "f" none = _
  rw [resolvePlain?, show (crossedFile "g" "f").filePath = "m.ts" from rfl, hscope]

/-- From the `g` of the first file the walk goes on to the `f` of the second, since this is the last
one of its name, and from there to the `g` around it, where it ends. A call of `f` finds the nearer
of the two. -/
theorem scope_walks_end_crossed :
    let r := build (Batch.analyze {} []
      [crossedSource "./m.ts" "f" "g", crossedSource "m.ts" "g" "f"]).analyses
    let first := crossedDeclaration "g" (some "m.ts:f")
    let second := crossedDeclaration "f" (some "m.ts:g")
    first ∈ r.declarations ∧
      r.Climbs (fun _ => false) first [first, second, crossedDeclaration "g" none] ∧
      r.Resolves first (.plain "f") none (some second) := by
  obtain ⟨-, hscopes, hresolves, -⟩ :=
    scope_walks_end {} [] [crossedSource "./m.ts" "f" "g", crossedSource "m.ts" "g" "f"]
  rw [build_crossed] at hscopes hresolves ⊢
  have hfirst : crossedDeclaration "g" (some "m.ts:f") ∈ crossedRegistry.declarations := by decide
  refine ⟨hfirst, ?_, (hresolves _ hfirst _ _ _).mpr resolveCall?_crossed.symm⟩
  rw [← scopesOf_crossed]
  exact (hscopes _ hfirst).1

end CallAtlas.Registry
