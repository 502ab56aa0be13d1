import CallAtlas.Proofs.FileOrder
import CallAtlas.Proofs.LexicalScope

/-!
# Proofs.SharedIds — what an id means to a registry and to a graph

The calls of a set of files are resolved by a registry and kept in a graph. Both look declarations
up by their ids, and both take the files in the order of their paths. Where several declarations
have one id, though, the graph keeps the first of them and the registry the last.

* `Registry.sharing` — the declarations with one id, in the order of registration.
* `CallGraph.node?_assemble`, `Registry.declaration?_eq_getLast?` — the graph answers with the first
  of them, the registry with the last.
* `Registry.Filed.nodup_ids` — extracted files with paths of their own and without colons share no
  id.
* `CallGraph.node?_eq_declaration?_iff` — when the two agree.
-/

namespace CallAtlas

namespace Registry

variable {r : Registry} {id : String}

/-- The declarations with an id, in the order of registration. -/
def sharing (r : Registry) (id : String) : List Declaration := r.declarations.filter (·.id = id)

/-- The registry finds the last declaration of an id. -/
theorem declaration?_eq_getLast? (r : Registry) (id : String) :
    r.declaration? id = (r.sharing id).getLast? := by
  rw [declaration?, sharing, ← List.head?_filter, List.filter_reverse, List.head?_reverse]

/-- An id of its own has one meaning. -/
theorem head?_sharing_of_nodup (h : (r.declarations.map (·.id)).Nodup) (id : String) :
    (r.sharing id).head? = (r.sharing id).getLast? := by
  have hids : ((r.sharing id).map (·.id)).Nodup := h.sublist (List.filter_sublist.map _)
  have hall : ∀ d ∈ r.sharing id, d.id
      = id := fun d hd => of_decide_eq_true (List.mem_filter.mp hd).2
  match hsharing : r.sharing id with
  | [] => rfl
  | [d] => rfl
  | d :: e :: rest =>
    -- the first two would have the same id
    rw [hsharing] at hids hall
    have hd : d.id = id := hall d List.mem_cons_self
    have he : e.id = id := hall e (List.mem_cons_of_mem d List.mem_cons_self)
    have hne : d.id ∉ (e :: rest).map (·.id) := (List.nodup_cons.mp hids).1
    exact absurd (List.mem_map.mpr ⟨e, List.mem_cons_self, he.trans hd.symm⟩) hne

/-- Files with paths of their own and without colons share no id. -/
theorem Filed.nodup_ids (h : r.Filed) (hcolons : ∀ f ∈ r.files, ':' ∉ f.filePath.toList) :
    (r.declarations.map (·.id)).Nodup := by
  rw [declarations, List.map_flatMap, List.nodup_flatMap]
  refine ⟨fun f hf => (h.nested f hf).nodup, ?_⟩
  have hpaths : r.files.Pairwise fun f g => f.filePath ≠ g.filePath := List.pairwise_map.mp h.paths
  refine hpaths.imp_of_mem fun {f g} hf hg hne id hid hid' => ?_
  obtain ⟨d, hd, rfl⟩ := List.mem_map.mp hid
  exact h.apart_of_colon_free hf hcolons hd g hg hne.symm hid'

end Registry

namespace CallGraph

variable {files : List FileAnalysis}

/-- The edits declare what the files declare, in order. -/
theorem filterMap_declarationEdits (files : List FileAnalysis) :
    (declarationEdits files).filterMap GraphEdit.declaration? = files.flatMap (·.declarations) := by
  rw [declarationEdits, List.filterMap_flatMap]
  congr 1
  funext f
  rw [List.filterMap_cons_none rfl, List.filterMap_map]
  exact List.filterMap_some

theorem declaration?_of_mem_callEdits {r : Registry} {edit : GraphEdit} (h : edit ∈ callEdits r) :
    edit.declaration? = none := by
  rcases Registry.mem_callEdits_cases h with ⟨source, target, data, rfl⟩ | ⟨e, rfl⟩ <;> rfl

/-- A bridge declares nothing. -/
theorem declaration?_of_mem_bridgeEdits {r : Registry} {g : CallGraph} {edit : GraphEdit}
    (h : edit ∈ bridgeEdits r g) : edit.declaration? = none := by
  obtain ⟨e, -, he⟩ := List.mem_filterMap.mp h
  split at he
  · obtain ⟨_, -, rfl⟩ := Option.map_eq_some_iff.mp he
    rfl
  · cases he
  · cases he

theorem declaration?_of_mem_entryEdits {g : CallGraph} {edit : GraphEdit}
    (h : edit ∈ entryEdits g) : edit.declaration? = none := by
  obtain ⟨_, -, rfl⟩ := List.mem_map.mp h
  rfl

/-- The nodes of a graph are the declarations of its files, added by their ids in the order of
registration. -/
theorem nodes_assemble (files : List FileAnalysis) :
    (assemble files).nodes = (Registry.build files).declarations.foldl
      (addByKey Declaration.id) [] := by
  rw [assemble, nodes_applyAll_of_none fun _ => declaration?_of_mem_entryEdits,
    nodes_applyAll_of_none fun _ => declaration?_of_mem_bridgeEdits, applyAll_append,
    nodes_applyAll_of_none fun _ => declaration?_of_mem_callEdits, nodes_applyAll,
      filterMap_declarationEdits,
    Registry.declarations]

/-- **A graph keeps the first declaration of an id.** -/
theorem node?_assemble (files : List FileAnalysis) (id : String) :
    (assemble files).node? id = ((Registry.build files).sharing id).head? := by
  ext d
  rw [node?_eq_some_iff (wellFormed_assemble files), nodes_assemble, mem_foldl_addByKey,
    Registry.sharing, List.head?_filter]
  constructor
  · rintro ⟨hd | ⟨-, hfirst⟩, rfl⟩
    · exact absurd hd List.not_mem_nil
    · exact hfirst
  · intro hfirst
    obtain rfl : d.id = id := by simpa using List.find?_some hfirst
    exact ⟨Or.inr ⟨List.not_mem_nil, hfirst⟩, rfl⟩

/-- **When a graph and its registry agree on an id.** The graph answers with the first of the
declarations that share the id, the registry with the last, and so they agree exactly if these are
equal. They do for all ids if no id is shared, and so they do after any run over files whose
written-out paths differ and have no colon. -/
theorem node?_eq_declaration?_iff (files : List FileAnalysis) (id : String) :
    let r := Registry.build files
    (assemble files).node? id = (r.sharing id).head? ∧
      r.declaration? id = (r.sharing id).getLast? ∧
      ((assemble files).node? id = r.declaration? id ↔
        ∀ first last, (r.sharing id).head? = some first → (r.sharing id).getLast? = some last →
          first = last) ∧
      ((r.declarations.map (·.id)).Nodup → (assemble files).node? id = r.declaration? id) ∧
      ∀ (settings : ExtractionSettings) (rules : List LayerRule) (sources : List SourceFile),
        files = (Batch.analyze settings rules sources).analyses →
          (sources.map fun f => Path.normalize f.path).Nodup →
            (∀ f ∈ sources, ':' ∉ (Path.normalize f.path).toList) →
              (assemble files).node? id = r.declaration? id := by
  intro r
  have hfirst : (assemble files).node? id = (r.sharing id).head? := node?_assemble files id
  have hlast : r.declaration? id = (r.sharing id).getLast? := Registry.declaration?_eq_getLast? r id
  have hown : (r.declarations.map (·.id)).Nodup →
      (assemble files).node? id = r.declaration? id := by
    intro hids
    rw [hfirst, hlast]
    exact Registry.head?_sharing_of_nodup hids id
  refine ⟨hfirst, hlast, ?_, hown, ?_⟩
  · rw [hfirst, hlast]
    -- with no declaration of the id both sides are empty
    cases r.sharing id with
    | nil => simp
    | cons d rest => simp [List.getLast?_cons]
  · rintro settings rules sources rfl hpaths hcolons
    have hdistinct : (r.files.map (·.filePath)).Nodup :=
      ((Registry.build_perm _).map _).nodup_iff.mpr (Batch.nodup_filePaths hpaths)
    refine hown ((Registry.filed_build hdistinct).nodup_ids fun f hf => ?_)
    obtain ⟨file, hfile, hread⟩ := Registry.exists_analyze_of_mem_build hf
    rw [SourceFile.filePath_of_analyze hread]
    exact hcolons file hfile

/-! In one file `run` stands inside a function, next to the `helper` that it calls. In the other it
stands alone. -/

def innerSource : SourceFile :=
  let call : Tree.Node :=
    .mk { kind := "call_expression" } [.mk { kind := "identifier", text := "helper",
                                             fields := ["function"] } []]
  ⟨"a.ts", "", .mk { kind := "program" } [Registry.strayTree "function_declaration" "outer"
    [Registry.strayTree "function_declaration" "run" [call],
      Registry.strayTree "function_declaration" "helper" []]]⟩

def loneSource (path : String) : SourceFile :=
  ⟨path, "", .mk { kind := "program" } [Registry.strayTree "function_declaration" "run" []]⟩

def innerRun : Declaration :=
  Registry.strayDeclaration "a.ts" "run" .function none (some "a.ts:outer")

def innerHelper : Declaration :=
  Registry.strayDeclaration "a.ts" "helper" .function none (some "a.ts:outer")

def loneRun (path : String) : Declaration :=
  Registry.strayDeclaration path "run" .function none none

def innerFile : FileAnalysis :=
  { filePath := "a.ts"
    declarations :=
      [Registry.strayDeclaration "a.ts" "outer" .function none none, innerRun, innerHelper]
    calls := [{ callerId := "a.ts:run", target := .plain "helper", line := 1, via := .direct,
                flags := {} }] }

def loneFile (path : String) : FileAnalysis := { filePath := path, declarations := [loneRun path] }

theorem innerSource_analyze : innerSource.analyze {} [] = .ok innerFile := by decide

theorem build_apart :
    Registry.build (Batch.analyze {} [] [innerSource, loneSource "b.ts"]).analyses
      = ⟨[innerFile, loneFile "b.ts"]⟩ :=
  Registry.build_pair innerSource_analyze
    (show (loneSource "b.ts").analyze {} [] = .ok (loneFile "b.ts") by decide) (by decide)

def sharedRegistry : Registry := ⟨[innerFile, loneFile "a.ts"]⟩

theorem build_shared :
    Registry.build (Batch.analyze {} [] [innerSource, loneSource "./a.ts"]).analyses
      = sharedRegistry :=
  Registry.build_pair innerSource_analyze
    (show (loneSource "./a.ts").analyze {} [] = .ok (loneFile "a.ts") by decide) (by decide)

/-- Who sees the `helper`: only the `run` beside it. -/
theorem resolveCall?_shared :
    sharedRegistry.resolveCall? innerRun (.plain "helper") none = some innerHelper ∧
      sharedRegistry.resolveCall? (loneRun "a.ts") (.plain "helper") none = none := by
  have hqualified : sharedRegistry.qualified "a.ts" "helper" = [innerHelper] :=
    List.mergeSort_singleton _
  have hinner : sharedRegistry.closestScope? innerRun [innerHelper] = some innerHelper := by decide
  have hlone : sharedRegistry.closestScope? (loneRun "a.ts") [innerHelper] = none := by decide
  have hnamed : sharedRegistry.named "helper" = [] := List.mergeSort_nil
  have hglobal : sharedRegistry.closestGlobal? "a.ts" "helper" = none := by
    rw [Registry.closestGlobal?, hnamed]
    rfl
  constructor
  · show sharedRegistry.resolvePlain? innerRun (loneFile "a.ts") "helper" none = _
    rw [Registry.resolvePlain?, show (loneFile "a.ts").filePath = "a.ts" from rfl,
      hqualified, hinner]
  · show sharedRegistry.resolvePlain? (loneRun "a.ts") (loneFile "a.ts") "helper" none = _
    rw [Registry.resolvePlain?, show (loneFile "a.ts").filePath = "a.ts" from rfl,
      hqualified, hlone]
    exact hglobal

/-- With paths of their own the two files agree on every id. -/
theorem node?_eq_declaration?_iff_apart :
    let files := (Batch.analyze {} [] [innerSource, loneSource "b.ts"]).analyses
    (assemble files).node? "a.ts:run" = some innerRun ∧
      ∀ id, (assemble files).node? id = (Registry.build files).declaration? id := by
  intro files
  have hagree : ∀ id, (assemble files).node? id = (Registry.build files).declaration? id := by
    intro id
    obtain ⟨-, -, -, -, hsources⟩ := node?_eq_declaration?_iff files id
    exact hsources {} [] [innerSource, loneSource "b.ts"] rfl (by decide) (by decide)
  refine ⟨?_, hagree⟩
  rw [hagree, build_apart]
  decide

/-- **One id with two meanings.** Both paths are written out as `a.ts`. The graph has the `run`
inside the function, and its call is resolved as one of the `run` that stands alone, from where no
`helper` can be seen. -/
theorem shared_id_means_two :
    let files := (Batch.analyze {} [] [innerSource, loneSource "./a.ts"]).analyses
    let r := Registry.build files
    (assemble files).node? "a.ts:run" = some innerRun ∧
      r.declaration? "a.ts:run" = some (loneRun "a.ts") ∧
      innerRun ≠ loneRun "a.ts" ∧ r.resolveCall? innerRun (.plain "helper") none
        = some innerHelper ∧
      r.resolveCall? (loneRun "a.ts") (.plain "helper") none = none := by
  intro files r
  have hr : r = sharedRegistry := build_shared
  have hnode : (assemble files).node? "a.ts:run" = (r.sharing "a.ts:run").head? :=
    node?_assemble files "a.ts:run"
  rw [hnode, hr]
  exact ⟨by decide, by decide, by decide, resolveCall?_shared.1, resolveCall?_shared.2⟩

end CallGraph

end CallAtlas
