import Mathlib.Data.List.Chain
import CallAtlas.Proofs.EntryRoutes

/-!
# Proofs.EntryPathOrder — the paths to entry points come in order, and none comes twice

`Proofs.EntryRoutes` says which paths are found. Here is said how they are listed. The callers of a
declaration are tried in the order of their ids and the last unfinished path is continued first, so
the paths are found in the order of their ids: what is found, followed by what is unfinished,
increases at every moment. Nothing is left to do for the sort at the end, and no path can be found
twice.

* `Precedes` — two paths part at some declaration, the first one to a smaller id.
* `Lined` — the invariant: found and unfinished paths in order, none longer than the depth limit
  allows. It has one lemma for each thing that can happen to the path on top of the stack.
* `IsEntryPath` — what a path to an entry point is, said without a search.
* `find_entryPaths_exact` — the result.
-/

namespace CallAtlas.EntryPaths

variable {g : CallGraph} {limits : TraversalLimits} {target : String}

/-! ## The order of paths -/

/-- The paths part somewhere, and there the first one goes to the smaller id. -/
def Precedes (a b : List String) : Prop :=
  ∃ common x y restA restB, a = common ++ x :: restA ∧ b = common ++ y :: restB ∧ x < y

namespace Precedes

variable {a b : List String}

/-- Where two paths part does not depend on how the first one goes on. -/
theorem append_left (h : Precedes a b) (more : List String) : Precedes (a ++ more) b := by
  obtain ⟨common, x, y, restA, restB, rfl, rfl, hlt⟩ := h
  exact ⟨common, x, y, restA ++ more, restB, by simp, rfl, hlt⟩

/-- Precedence is decided at the first difference, so what follows it does not matter. -/
theorem append_right (h : Precedes a b) (more : List String) : Precedes a (b ++ more) := by
  obtain ⟨common, x, y, restA, restB, rfl, rfl, hlt⟩ := h
  exact ⟨common, x, y, restA, restB ++ more, rfl, by simp, hlt⟩

/-- Two continuations of one path. -/
theorem of_lt (path : List String) {x y : String} (h : x < y) :
    Precedes (path ++ [x]) (path ++ [y]) :=
  ⟨path, x, y, [], [], rfl, rfl, h⟩

theorem pathLe (h : Precedes a b) : pathLe a b = true := by
  obtain ⟨common, x, y, restA, restB, rfl, rfl, hlt⟩ := h
  induction common with
  | nil => simp [EntryPaths.pathLe, hlt]
  | cons _ _ ih => simp [EntryPaths.pathLe, ih]

/-- Precedence is a case of the lexicographic order. -/
theorem lex (h : Precedes a b) : List.Lex (· < ·) a b := by
  obtain ⟨common, x, y, restA, restB, rfl, rfl, hlt⟩ := h
  induction common with
  | nil => exact .rel hlt
  | cons _ _ ih => exact .cons ih

end Precedes

/-! ## The invariant -/

/-- A search in progress, with its paths in order. -/
structure Lined (limits : TraversalLimits) (todo : List (List String))
    (found : EntryPaths) : Prop where
  sorted : (found.paths ++ todo.map List.reverse).Pairwise Precedes
  short : ∀ path ∈ found.paths ++ todo.map List.reverse, path.length ≤ limits.maxDepth + 1

namespace Lined

variable {todo : List (List String)} {found : EntryPaths}

/-- The search starts in order: one open path and nothing found. -/
theorem initial (limits : TraversalLimits) (target : String) : Lined limits [[target]] {} where
  sorted := List.pairwise_singleton _ _
  short path hpath := by
    obtain rfl : path = [target] := List.mem_singleton.mp hpath
    exact Nat.le_add_left 1 _

/-- Only the border between what is found and what is unfinished moves. -/
theorem arrive {path : List String} (h : Lined limits (path :: todo) found) :
    Lined limits todo { found with paths := found.paths ++ [path.reverse] } where
  sorted := by
    rw [List.append_assoc]
    exact h.sorted
  short := by
    rw [List.append_assoc]
    exact h.short

/-- A path may be dropped, whatever the flag says. -/
theorem drop {path : List String} (h : Lined limits (path :: todo) found) (truncated : Bool) :
    Lined limits todo { found with truncated } := by
  have hsub : (found.paths ++ todo.map List.reverse).Sublist (found.paths ++
      (path :: todo).map List.reverse) :=
    ((List.sublist_cons_self _ _).map _).append_left _
  exact ⟨h.sorted.sublist hsub, fun p hp => h.short p (hsub.subset hp)⟩

/-- A path is replaced by continuations in the order of their ids. They take its place among the
others. -/
theorem extend {path callers : List String} (h : Lined limits (path :: todo) found)
    (hcallers : callers.Pairwise (· < ·)) (hroom : path.length ≤ limits.maxDepth) :
    Lined limits (callers.map (· :: path) ++ todo) found := by
  have hmap : (callers.map (· :: path) ++ todo).map List.reverse
      = callers.map (path.reverse ++ [·]) ++ todo.map List.reverse := by simp
  obtain ⟨hfound, hopen, hacross⟩ := List.pairwise_append.mp h.sorted
  obtain ⟨hhead, htail⟩ := List.pairwise_cons.mp hopen
  -- the longer paths stand where their common start stood, in the order of the callers
  constructor
  · rw [hmap]
    refine List.pairwise_append.mpr ⟨hfound, List.pairwise_append.mpr ⟨?_, htail, ?_⟩, ?_⟩
    · exact List.pairwise_map.mpr (hcallers.imp fun hlt => .of_lt path.reverse hlt)
    · intro a ha b hb
      obtain ⟨caller, -, rfl⟩ := List.mem_map.mp ha
      exact (hhead b hb).append_left _
    · intro a ha b hb
      rcases List.mem_append.mp hb with hb | hb
      · obtain ⟨caller, -, rfl⟩ := List.mem_map.mp hb
        exact (hacross a ha _ List.mem_cons_self).append_right _
      · exact hacross a ha b (List.mem_cons_of_mem _ hb)
  · rw [hmap]
    intro p hp
    rcases List.mem_append.mp hp with hp | hp
    · exact h.short p (List.mem_append_left _ hp)
    · rcases List.mem_append.mp hp with hp | hp
      · obtain ⟨caller, -, rfl⟩ := List.mem_map.mp hp
        rw [List.length_append, List.length_reverse, List.length_singleton]
        exact Nat.succ_le_succ hroom
      · exact h.short p (List.mem_append_right _ (List.mem_cons_of_mem _ hp))

/-- What is found increases, and the depth limit holds for it. -/
theorem paths (h : Lined limits todo found) :
    found.paths.Pairwise Precedes ∧ ∀ path ∈ found.paths, path.length ≤ limits.maxDepth + 1 :=
  ⟨(List.pairwise_append.mp h.sorted).1,
    fun path hpath => h.short path (List.mem_append_left _ hpath)⟩

end Lined

/-- **The search keeps the order to its end**, wherever that is. Induction on the rounds. -/
theorem search_lined (hg : g.WellFormed) {fuel visits : Nat} {todo : List (List String)}
    {found : EntryPaths} (h : Lined limits todo found) :
    ∃ rest, Lined limits rest (search g limits fuel visits todo found) := by
  -- one case for each exit of a round; all but the last only drop or close the front path
  induction fuel generalizing visits todo found with
  | zero => exact ⟨todo, h⟩
  | succ fuel ih =>
    cases todo with
    | nil => exact ⟨[], h⟩
    | cons path todo =>
      cases path with
      | nil =>
        rw [search]
        exact ih (h.drop found.truncated)
      | cons current before =>
        rw [search]
        by_cases hentry : g.isEntryPoint current = true
        · rw [if_pos hentry]
          exact ih h.arrive
        · rw [if_neg hentry]
          by_cases hfull : limits.maxVisits ≤ visits
          · rw [if_pos hfull]
            exact ⟨todo, h.drop true⟩
          · rw [if_neg hfull]
            split
            · exact ih (h.drop found.truncated)
            · split
              · exact ih (h.drop true)
              · next hshort =>
                have hcallers :=
                  (CallGraph.pairwise_callerIds hg current).filter (!(current :: before).contains ·)
                exact ih (h.extend hcallers (Nat.not_lt.mp hshort))

/-! ## Paths without a search -/

/-- A way from the target to a caller, to a caller of that, and so on to the first entry point. -/
structure IsEntryPath (g : CallGraph) (target : String) (path : List String) : Prop where
  starts : path.head? = some target
  climbs : path.IsChain fun current caller => g.Calls caller current
  nodup : path.Nodup
  arrives : ∃ id, path.getLast? = some id ∧ g.isEntryPoint id = true
  inside : ∀ id ∈ path.dropLast, g.isEntryPoint id = false

/-- A route, read off the list that it is. Induction on the list. -/
theorem route_iff {route : List String} :
    Route g target route ↔ route.getLast? = some target ∧ route.IsChain g.Calls ∧ route.Nodup ∧
      ∀ id ∈ route.tail, g.isEntryPoint id = false := by
  -- from the caller's end, as routes are built
  induction route with
  | nil => exact iff_of_false not_route_nil (by simp)
  | cons caller before ih =>
    cases before with
    | nil =>
      constructor
      · rintro ⟨⟩
        simp
      · rintro ⟨hlast, -⟩
        obtain rfl : caller = target := Option.some.inj hlast
        exact .start
    | cons current before =>
      rw [List.getLast?_cons_cons, List.isChain_cons_cons, List.nodup_cons, List.tail_cons,
        List.forall_mem_cons]
      rw [List.tail_cons] at ih
      constructor
      · rintro (_ | ⟨hroute, hopen, hcall, hnew⟩)
        obtain ⟨hlast, hchain, hnodup, hinside⟩ := ih.mp hroute
        exact ⟨hlast, ⟨hcall, hchain⟩, ⟨hnew, hnodup⟩, hopen, hinside⟩
      · rintro ⟨hlast, ⟨hcall, hchain⟩, ⟨hnew, hnodup⟩, hopen, hinside⟩
        exact .step (ih.mpr ⟨hlast, hchain, hnodup, hinside⟩) hopen hcall hnew

/-- **The paths that the search is after.** It writes them from their ends. -/
theorem isEntryPath_iff {path : List String} :
    IsEntryPath g target path ↔ Arrives g target path.reverse := by
  rw [Arrives, route_iff, List.getLast?_reverse, List.isChain_reverse, List.nodup_reverse,
    List.tail_reverse, List.head?_reverse]
  simp only [List.mem_reverse]
  constructor
  · exact fun h => ⟨⟨h.starts, h.climbs, h.nodup, h.inside⟩, h.arrives⟩
  · rintro ⟨⟨hstarts, hclimbs, hnodup, hinside⟩, harrives⟩
    exact ⟨hstarts, hclimbs, hnodup, harrives, hinside⟩

/-! ## The result -/

/-- **The list of the paths.** It is in order before it is sorted. -/
theorem find_lined (hg : g.WellFormed) (limits : TraversalLimits) {query : String} {p : EntryPaths}
    (hfind : find g limits query = .ok p) :
    p.paths.Pairwise Precedes ∧ ∀ path ∈ p.paths, path.length ≤ limits.maxDepth + 1 := by
  cases htarget : g.resolveTarget query with
  | error e =>
    rw [find, htarget] at hfind
    cases hfind
  | ok d =>
    let fuel := (limits.maxVisits + 1) * (g.nodes.length + 1) + 1
    obtain ⟨rest, hlined⟩ : ∃ rest, Lined limits rest (search g limits fuel 0 [[d.id]] {}) :=
      search_lined hg (.initial limits d.id)
    obtain ⟨hsorted, hshort⟩ := hlined.paths
    have hkeep : ∀ xs : List (List String), xs.Pairwise Precedes → Order.sortOn pathLe id xs = xs :=
      fun xs hxs => List.mergeSort_of_pairwise (hxs.imp fun hlt => hlt.pathLe)
    rw [find, htarget] at hfind
    obtain rfl := Except.ok.inj hfind
    rw [hkeep _ hsorted]
    exact ⟨hsorted, hshort⟩

/-- **The paths to entry points, listed exactly.** On every graph that edits can build, for every
query that means a declaration and all limits there is an answer. Every path in it leads from that
declaration from caller to caller, without repetition, to the first entry point, and has one more
element than the depth limit at most. The paths are strictly sorted. If the flag is not set, every
such path is there. -/
theorem find_entryPaths_exact (edits : List GraphEdit) (limits : TraversalLimits) (query : String)
    (d : Declaration) (hfound : (({} : CallGraph).applyAll edits).resolveTarget query = .ok d) :
    let g := ({} : CallGraph).applyAll edits
    ∃ p, find g limits query = .ok p ∧
      (∀ path ∈ p.paths, IsEntryPath g d.id path ∧ path.length ≤ limits.maxDepth + 1) ∧
      p.paths.Pairwise (List.Lex (· < ·)) ∧
      (p.truncated = false → ∀ path, IsEntryPath g d.id path → path ∈ p.paths) := by
  intro g
  have hg : g.WellFormed := CallGraph.wellFormed_applyAll edits
  obtain ⟨p, hp, hsound, hcomplete⟩ := find_traced hg limits hfound
  obtain ⟨hsorted, hshort⟩ := find_lined hg limits hp
  refine ⟨p, hp, fun path hpath => ⟨isEntryPath_iff.mpr (hsound path hpath), hshort path hpath⟩,
    hsorted.imp fun hlt => hlt.lex, fun hwhole path hpath => ?_⟩
  have hmem := hcomplete hwhole path.reverse (isEntryPath_iff.mp hpath)
  rwa [List.reverse_reverse] at hmem

/-- The small graph with an entry point. -/
def openSample : List GraphEdit := CallGraph.sample ++ [.entry "page"]

/-- To the only entry point there is a direct way from `save` and one around. The second one goes
past `retry` and `submit`, which call each other, and `form`, which calls `submit`, leads to no
entry point. -/
theorem find_entryPaths_exact_sample :
    (({} : CallGraph).applyAll openSample).resolveTarget "save"
      = .ok (CallGraph.sampleNode "save") ∧
      find (({} : CallGraph).applyAll openSample) ⟨4, 9⟩ "save"
        = .ok ⟨[["save", "page"], ["save", "retry", "submit", "page"]], false⟩ ∧
      [["save", "page"], ["save", "retry", "submit", "page"]].Pairwise (List.Lex (· < ·)) ∧
      ∀ path, IsEntryPath (({} : CallGraph).applyAll openSample) "save" path ↔
        path = ["save", "page"] ∨ path = ["save", "retry", "submit", "page"] := by
  have hrun : find (({} : CallGraph).applyAll openSample) ⟨4, 9⟩ "save"
      = .ok ⟨[["save", "page"], ["save", "retry", "submit", "page"]], false⟩ := by cbv
  have hfound : (({} : CallGraph).applyAll openSample).resolveTarget "save"
      = .ok (CallGraph.sampleNode "save") := by rfl
  obtain ⟨p, hp, hsound, hsorted, hcomplete⟩ :=
    find_entryPaths_exact openSample ⟨4, 9⟩ "save" _ hfound
  obtain rfl : _ = p := Except.ok.inj (hrun.symm.trans hp)
  refine ⟨hfound, hrun, hsorted, fun path => ⟨fun hpath => ?_, fun hpath => ?_⟩⟩
  · simpa using hcomplete rfl path hpath
  · exact (hsound path (by simpa using hpath)).1

end CallAtlas.EntryPaths
