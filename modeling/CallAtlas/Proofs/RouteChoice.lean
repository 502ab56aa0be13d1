import CallAtlas.Proofs.RegistryClosed
import CallAtlas.Proofs.RouteLanguage
import CallAtlas.Proofs.Sorting
import Mathlib.Data.List.Forall2
import Mathlib.Data.Set.BooleanAlgebra
import Mathlib.Order.CompletePartialOrder

/-!
# Proofs.RouteChoice — which of several routes serves a request

Several routes can serve one request. The one with the fewest dynamic segments is taken, and among
equals the one whose file comes first. Is that the most specific one, the one that serves nothing
that another candidate does not serve?

Without a catch-all it is: a pattern that serves only part of what another one serves has the same
length, and a literal where the other one has a parameter. A catch-all counts as one dynamic
segment, however much it takes. So it can be taken before a route with as many parameters, or with
more, that serves only part of what it serves.

* `matchRoute?_eq_some` — the handler that is found belongs to a candidate that comes before all
  others.
* `Narrows`, `narrows_of_describes` — inclusion of what two patterns describe, read off their
  segments.
* `dynamicSegments_lt_of_ssubset` — less is served with fewer dynamic segments, if there is no
  catch-all.
* `matchRoute?_least_dynamic` — both together.
* `matchRoute?_takes_catchAll` — a catch-all that is taken before parameters.
-/

namespace CallAtlas

/-! ## The candidates and their order -/

/-- The first route is less dynamic, or equally dynamic and its file does not come later. -/
def RouteEntry.Before (a b : RouteEntry) : Prop :=
  a.pattern.dynamicSegments < b.pattern.dynamicSegments ∨
    a.pattern.dynamicSegments = b.pattern.dynamicSegments ∧ a.file ≤ b.file

/-- A route of the registry that serves a request and has a handler for the method. -/
structure Registry.Candidate (r : Registry) (method : HttpMethod) (request : List String)
    (e : RouteEntry) (d : Declaration) : Prop where
  mem : e ∈ r.routes
  serves : e.pattern.serves request = true
  handler : e.handlers.lookup method = some d

namespace Registry

variable {r : Registry} {method : HttpMethod} {path : String} {request : List String}
  {d : Declaration}

def rank (c : RouteEntry × Declaration) : Nat × String := (c.1.pattern.dynamicSegments, c.1.file)

/-- Of two candidates the one of lower rank is taken, the first one in a tie. -/
theorem moreSpecific_eq (a b : RouteEntry × Declaration) :
    moreSpecific a b = if Order.lex Order.count Order.text (rank a) (rank b) then a else b := by
  dsimp only [moreSpecific]
  rw [Order.not_lex_count_text]
  unfold rank
  cases Order.lex Order.count Order.text (a.1.pattern.dynamicSegments, a.1.file)
    (b.1.pattern.dynamicSegments, b.1.file) <;> rfl

/-- Lower rank is fewer dynamic segments, and in a tie the smaller path. -/
theorem before_of_rank {a b : RouteEntry × Declaration}
    (h : Order.lex Order.count Order.text (rank a) (rank b) = true) : a.1.Before b.1 := by
  obtain ⟨hcount, htext⟩ := Order.lex_eq_true.mp h
  rcases Nat.lt_or_eq_of_le (of_decide_eq_true hcount) with hlt | heq
  · exact Or.inl hlt
  · exact Or.inr ⟨heq, of_decide_eq_true (htext (decide_eq_true heq.ge))⟩

/-- The list from which `matchRoute?` chooses. -/
def candidates (r : Registry) (method : HttpMethod) (request : List String) :
    List (RouteEntry × Declaration) :=
  (r.routes.filter (·.pattern.serves request)).filterMap fun e =>
    (e.handlers.lookup method).map (e, ·)

/-- The candidates are the routes that serve the request with a handler for the method. -/
theorem mem_candidates {c : RouteEntry × Declaration} :
    c ∈ r.candidates method request ↔ r.Candidate method request c.1 c.2 := by
  unfold candidates
  rw [List.mem_filterMap]
  constructor
  · rintro ⟨e, he, hc⟩
    obtain ⟨d, hd, rfl⟩ := Option.map_eq_some_iff.mp hc
    obtain ⟨hmem, hserves⟩ := List.mem_filter.mp he
    exact ⟨hmem, hserves, hd⟩
  · intro h
    exact ⟨c.1, List.mem_filter.mpr ⟨h.mem, h.serves⟩,
      Option.map_eq_some_iff.mpr ⟨c.2, h.handler, rfl⟩⟩

/-- The match is the least candidate. -/
theorem matchRoute?_eq (r : Registry) (method : HttpMethod) (path : String) :
    r.matchRoute? method path = (Request.segments? path).bind fun request =>
      match r.candidates method request with
      | [] => none
      | first :: rest => some (rest.foldl moreSpecific first).2 :=
  rfl

/-- **The choice.** The handler that is found belongs to a candidate that comes before all
others. -/
theorem matchRoute?_eq_some (h : r.matchRoute? method path = some d) :
    ∃ request a, Request.segments? path = some request ∧ r.Candidate method request a d ∧
      ∀ b e, r.Candidate method request b e → a.Before b := by
  rw [matchRoute?_eq] at h
  obtain ⟨request, hrequest, h⟩ := Option.bind_eq_some_iff.mp h
  split at h
  · cases h
  · next first rest hcandidates =>
    obtain rfl := Option.some.inj h
    have hmem := foldl_choose_mem moreSpecific_cases first rest
    rw [← hcandidates] at hmem
    refine ⟨request, (rest.foldl moreSpecific first).1, hrequest, mem_candidates.mp hmem,
      fun b e hb => ?_⟩
    have hother : (b, e) ∈ r.candidates method request := mem_candidates.mpr hb
    rw [hcandidates] at hother
    have hleast :=
      Order.foldl_least (Order.lex_total Order.count_total Order.text_total) rank
        moreSpecific_eq first rest
    exact before_of_rank (hleast (b, e) hother)

/-- **A request with a candidate finds a handler.** -/
theorem exists_matchRoute? (hrequest : Request.segments? path = some request) {e : RouteEntry}
    (he : r.Candidate method request e d) : ∃ found, r.matchRoute? method path = some found := by
  have hmem : (e, d) ∈ r.candidates method request := mem_candidates.mpr he
  rw [matchRoute?_eq, hrequest, Option.bind_some]
  split
  · next hnone =>
    rw [hnone] at hmem
    cases hmem
  · exact ⟨_, rfl⟩

end Registry

/-! ## Inclusion of patterns -/

namespace RoutePattern

variable {a b : List RouteSegment} {request : List String}

/-- The requests that a pattern serves. -/
def served (p : RoutePattern) : Set (List String) := {request | p.serves request = true}

/-- The first segment stands for part of what the second one stands for, and neither is a
catch-all. -/
inductive Narrows : RouteSegment → RouteSegment → Prop where
  | literal (text : String) : Narrows (.literal text) (.literal text)
  | param : Narrows .param .param
  | fill (text : String) : Narrows (.literal text) .param

theorem ne_append_singleton (text : String) : text ++ "x" ≠ text := by
  intro h
  have hlength := congrArg String.length h
  rw [String.length_append] at hlength
  exact absurd hlength (by simp)

/-- A catch-all at the front stands for requests of two lengths, so it has no place where all have
the same one. -/
theorem not_describes_catchAll_of_fixed (hfixed : Fixed a) {isOptional : Bool}
    (hsub : ∀ request, Describes [.catchAll isOptional] request → Describes a request) : False := by
  have hdescribes : ∀ first rest, Describes a (first :: rest) := fun first rest =>
    hsub _ (describes_catchAll_cons.mpr ⟨rfl, Or.inl (List.cons_ne_nil _ _)⟩)
  have hone := (hdescribes "" []).length_eq hfixed
  have htwo := (hdescribes "" [""]).length_eq hfixed
  simp only [List.length_cons, List.length_nil] at hone htwo
  omega

/-- If one pattern describes all that another one does, so do their rests, and any first segment
that the other one allows is allowed. -/
theorem describes_rest {s t : RouteSegment} (hs : ∀ isOptional, s ≠ .catchAll isOptional)
    (ht : ∀ isOptional, t ≠ .catchAll isOptional)
    (hsub : ∀ request, Describes (s :: b) request → Describes (t :: a) request) {first : String}
    (hfirst : ∀ text, s = .literal text → first = text) {rest : List String}
    (hrest : Describes b rest) : (∀ text, t = .literal text → first = text) ∧ Describes a rest := by
  have hdescribed :=
    hsub (first :: rest) ((describes_cons hs).mpr ⟨first, rest, rfl, hfirst, hrest⟩)
  obtain ⟨first', rest', hrequest, hliteral, hrest'⟩ := (describes_cons ht).mp hdescribed
  obtain ⟨rfl, rfl⟩ := List.cons.inj hrequest
  exact ⟨hliteral, hrest'⟩

/-- **Inclusion, segment by segment.** If all that `b` describes is described by `a`, where `a` has
no catch-all, then each segment of `b` narrows the segment of `a` in its place. Induction on `b`; a
request that it describes shows what may follow its first segment. -/
theorem narrows_of_describes (hfixed : Fixed a) (hb : Describes b request)
    (hsub : ∀ request, Describes b request → Describes a request) : List.Forall₂ Narrows b a := by
  induction b generalizing a request with
  | nil =>
    have hlength := (hsub [] (describes_nil.mpr rfl)).length_eq hfixed
    rw [List.eq_nil_of_length_eq_zero hlength.symm]
    exact .nil
  | cons s b ih =>
    cases a with
    | nil =>
      obtain rfl := describes_nil.mp (hsub _ hb)
      cases s with
      | literal text =>
        obtain ⟨rest, hrest, -⟩ := describes_literal_cons.mp hb
        cases hrest
      | param =>
        obtain ⟨first, rest, hrest, -⟩ := describes_param_cons.mp hb
        cases hrest
      | catchAll isOptional =>
        obtain ⟨rfl, -⟩ := describes_catchAll_cons.mp hb
        exact (not_describes_catchAll_of_fixed fixed_nil hsub).elim
    | cons t a =>
      obtain ⟨ht, hfixed'⟩ := fixed_cons.mp hfixed
      cases s with
      | literal text =>
        obtain ⟨rest, rfl, hrest⟩ := describes_literal_cons.mp hb
        have hnext := fun more (hmore : Describes b more) =>
          describes_rest (by simp) ht hsub (show ∀ other, _ = _ → text = other by simp) hmore
        refine .cons ?_ (ih hfixed' hrest fun more hmore => (hnext more hmore).2)
        cases t with
        | literal other =>
          rw [(hnext rest hrest).1 other rfl]
          exact .literal other
        | param => exact .fill text
        | catchAll isOptional => exact absurd rfl (ht isOptional)
      | param =>
        obtain ⟨_, rest, rfl, hrest⟩ := describes_param_cons.mp hb
        have hnext := fun first more (hmore : Describes b more) =>
          describes_rest (by simp) ht hsub (show ∀ other, _ = _ → first = other by simp) hmore
        refine .cons ?_ (ih hfixed' hrest fun more hmore => (hnext "" more hmore).2)
        cases t with
        | literal other =>
          -- a first segment other than the literal is not served by `a`
          exact absurd ((hnext (other ++ "x") rest hrest).1 other rfl) (ne_append_singleton other)
        | param => exact .param
        | catchAll isOptional => exact absurd rfl (ht isOptional)
      | catchAll isOptional =>
        obtain ⟨rfl, -⟩ := describes_catchAll_cons.mp hb
        exact (not_describes_catchAll_of_fixed hfixed hsub).elim

theorem countP_literal_cons (text : String) (q : List RouteSegment) :
    (RouteSegment.literal text :: q).countP (·.isDynamic) = q.countP (·.isDynamic) :=
  List.countP_cons_of_neg (by simp [RouteSegment.isDynamic])

theorem countP_param_cons (q : List RouteSegment) :
    (RouteSegment.param :: q).countP (·.isDynamic) = q.countP (·.isDynamic) + 1 :=
  List.countP_cons_of_pos rfl

/-- A narrower pattern has no more dynamic segments. -/
theorem countP_le_of_narrows (h : List.Forall₂ Narrows b a) :
    b.countP (·.isDynamic) ≤ a.countP (·.isDynamic) := by
  induction h with
  | nil => exact Nat.le_refl _
  | cons hs _ ih =>
    -- only filling in a parameter changes the number
    cases hs with
    | literal text => rwa [countP_literal_cons, countP_literal_cons]
    | param =>
      rw [countP_param_cons, countP_param_cons]
      omega
    | fill text =>
      rw [countP_literal_cons, countP_param_cons]
      omega

/-- Segments that narrow others, and are as dynamic, are the same. -/
theorem eq_of_narrows (h : List.Forall₂ Narrows b a)
    (hcount : a.countP (·.isDynamic) ≤ b.countP (·.isDynamic)) : b = a := by
  induction h with
  | nil => rfl
  | cons hs htail ih =>
    have hle := countP_le_of_narrows htail
    cases hs with
    | literal text =>
      rw [countP_literal_cons, countP_literal_cons] at hcount
      rw [ih hcount]
    | param =>
      rw [countP_param_cons, countP_param_cons] at hcount
      rw [ih (by omega)]
    | fill text =>
      -- a parameter of `a` is a literal in `b`, and nothing in the rest makes up for it
      rw [countP_literal_cons, countP_param_cons] at hcount
      omega

/-- **Less is served with fewer dynamic segments**, if there is no catch-all. -/
theorem dynamicSegments_lt_of_ssubset {p q : RoutePattern} (hfixed : Fixed p.segments)
    (hserves : q.serves request = true) (hserved : q.served ⊂ p.served) :
    q.dynamicSegments < p.dynamicSegments := by
  have hnarrows : List.Forall₂ Narrows q.segments p.segments := by
    apply narrows_of_describes hfixed ((serves_eq_true_iff q request).mp hserves)
    intro other hother
    exact (serves_eq_true_iff p other).mp (hserved.subset ((serves_eq_true_iff q other).mpr hother))
  by_contra hle
  have hsegments := eq_of_narrows hnarrows (Nat.le_of_not_lt hle)
  apply hserved.ne
  show {request | q.serves request = true} = {request | p.serves request = true}
  simp only [serves, hsegments]

/-- A pattern that serves anything has a catch-all at its end, if it has one at all. -/
theorem exists_catchAll_of_not_fixed {p : RoutePattern} (hserves : p.serves request = true)
    (h : ¬ Fixed p.segments) :
    ∃ front isOptional, p.segments = front ++ [.catchAll isOptional] ∧ Fixed front := by
  have hdescribes := (serves_eq_true_iff p request).mp hserves
  generalize p.segments = segments at hdescribes h
  cases hdescribes with
  | exactly hfixed => exact absurd hfixed h
  | onward hfixed => exact ⟨_, _, rfl, hfixed⟩

/-- In place of a catch-all, any segments that are no catch-all serve only part of what it
serves. -/
theorem served_ssubset_catchAll (text : String) {q : List RouteSegment} (hq : q ≠ [])
    (hfixed : Fixed q) (isOptional : Bool) :
    (⟨.literal text :: q⟩ : RoutePattern).served ⊂
      (⟨[.literal text, .catchAll isOptional]⟩ : RoutePattern).served := by
  have hlength : ∀ rest, Describes q rest →
      rest.length = q.length := fun rest h => h.length_eq hfixed
  have hcatchAll : ∀ rest, rest ≠ [] →
      Describes [.literal text, .catchAll isOptional] (text :: rest) :=
    fun rest hrest => describes_literal_cons.mpr ⟨rest, rfl,
      describes_catchAll_cons.mpr ⟨rfl, Or.inl hrest⟩⟩
  have hsubset : (⟨.literal text :: q⟩ : RoutePattern).served
      ⊆ served ⟨[.literal text, .catchAll isOptional]⟩ := by
    intro request h
    obtain ⟨rest, rfl, hrest⟩ := describes_literal_cons.mp ((serves_eq_true_iff _ _).mp h)
    apply (serves_eq_true_iff _ _).mpr
    apply hcatchAll rest
    rw [← List.length_pos_iff, hlength rest hrest, List.length_pos_iff]
    exact hq
  -- a request with one segment more than `q` is served by the catch-all alone
  refine (Set.ssubset_iff_of_subset hsubset).mpr ⟨text :: List.replicate (q.length + 1) text,
    ?_, fun h => ?_⟩
  · exact (serves_eq_true_iff _ _).mpr (hcatchAll _ (by simp))
  · obtain ⟨rest, hrequest, hrest⟩ := describes_literal_cons.mp ((serves_eq_true_iff _ _).mp h)
    have hrest := hlength rest hrest
    rw [← (List.cons.inj hrequest).2, List.length_replicate] at hrest
    omega

end RoutePattern

namespace Registry

/-- The handler of a route file. -/
def routeHandler (path : String) : Declaration :=
  { id := path ++ ":GET", name := "GET", kind := .function, exported := true, signature := "()",
    span := ⟨1, 1⟩
    filePath := path }

/-- A route file with one handler. -/
def routeFile (path : String) : FileAnalysis :=
  { filePath := path
    layer := .routeHandler
    isRouteHandler := true
    declarations := [routeHandler path] }

/-- **The least dynamic route wins.** A request that some route with a handler for its method serves
finds a handler. Its route comes before each such route: it has fewer dynamic segments, or as many
and an earlier file. Where one of these others serves only part of what the taken route serves, the
taken route ends in a catch-all. So a route without a catch-all is taken only if it is the most
specific one. -/
theorem matchRoute?_least_dynamic (r : Registry) (method : HttpMethod) (path : String) :
    (∀ request e d, Request.segments? path = some request → r.Candidate method request e d →
      ∃ found, r.matchRoute? method path = some found) ∧
    ∀ d, r.matchRoute? method path = some d →
      ∃ request a, Request.segments? path = some request ∧ r.Candidate method request a d ∧
        ∀ b e, r.Candidate method request b e → a.Before b ∧
          (b.pattern.served ⊂ a.pattern.served →
            ∃ front isOptional, a.pattern.segments = front ++ [.catchAll isOptional] ∧
              RoutePattern.Fixed front) := by
  refine ⟨fun request e d hrequest he => exists_matchRoute? hrequest he, fun d h => ?_⟩
  obtain ⟨request, a, hrequest, ha, hbefore⟩ := matchRoute?_eq_some h
  refine ⟨request, a, hrequest, ha, fun b e hb => ⟨hbefore b e hb, fun hserved => ?_⟩⟩
  apply RoutePattern.exists_catchAll_of_not_fixed ha.serves
  intro hfixed
  have hlt := RoutePattern.dynamicSegments_lt_of_ssubset hfixed hb.serves hserved
  rcases hbefore b e hb with hless | ⟨hequal, -⟩ <;> omega

/-- A parameter beside a literal that it serves too. -/
def userRoutes : List FileAnalysis :=
  [routeFile "app/api/users/[id]/route.ts", routeFile "app/api/users/me/route.ts"]

/-- A literal is taken before the parameter in its place. -/
theorem matchRoute?_least_dynamic_literal :
    (build userRoutes).matchRoute? .get "/api/users/me"
      = some (routeHandler "app/api/users/me/route.ts") ∧
      (∃ found, (build userRoutes).matchRoute? .get "/api/users/me" = some found) ∧
      ∃ request a, Request.segments? "/api/users/me" = some request ∧
        (build userRoutes).Candidate .get request a (routeHandler "app/api/users/me/route.ts") ∧
        ∀ b e, (build userRoutes).Candidate .get request b e → a.Before b ∧
          (b.pattern.served ⊂ a.pattern.served →
            ∃ front isOptional, a.pattern.segments = front ++ [.catchAll isOptional] ∧
              RoutePattern.Fixed front) := by
  have hbuild : build userRoutes = ⟨userRoutes⟩ :=
    congrArg Registry.mk (List.mergeSort_of_pairwise (by decide))
  have hfound : (build userRoutes).matchRoute? .get "/api/users/me"
      = some (routeHandler "app/api/users/me/route.ts") := by
    rw [hbuild]
    decide
  -- the parameter route is a candidate too, so the choice is a real one
  have hcandidate : (build userRoutes).Candidate .get ["api", "users", "me"]
      ⟨⟨[.literal "api", .literal "users", .param]⟩, "app/api/users/[id]/route.ts",
        [(.get, routeHandler "app/api/users/[id]/route.ts")]⟩
      (routeHandler "app/api/users/[id]/route.ts") := by
    rw [hbuild]
    exact ⟨by decide, by decide, rfl⟩
  obtain ⟨hexists, hleast⟩ := matchRoute?_least_dynamic (build userRoutes) .get "/api/users/me"
  exact ⟨hfound, hexists _ _ _ (by decide) hcandidate, hleast _ hfound⟩

/-- Routes with parameters, beside a catch-all that serves all that they serve. -/
def openRoutes : List FileAnalysis :=
  [routeFile "app/api/[...path]/route.ts", routeFile "app/api/[id]/[part]/route.ts",
    routeFile "app/api/[id]/route.ts"]

/-- The routes of these files: their segments behind `api`, and the file itself. -/
def openEntry (q : List RouteSegment) (path : String) : RouteEntry :=
  ⟨⟨.literal "api" :: q⟩, path, [(.get, routeHandler path)]⟩

theorem routes_openRoutes :
    routes ⟨openRoutes⟩ = [openEntry [.catchAll false] "app/api/[...path]/route.ts",
      openEntry [.param, .param] "app/api/[id]/[part]/route.ts",
      openEntry [.param] "app/api/[id]/route.ts"] := by
  decide

/-- **A catch-all is taken before parameters.** In the first request it ties with a single
parameter, and its file comes first. In the second one it counts less than two parameters. In both
the other route serves only part of what the catch-all serves. -/
theorem matchRoute?_takes_catchAll :
    (∃ a b,
      (build openRoutes).Candidate .get ["api", "42"] a
        (routeHandler "app/api/[...path]/route.ts") ∧
      (build openRoutes).Candidate .get ["api", "42"] b (routeHandler "app/api/[id]/route.ts") ∧
      (build openRoutes).matchRoute? .get "/api/42"
        = some (routeHandler "app/api/[...path]/route.ts") ∧
      b.pattern.served ⊂ a.pattern.served) ∧
    ∃ a b,
      (build openRoutes).Candidate .get ["api", "42", "posts"] a
        (routeHandler "app/api/[...path]/route.ts") ∧
      (build openRoutes).Candidate .get ["api", "42", "posts"] b
        (routeHandler "app/api/[id]/[part]/route.ts") ∧
      (build openRoutes).matchRoute? .get "/api/42/posts"
        = some (routeHandler "app/api/[...path]/route.ts") ∧
      b.pattern.served ⊂ a.pattern.served := by
  have hbuild : build openRoutes = ⟨openRoutes⟩ :=
    congrArg Registry.mk (List.mergeSort_of_pairwise (by decide))
  rw [hbuild]
  have hcatchAll : openEntry [.catchAll false] "app/api/[...path]/route.ts"
      ∈ routes ⟨openRoutes⟩ := by
    simp [routes_openRoutes]
  have hone : openEntry [.param] "app/api/[id]/route.ts" ∈ routes ⟨openRoutes⟩ := by
    simp [routes_openRoutes]
  have htwo : openEntry [.param, .param] "app/api/[id]/[part]/route.ts" ∈ routes ⟨openRoutes⟩ := by
    simp [routes_openRoutes]
  -- one and two parameters: the catch-all has no more dynamic segments, and comes first by its path
  constructor
  · refine ⟨_, _, ⟨hcatchAll, by decide, rfl⟩, ⟨hone, by decide, rfl⟩, by decide, ?_⟩
    exact RoutePattern.served_ssubset_catchAll "api" (by simp) (by simp [RoutePattern.Fixed]) false
  · refine ⟨_, _, ⟨hcatchAll, by decide, rfl⟩, ⟨htwo, by decide, rfl⟩, by decide, ?_⟩
    exact RoutePattern.served_ssubset_catchAll "api" (by simp) (by simp [RoutePattern.Fixed]) false

end Registry

end CallAtlas
