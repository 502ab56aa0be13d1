import CallAtlas.Proofs.RequestAddress
import CallAtlas.Proofs.RouteLanguage
import CallAtlas.Proofs.TextCuts

/-!
# Proofs.OwnAddress — canonical requests, and the address that a route shows

The segments of a request have a canonical address: a slash in front of each. Cutting it gives them
back, since no two slashes stand side by side and so no `://` can arise, whatever colons the
segments have. The text that a pattern shows is such an address, with a placeholder for each dynamic
segment. A placeholder is a segment like any other, so the pattern serves it.

* `segments?_address` — the canonical address of segments has these segments.
* `of_segments?` — what the segments of a request are.
* `render_eq_address` — a pattern shows the address of its texts.
* `describes_shown` — a pattern describes its texts, if it has no catch-all before the end.
* `addresses_canonical` — requests and routes.
-/

namespace CallAtlas

namespace Request

/-! ## Canonical addresses -/

/-- A segment of a request: not empty, and nothing in it ends a segment or a path. -/
structure IsSegment (s : String) : Prop where
  nonempty : s ≠ ""
  plain : ∀ c ∈ s.toList, c ≠ '/' ∧ c ≠ '?' ∧ c ≠ '#'

/-- The path with these segments. -/
def address (segments : List String) : String := "/" ++ Text.join "/" segments

variable {segments : List String}

theorem toList_address (segments : List String) :
    (address segments).toList = '/' :: List.intercalate ['/'] (segments.map String.toList) := by
  rw [address, Text.join, String.toList_append, String.toList_intercalate]
  rfl

/-- A canonical address is a path. There is no `://` in it, for want of two slashes. -/
theorem isPath_address (h : ∀ s ∈ segments, IsSegment s) : IsPath (address segments) where
  rooted := by rw [toList_address, List.head?_cons]
  plain := by
    intro c hc
    rw [toList_address, List.mem_cons] at hc
    have hslash : '/' ≠ '?' ∧ '/' ≠ '#' := by decide
    rcases hc with rfl | hc
    · exact hslash
    · rcases Text.mem_intercalate hc with rfl | ⟨piece, hpiece, hc⟩
      · exact hslash
      · obtain ⟨s, hs, rfl⟩ := List.mem_map.mp hpiece
        exact ((h s hs).plain c hc).2
  no_scheme := by
    intro hmark
    -- a scheme mark has two slashes in a row, and no segment is empty
    have htidy : Text.Tidy '/' (List.intercalate ['/'] (segments.map String.toList)) := by
      refine Text.tidy_intercalate (List.forall_mem_map.mpr fun s hs => ⟨fun hnil => ?_,
        fun hslash => ?_⟩)
      · exact (h s hs).nonempty (String.toList_eq_nil_iff.mp hnil)
      · exact ((h s hs).plain '/' hslash).1 rfl
    have hslashes : ['/', '/'] <:+: schemeMark := ⟨[':'], [], rfl⟩
    rw [toList_address] at hmark
    exact htidy.not_doubled_cons (hslashes.trans hmark)

/-- **The canonical address of segments has these segments.** -/
theorem segments?_address (h : ∀ s ∈ segments, IsSegment s) (hfirst : segments.head? = some "api") :
    segments? (address segments) = some segments := by
  have hpath : IsPath (address segments) := isPath_address h
  have hwhole : ∀ c ∈ (address segments).toList, (c != '?' && c != '#') = true :=
    fun c hc => by simpa using hpath.plain c hc
  obtain ⟨rest, rfl⟩ : ∃ rest, segments = "api" :: rest := by
    cases segments with
    | nil => cases hfirst
    | cons first rest => exact ⟨rest, by rw [Option.some.inj hfirst]⟩
  -- a slash in front is an empty piece in front
  have hpieces : (address ("api" :: rest)).toList
      = List.intercalate ['/'] ([] :: ("api" :: rest).map String.toList) := by
    rw [toList_address, List.map_cons, List.intercalate_cons_cons]
    rfl
  have hsplit : (address ("api" :: rest)).toList.splitOn '/'
      = [] :: ("api" :: rest).map String.toList := by
    rw [hpieces]
    refine List.splitOn_intercalate '/' (List.forall_mem_cons.mpr ⟨List.not_mem_nil, ?_⟩)
      (List.cons_ne_nil _ _)
    exact List.forall_mem_map.mpr fun s hs hslash => ((h s hs).plain '/' hslash).1 rfl
  have hkept : (([] :: ("api" :: rest).map String.toList).filter (!·.isEmpty)).map String.ofList
      = "api" :: rest := by
    have hall : (("api" :: rest).map String.toList).filter (!·.isEmpty)
        = ("api" :: rest).map String.toList := by
      refine List.filter_eq_self.mpr (List.forall_mem_map.mpr fun s hs => ?_)
      simpa using (h s hs).nonempty
    rw [List.filter_cons_of_neg (by simp), hall, List.map_map]
    simp [Function.comp_def]
  rw [segments?_path hpath, route?, List.takeWhile_eq_self_iff.mpr hwhole, hsplit, hkept,
    List.dropWhile_cons_of_neg (by simp)]

/-- Cut off before its first `api`, a path starts with `api`. -/
theorem head?_from_api {parts : List String} (h : parts.dropWhile (· != "api") ≠ []) :
    (parts.dropWhile (· != "api")).head? = some "api" := by
  have hfirst := List.head_dropWhile_not (· != "api") h
  rw [List.head?_eq_some_head h]
  simpa using hfirst

/-- **What the segments of a request are.** -/
theorem of_segments? {url : String} (h : segments? url = some segments) :
    segments.head? = some "api" ∧ ∀ s ∈ segments, IsSegment s := by
  unfold segments? at h
  split at h
  · cases h
  · dsimp only at h
    split at h
    · cases h
    · next hfound =>
      cases h
      refine ⟨head?_from_api hfound, fun s hs => ?_⟩
      -- a segment is a piece between slashes, before any query or fragment
      obtain ⟨piece, hpiece, rfl⟩ := List.mem_map.mp ((List.dropWhile_suffix _).subset hs)
      obtain ⟨hpiece, hne⟩ := List.mem_filter.mp hpiece
      obtain ⟨hslash, hsubset⟩ := Text.of_mem_splitOn hpiece
      refine ⟨by simpa using hne, fun c hc => ?_⟩
      rw [String.toList_ofList] at hc
      have hplain := List.mem_takeWhile_imp (p := fun c => c != '?' && c != '#') (hsubset hc)
      refine ⟨?_, by simpa using hplain⟩
      rintro rfl
      exact hslash hc

end Request

/-! ## The address of a route -/

/-- The text of a segment in an address. -/
def RouteSegment.shown : RouteSegment → String
  | .literal text => text
  | .param => "[param]"
  | .catchAll false => "[...rest]"
  | .catchAll true => "[[...rest]]"

/-- A segment is rendered as what is shown of it, after a slash. -/
theorem RouteSegment.render_eq (s : RouteSegment) : s.render = "/" ++ s.shown := by
  cases s with
  | literal text => rfl
  | param => rfl
  | catchAll isOptional => cases isOptional <;> rfl

namespace RoutePattern

variable {path : String} {p : RoutePattern}

/-- Rendering writes the segments one after another. -/
theorem toList_foldl_render (shown : String) (segments : List RouteSegment) :
    (segments.foldl (fun s seg => s ++ seg.render) shown).toList
      = shown.toList ++ segments.flatMap fun seg => '/' :: seg.shown.toList := by
  induction segments generalizing shown with
  | nil => simp
  | cons seg segments ih =>
    rw [List.foldl_cons, ih, RouteSegment.render_eq]
    simp

theorem flatMap_slash (first : RouteSegment) (rest : List RouteSegment) :
    (first :: rest).flatMap (fun seg => '/' :: seg.shown.toList)
      = '/' :: List.intercalate ['/'] ((first :: rest).map fun seg => seg.shown.toList) := by
  induction rest generalizing first with
  | nil => simp
  | cons next rest ih =>
    rw [List.flatMap_cons, ih next]
    simp

/-- **A pattern shows the address of its texts.** -/
theorem render_eq_address (h : p.segments ≠ []) :
    p.render = Request.address (p.segments.map (·.shown)) := by
  obtain ⟨first, rest, hsegments⟩ := List.exists_cons_of_ne_nil h
  apply String.toList_inj.mp
  rw [render, toList_foldl_render, Request.toList_address, hsegments, flatMap_slash, List.map_map]
  rfl

/-- **A pattern describes its texts**, if it has no catch-all before the end. Induction on the
segments. -/
theorem describes_shown {segments : List RouteSegment} (h : Fixed segments.dropLast) :
    Describes segments (segments.map (·.shown)) := by
  induction segments with
  | nil => exact describes_nil.mpr rfl
  | cons s rest ih =>
    cases rest with
    | nil =>
      cases s with
      | literal text => exact describes_literal_cons.mpr ⟨[], rfl, describes_nil.mpr rfl⟩
      | param => exact describes_param_cons.mpr ⟨_, [], rfl, describes_nil.mpr rfl⟩
      | catchAll isOptional => exact describes_catchAll_cons.mpr ⟨rfl, .inl (by simp)⟩
    | cons next rest =>
      rw [List.dropLast_cons_cons, fixed_cons] at h
      have hrest := ih h.2
      cases s with
      | literal text => exact describes_literal_cons.mpr ⟨_, rfl, hrest⟩
      | param => exact describes_param_cons.mpr ⟨_, _, rfl, hrest⟩
      | catchAll isOptional => exact absurd rfl (h.1 isOptional)

/-- The directories that the address of a route file is made from: those from the first `api` on but
the groups. -/
def directories (path : String) : List String :=
  ((Text.split '/' path).dropLast.dropWhile (· != "api")).filter (!isGroup ·)

/-- The pattern of a file is made of its directories from `api` on. -/
theorem of_ofFile? (h : ofFile? path = some p) :
    p.segments = (directories path).map RouteSegment.ofDirectory ∧
      (directories path).head? = some "api" := by
  unfold ofFile? at h
  obtain ⟨file, -, h⟩ := Option.bind_eq_some_iff.mp h
  obtain ⟨⟨stem, ext⟩, -, h⟩ := Option.bind_eq_some_iff.mp h
  dsimp only at h
  split at h
  · split at h
    · cases h
    · next hdirs =>
      cases h
      refine ⟨rfl, ?_⟩
      -- the cut starts at `api`, which no filter for groups takes away
      obtain ⟨first, rest, hcons⟩ := List.exists_cons_of_ne_nil hdirs
      have hfirst := Request.head?_from_api hdirs
      rw [hcons] at hfirst
      obtain rfl : first = "api" := Option.some.inj hfirst
      rw [directories, hcons, List.filter_cons_of_pos (by decide)]
      rfl
  · cases h

/-- No directory of a path has a slash in it. -/
theorem not_mem_slash_of_mem_directories {d : String}
    (h : d ∈ directories path) : '/' ∉ d.toList := by
  have hmem : d ∈ Text.split '/' path :=
    List.dropLast_subset _ ((List.dropWhile_suffix _).subset (List.mem_of_mem_filter h))
  obtain ⟨piece, hpiece, rfl⟩ := List.mem_map.mp hmem
  rw [String.toList_ofList]
  exact (Text.of_mem_splitOn hpiece).1

/-- The text of a directory is that of a literal, or a placeholder. -/
theorem isSegment_shown {d : String} (h : Request.IsSegment d) :
    Request.IsSegment (RouteSegment.ofDirectory d).shown := by
  unfold RouteSegment.ofDirectory
  split
  · exact ⟨by decide, by simp [RouteSegment.shown]⟩
  · split
    · exact ⟨by decide, by simp [RouteSegment.shown]⟩
    · split
      · exact ⟨by decide, by simp [RouteSegment.shown]⟩
      · exact h

/-- **A route serves the address that it shows.** -/
theorem exists_serves_render (h : ofFile? path = some p)
    (hplain : ∀ d ∈ directories path, d ≠ "" ∧ ∀ c ∈ d.toList, c ≠ '?' ∧ c ≠ '#')
    (hlast : Fixed ((directories path).map RouteSegment.ofDirectory).dropLast) :
    ∃ request, Request.segments? p.render = some request ∧ p.serves request = true := by
  obtain ⟨hsegments, hfirst⟩ := of_ofFile? h
  have hne : p.segments ≠ [] := by
    rw [hsegments]
    intro hnil
    rw [List.map_eq_nil_iff.mp hnil] at hfirst
    cases hfirst
  -- the request is the pattern as it is shown: read back from its address, and served
  refine ⟨p.segments.map (·.shown), ?_, ?_⟩
  · rw [render_eq_address hne]
    refine Request.segments?_address ?_ ?_
    · rw [hsegments, List.map_map]
      refine List.forall_mem_map.mpr fun d hd => isSegment_shown ⟨(hplain d hd).1,
        fun c hc => ⟨?_, (hplain d hd).2 c hc⟩⟩
      rintro rfl
      exact not_mem_slash_of_mem_directories hd hc
    · rw [hsegments, List.head?_map, List.head?_map, hfirst]
      rfl
  · rw [serves_eq_true_iff]
    exact describes_shown (hsegments ▸ hlast)

end RoutePattern

open RoutePattern in
/-- **Requests are canonical, and routes serve their own address.** The segments of a request start
with `api`, none is empty or has a slash, a question mark or a hash in it, and their address leads
to the same segments. A route file whose directories are not empty, have no question mark or hash in
them and are no catch-all before the last one (all this from the first `api` on, and groups apart)
serves the address that it shows. -/
theorem Request.addresses_canonical (url path : String) :
    (∀ request, segments? url = some request →
      request.head? = some "api" ∧ (∀ s ∈ request, IsSegment s) ∧
        segments? (address request) = some request) ∧
    ∀ p, ofFile? path = some p →
      (∀ d ∈ directories path, d ≠ "" ∧ ∀ c ∈ d.toList, c ≠ '?' ∧ c ≠ '#') →
      Fixed ((directories path).map RouteSegment.ofDirectory).dropLast →
      ∃ request, segments? p.render = some request ∧ p.serves request = true := by
  refine ⟨fun request h => ?_, fun p h hplain hlast => exists_serves_render h hplain hlast⟩
  obtain ⟨hfirst, hsegments⟩ := of_segments? h
  exact ⟨hfirst, hsegments, segments?_address hsegments hfirst⟩

/-- A full address with empty segments, a colon at the end of one and a second `api`; and a route
with a group, a literal with a colon and an optional catch-all. -/
theorem Request.addresses_canonical_colons :
    segments? "https://example.com/v1//api/users:/api/?q=1" = some ["api", "users:", "api"] ∧
      segments? (address ["api", "users:", "api"]) = some ["api", "users:", "api"] ∧
      RoutePattern.ofFile? "src/api/(admin)/users:/[id]/api/[[...rest]]/route.ts"
        = some ⟨[.literal "api", .literal "users:", .param, .literal "api", .catchAll true]⟩ ∧
      ∃ request, segments? "/api/users:/[param]/api/[[...rest]]" = some request ∧
        (⟨[.literal "api", .literal "users:", .param, .literal "api", .catchAll true]⟩ :
          RoutePattern).serves request = true := by
  have hurl : segments? "https://example.com/v1//api/users:/api/?q=1"
      = some ["api", "users:", "api"] := by decide
  have hfile : RoutePattern.ofFile? "src/api/(admin)/users:/[id]/api/[[...rest]]/route.ts"
      = some ⟨[.literal "api", .literal "users:", .param, .literal "api", .catchAll true]⟩ := by
    decide
  have hdirectories :
      RoutePattern.directories "src/api/(admin)/users:/[id]/api/[[...rest]]/route.ts"
        = ["api", "users:", "[id]", "api", "[[...rest]]"] := by decide
  -- colons that start no scheme, and `api` twice
  obtain ⟨hrequest, hroute⟩ := addresses_canonical "https://example.com/v1//api/users:/api/?q=1"
    "src/api/(admin)/users:/[id]/api/[[...rest]]/route.ts"
  have hshown :=
    hroute _ hfile (by rw [hdirectories]; simp) (by rw [hdirectories, RoutePattern.Fixed]; decide)
  exact ⟨hurl, (hrequest _ hurl).2.2, hfile, hshown⟩

end CallAtlas
