import CallAtlas.Route.Pattern
import Mathlib.Data.List.Infix
import Mathlib.Data.List.TakeWhile

/-!
# Proofs.RequestAddress — what of an address decides its route

An address is cut three times: behind its first `://`, at the next `/` and at the first `?` or `#`.
The search for `://` comes first and looks at the whole text, so it also finds one in the query or
the fragment.

* `afterScheme?_append` — where the search looks in a text of two parts.
* `segments?_with_suffix_iff` — scheme, host, query and fragment of a full address make no
  difference. Behind a path alone query and fragment make none exactly if they hold no address of
  their own, or one that leads to the same segments.
* `nested_address_takes_over` — a login address that names the page to go to next.
-/

namespace CallAtlas.Request

/-! ## The search for a scheme -/

/-- The mark between scheme and host. -/
def schemeMark : List Char := [':', '/', '/']

/-- A URL has a scheme exactly when the mark occurs in it. -/
theorem afterScheme?_eq_none_iff (cs : List Char) :
    afterScheme? cs = none ↔ ¬ schemeMark <:+: cs := by
  fun_induction afterScheme? cs with
  | case1 => simp [schemeMark]
  | case2 rest => simp [schemeMark, List.infix_cons_iff]
  | case3 c cs hmark ih =>
    -- the mark does not start here, so it has to occur later
    have hlead : ¬ schemeMark <+: c :: cs := by
      rintro ⟨rest, hrest⟩
      exact hmark rest (List.cons.inj hrest).1.symm (List.cons.inj hrest).2.symm
    rw [ih, List.infix_cons_iff, or_iff_right hlead]

/-- A mark can lie across the border only if the second part starts with a slash. -/
theorem afterScheme?_append {pre rest : List Char} (hpre : afterScheme? pre = none)
    (hrest : rest.head? ≠ some '/') : afterScheme? (pre ++ rest) = afterScheme? rest := by
  fun_induction afterScheme? pre with
  | case1 => rfl
  | case2 => cases hpre
  | case3 c cs hmark ih =>
    rw [List.cons_append, afterScheme?, ih hpre]
    intro tail hc htail
    -- of the two slashes behind the colon none stands in `rest`, so both stand in `cs`
    match cs, htail with
    | [], htail => exact hrest (by simp [show rest = '/' :: '/' :: tail from htail])
    | [d], htail => exact hrest (by simp [show rest = '/' :: tail from (List.cons.inj htail).2])
    | d :: e :: more, htail =>
      simp only [List.cons_append, List.cons.injEq] at htail
      exact hmark more hc (by rw [htail.1, htail.2.1])

theorem afterScheme?_of_colon_free {scheme : List Char} (h : ':' ∉ scheme) :
    afterScheme? scheme = none :=
  (afterScheme?_eq_none_iff scheme).mpr fun hmark => h (hmark.subset List.mem_cons_self)

/-! ## The parts of an address -/

/-- A path as it stands in an address, without query and fragment. -/
structure IsPath (path : String) : Prop where
  rooted : path.toList.head? = some '/'
  plain : ∀ c ∈ path.toList, c ≠ '?' ∧ c ≠ '#'
  no_scheme : ¬ schemeMark <:+: path.toList

/-- A query, a fragment or both, or nothing. -/
def IsSuffix (suffix : String) : Prop := ∀ c ∈ suffix.toList.head?, c = '?' ∨ c = '#'

def IsScheme (scheme : String) : Prop := ∀ c ∈ scheme.toList, c ≠ '/' ∧ c ≠ '?' ∧ c ≠ '#' ∧ c ≠ ':'

def IsHost (host : String) : Prop := ∀ c ∈ host.toList, c ≠ '/' ∧ c ≠ '?' ∧ c ≠ '#'

variable {scheme host path suffix : String}

theorem head?_ne_slash (h : IsSuffix suffix) : suffix.toList.head? ≠ some '/' := by
  intro hslash
  rcases h '/' hslash with h | h <;> simp at h

/-- The origin of a full address ends where its path starts. -/
theorem withoutOrigin_full (hscheme : IsScheme scheme) (hhost : IsHost host) {address : List Char}
    (haddress : address.head? = some '/') :
    withoutOrigin (scheme.toList ++ schemeMark ++ host.toList ++ address) = address := by
  have hcolon : ':' ∉ scheme.toList := fun h => (hscheme ':' h).2.2.2 rfl
  have hafter : afterScheme? (scheme.toList ++ schemeMark ++ host.toList ++ address)
      = some (host.toList ++ address) := by
    rw [List.append_assoc, List.append_assoc,
      afterScheme?_append (afterScheme?_of_colon_free hcolon) (by simp [schemeMark])]
    rfl
  have hdrop : host.toList.dropWhile (· != '/') = [] :=
    List.dropWhile_eq_nil_iff.mpr fun c hc => by simpa using (hhost c hc).1
  obtain ⟨rest, rfl⟩ : ∃ rest, address = '/' :: rest := by
    cases address with
    | nil => cases haddress
    | cons c rest => exact ⟨rest, by rw [Option.some.inj haddress]⟩
  rw [withoutOrigin, hafter]
  show (host.toList ++ '/' :: rest).dropWhile (· != '/') = '/' :: rest
  rw [List.dropWhile_append, hdrop]
  simp

/-- The segments of an address without origin, from the first `api` on. -/
def route? (address : List Char) : Option (List String) :=
  let parts := ((address.takeWhile fun c => c != '?' && c != '#').splitOn '/').filter (!·.isEmpty)
  match (parts.map String.ofList).dropWhile (· != "api") with
  | [] => none
  | found => some found

/-- A URL with a slash is read as the route behind its origin. -/
theorem segments?_eq_route? {url : String} (h : '/' ∈ url.toList) :
    segments? url = route? (withoutOrigin url.toList) := by
  have hdynamic : url ≠ CallTarget.dynamicPath := by
    rintro rfl
    exact absurd h (by decide)
  rw [segments?, if_neg hdynamic]
  rfl

/-- Query and fragment are cut off what is left when the origin is gone. -/
theorem route?_append (hpath : IsPath path) (hsuffix : IsSuffix suffix) :
    route? (path.toList ++ suffix.toList) = route? path.toList := by
  have hwhole : ∀ c ∈ path.toList, (c != '?' && c != '#') = true := fun c hc => by
    simpa using hpath.plain c hc
  have hnone : suffix.toList.takeWhile (fun c => c != '?' && c != '#') = [] := by
    cases hs : suffix.toList with
    | nil => rfl
    | cons c rest =>
      have hc : c = '?' ∨ c = '#' := hsuffix c (by simp [hs])
      rw [List.takeWhile_cons_of_neg]
      rcases hc with rfl | rfl <;> simp
  rw [route?, route?, List.takeWhile_append_of_pos hwhole, hnone, List.append_nil,
    List.takeWhile_eq_self_iff.mpr hwhole]

/-- A plain path is read as it is. -/
theorem segments?_path (hpath : IsPath path) : segments? path = route? path.toList := by
  rw [segments?_eq_route? (List.mem_of_mem_head? hpath.rooted), withoutOrigin,
    (afterScheme?_eq_none_iff _).mpr hpath.no_scheme]

/-- **A full address.** Only its path counts. -/
theorem segments?_full (hscheme : IsScheme scheme) (hhost : IsHost host) (hpath : IsPath path)
    (hsuffix : IsSuffix suffix) :
    segments? (scheme ++ "://" ++ host ++ path ++ suffix) = segments? path := by
  have hrooted : (path.toList ++ suffix.toList).head? = some '/' := by simp [hpath.rooted]
  have hchars : (scheme ++ "://" ++ host ++ path ++ suffix).toList
      = scheme.toList ++ schemeMark ++ host.toList ++ (path.toList ++ suffix.toList) := by
    simp [schemeMark]
  rw [segments?_eq_route? (by simp), hchars, withoutOrigin_full hscheme hhost hrooted,
    route?_append hpath hsuffix, segments?_path hpath]

/-- **A path with a suffix.** A `://` in the suffix ends the origin, and the segments are those of
what follows its host. -/
theorem segments?_append (hpath : IsPath path) (hsuffix : IsSuffix suffix) :
    segments? (path ++ suffix) = match afterScheme? suffix.toList with
      | none => segments? path
      | some rest => route? (rest.dropWhile (· != '/')) := by
  have hslash : '/' ∈ (path ++ suffix).toList := by
    rw [String.toList_append]
    exact List.mem_append_left _ (List.mem_of_mem_head? hpath.rooted)
  have hafter : afterScheme? (path.toList ++ suffix.toList) = afterScheme? suffix.toList :=
    afterScheme?_append ((afterScheme?_eq_none_iff _).mpr hpath.no_scheme) (head?_ne_slash hsuffix)
  rw [segments?_eq_route? hslash, String.toList_append, withoutOrigin, hafter]
  cases afterScheme? suffix.toList with
  | none =>
    show route? (path.toList ++ suffix.toList) = segments? path
    rw [route?_append hpath hsuffix, segments?_path hpath]
  | some rest => rfl

/-- **When query, fragment and origin leave the route alone.** They always do in a full address.
Behind a path alone they do exactly if the suffix holds no `://`, or if what follows the first one
and its host leads to the same segments. -/
theorem segments?_with_suffix_iff (scheme host path suffix : String) (hscheme : IsScheme scheme)
    (hhost : IsHost host) (hpath : IsPath path) (hsuffix : IsSuffix suffix) :
    segments? (scheme ++ "://" ++ host ++ path ++ suffix) = segments? path ∧
      (¬ schemeMark <:+: suffix.toList → segments? (path ++ suffix) = segments? path) ∧
      (segments? (path ++ suffix) = segments? path ↔
        ∀ rest, afterScheme? suffix.toList = some rest →
          route? (rest.dropWhile (· != '/')) = segments? path) := by
  have happend := segments?_append hpath hsuffix
  refine ⟨segments?_full hscheme hhost hpath hsuffix, fun hplain => ?_, ?_⟩
  · rw [happend, (afterScheme?_eq_none_iff _).mpr hplain]
  · rw [happend]
    cases afterScheme? suffix.toList with
    | none => simp
    | some rest => simp

theorem isPath_login : IsPath "/v1/api/login" where
  rooted := by simp
  plain := by simp
  no_scheme := by rw [← afterScheme?_eq_none_iff]; decide

/-- The query holds a slash, an `api` of its own and a mark that is not whole. -/
theorem segments?_with_suffix_iff_login :
    IsScheme "https" ∧ IsHost "example.com:8080" ∧ IsPath "/v1/api/login" ∧
      IsSuffix "?next=/api/home:/#top" ∧
      segments? ("https" ++ "://" ++ "example.com:8080" ++ "/v1/api/login" ++
        "?next=/api/home:/#top")
        = some ["api", "login"] ∧
      segments? ("/v1/api/login" ++ "?next=/api/home:/#top") = some ["api", "login"] := by
  have hscheme : IsScheme "https" := by simp [IsScheme]
  have hhost : IsHost "example.com:8080" := by simp [IsHost]
  have hsuffix : IsSuffix "?next=/api/home:/#top" := by simp [IsSuffix]
  obtain ⟨hfull, hplain, -⟩ :=
    segments?_with_suffix_iff "https" "example.com:8080" "/v1/api/login" "?next=/api/home:/#top"
    hscheme hhost isPath_login hsuffix
  have hpath : segments? "/v1/api/login" = some ["api", "login"] := by decide
  exact ⟨hscheme, hhost, isPath_login, hsuffix, hfull.trans hpath,
    (hplain (by rw [← afterScheme?_eq_none_iff]; decide)).trans hpath⟩

/-- **A nested address takes over.** The query of a login names a page of another host. The route of
the login is lost, and with an `api` in the nested address it is a route that was never asked
for. -/
theorem nested_address_takes_over :
    IsPath "/v1/api/login" ∧ IsSuffix "?next=https://example.com/home" ∧
      IsSuffix "?next=https://example.com/api/home" ∧
        segments? "/v1/api/login" = some ["api", "login"] ∧
      segments? ("/v1/api/login" ++ "?next=https://example.com/home") = none ∧
      segments? ("/v1/api/login" ++ "?next=https://example.com/api/home") = some ["api", "home"] :=
  ⟨isPath_login, by simp [IsSuffix], by simp [IsSuffix], by decide, by decide, by decide⟩

end CallAtlas.Request
