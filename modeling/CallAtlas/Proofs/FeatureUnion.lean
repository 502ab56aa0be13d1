import Mathlib.Data.List.Nodup
import CallAtlas.Feature.Rule

/-!
# Proofs.FeatureUnion — merged features, and the features of every rule that applies

A merged list is known by two things: the names in it, in their order, and the patterns that it has
for a name. Both are joined by the same operation when features are merged, `Feature.gather`, and
that operation is associative.

* `gather_append`, `gather_assoc` — gathering is associative, with repetitions in the lists or
  without; `gather_eraseDups` — on lists without repetition it is a union by first occurrence.
* `names_mergeInto`, `patterns?_mergeInto` — what merging does to the names and to the patterns of a
  name.
* `eq_of_names_of_patterns?` — a list of different names is known by these two.
* `patterns?_mergeInto_nil` — what a merged feature is found by.
* `merge_grouping` — it does not matter how the groups are merged.
* `featuresBy_exact` — the features of an identifier, said without merging.
-/

namespace CallAtlas

namespace Feature

/-! ## Gathering texts -/

/-- Gathering two lists is gathering one after the other. -/
theorem gather_append (ps qs rs : List String) :
    gather ps (qs ++ rs) = gather (gather ps qs) rs := by
  induction qs generalizing ps with
  | nil => rfl
  | cons q qs ih =>
    simp only [List.cons_append, gather]
    split
    · exact ih ps
    · exact ih (ps ++ [q])

/-- Gathering neither loses nor invents a pattern. -/
theorem mem_gather {ps qs : List String} {p : String} : p ∈ gather ps qs ↔ p ∈ ps ∨ p ∈ qs := by
  induction qs generalizing ps with
  | nil => simp [gather]
  | cons q qs ih =>
    rw [gather]
    split
    · -- `q` is gathered already, so leaving it out loses nothing
      next hq =>
      rw [ih, List.mem_cons, or_left_comm, ← or_assoc]
      have hqp : q ∈ ps := List.contains_iff_mem.mp hq
      exact or_congr_left ⟨Or.inr, fun h => h.elim (fun heq => heq ▸ hqp) id⟩
    · rw [ih, List.mem_append, List.mem_singleton, List.mem_cons, or_assoc]

theorem gather_singleton_of_mem {ps : List String} {p : String}
    (h : p ∈ ps) : gather ps [p] = ps := by
  rw [gather, if_pos (List.contains_iff_mem.mpr h), gather]

theorem gather_singleton_of_notMem {ps : List String} {p : String} (h : p ∉ ps) :
    gather ps [p] = ps ++ [p] := by
  rw [gather, if_neg (mt List.contains_iff_mem.mp h), gather]

/-- **Gathering is associative.** A text that is new to `qs` may be known to `ps`; then it is
dropped later. Induction on the last list. -/
theorem gather_assoc (ps qs rs : List String) :
    gather (gather ps qs) rs = gather ps (gather qs rs) := by
  induction rs generalizing qs with
  | nil => rfl
  | cons r rs ih =>
    have hstep : gather (gather ps qs) (r :: rs) = gather (gather (gather ps qs) [r]) rs :=
      gather_append _ [r] rs
    rw [hstep, gather.eq_2 qs]
    split
    · next hr =>
      -- known to `qs`, so known to what was gathered from it
      have hmem : r ∈ gather ps qs := mem_gather.mpr (.inr (List.contains_iff_mem.mp hr))
      rw [gather_singleton_of_mem hmem, ih]
    · rw [← ih, gather_append]

/-- Gathering keeps the first list as it is and appends what is new, each text once. -/
theorem gather_eq (ps qs : List String) : gather ps qs = ps ++ (qs.removeAll ps).eraseDups := by
  induction qs generalizing ps with
  | nil => simp [gather, List.removeAll]
  | cons q qs ih =>
    rw [gather]
    split
    · next hq =>
      rw [ih, List.removeAll, List.removeAll, List.filter_cons_of_neg (by simpa using hq)]
    · next hq =>
      have hrest : qs.removeAll (ps ++ [q]) = (qs.removeAll ps).filter fun x => !x == q := by
        simp only [List.removeAll, List.filter_filter, List.elem_eq_contains,
          List.contains_append, Bool.not_or, List.contains_cons, List.contains_nil, Bool.or_false,
            Bool.and_comm]
      rw [ih, hrest, List.removeAll.eq_1 (q :: qs), List.filter_cons_of_pos (by simpa using hq),
        List.eraseDups_cons, List.append_assoc]
      rfl

theorem gather_eraseDups (ps qs : List String) : gather ps.eraseDups qs = (ps ++ qs).eraseDups := by
  rw [gather_eq, List.eraseDups_append]
  simp only [List.removeAll, List.elem_eq_mem, List.mem_eraseDups]

theorem gather_nil (ps : List String) : gather [] ps = ps.eraseDups := gather_eraseDups [] ps

/-- Gathering keeps a list free of repetitions. -/
theorem nodup_gather {ps : List String} (qs : List String) (h : ps.Nodup) :
    (gather ps qs).Nodup := by
  induction qs generalizing ps with
  | nil => exact h
  | cons q qs ih =>
    rw [gather]
    split
    · exact ih h
    · next hq => exact ih (List.concat_eq_append ▸ h.concat (mt List.contains_iff_mem.mpr hq))

/-! ## Names and patterns of a merged list -/

def names (fs : List Feature) : List String := fs.map (·.name)

/-- The patterns of the first feature with a name. -/
def patterns? (fs : List Feature) (name : String) : Option (List String) :=
  (fs.find? (·.name = name)).map (·.matchedVia)

theorem names_append (fs gs : List Feature) : names (fs ++ gs) = names fs ++ names gs :=
  List.map_append

/-- The first feature of a name holds the patterns of that name. -/
theorem patterns?_cons (f : Feature) (fs : List Feature) (name : String) :
    patterns? (f :: fs) name = if f.name = name then some f.matchedVia else patterns? fs name := by
  rw [patterns?, List.find?_cons]
  by_cases h : f.name = name
  · simp [h]
  · simp [h, patterns?]

/-- A name has no patterns exactly when no feature has it. -/
theorem patterns?_eq_none_iff {fs : List Feature} {name : String} :
    patterns? fs name = none ↔ name ∉ names fs := by
  simp [patterns?, names]

theorem patterns?_map (ns : List String) (via : String → List String) (name : String) :
    patterns? (ns.map fun n => ⟨n, via n⟩) name = if name ∈ ns then some (via name) else none := by
  induction ns with
  | nil => rfl
  | cons n ns ih =>
    rw [List.map_cons, patterns?_cons, ih]
    by_cases h : n = name
    · simp [h]
    · simp [h, Ne.symm h]

/-- Patterns of two lists for one name. Where only one list has the name, its patterns stay as they
are. -/
def join (ps qs : Option (List String)) : Option (List String) := Option.merge gather ps qs

theorem join_none (ps : Option (List String)) : join ps none = ps := Option.merge_none_right

theorem none_join (ps : Option (List String)) : join none ps = ps := Option.merge_none_left

/-- Joining is associative, as gathering is. -/
theorem join_assoc (ps qs rs : Option (List String)) :
    join (join ps qs) rs = join ps (join qs rs) := by
  match ps, qs, rs with
  | none, qs, rs => rw [none_join, none_join]
  | some ps, none, rs => rw [none_join, join_none]
  | some ps, some qs, none => rw [join_none, join_none]
  | some ps, some qs, some rs => exact congrArg some (gather_assoc ps qs rs)

/-- Inserting adds the name at the end, if it is new. -/
theorem names_insert (f : Feature) (fs : List Feature) :
    names (insert f fs) = gather (names fs) [f.name] := by
  induction fs with
  | nil => rfl
  | cons x xs ih =>
    rw [insert]
    by_cases h : x.name = f.name
    · rw [if_pos h]
      exact (gather_singleton_of_mem (h ▸ List.mem_cons_self)).symm
    · rw [if_neg h]
      have hcons : ∀ ys, names (x :: ys) = x.name :: names ys := fun _ => rfl
      -- the name is new to the whole list exactly if it is new to the rest
      by_cases hf : f.name ∈ names xs
      · rw [gather_singleton_of_mem hf] at ih
        rw [hcons, hcons, ih, gather_singleton_of_mem (List.mem_cons_of_mem _ hf)]
      · rw [gather_singleton_of_notMem hf] at ih
        have hnew : f.name ∉ x.name :: names xs :=
          fun hmem => (List.mem_cons.mp hmem).elim (h ∘ Eq.symm) hf
        rw [hcons, hcons, ih, gather_singleton_of_notMem hnew, List.cons_append]

/-- Inserting joins the patterns of the inserted name and leaves the others alone. -/
theorem patterns?_insert (f : Feature) (fs : List Feature) (name : String) :
    patterns? (insert f fs) name = join (patterns? fs name) (patterns? [f] name) := by
  induction fs with
  | nil => exact (none_join _).symm
  | cons x xs ih =>
    rw [insert]
    -- the feature is merged into one of its own name or passes by
    by_cases hx : x.name = f.name
    · rw [if_pos hx]
      simp only [patterns?_cons, hx]
      split
      · rfl
      · exact (join_none _).symm
    · rw [if_neg hx]
      simp only [patterns?_cons] at ih ⊢
      by_cases hname : x.name = name
      · -- the new feature has another name
        rw [if_pos hname, if_pos hname, if_neg (hname ▸ Ne.symm hx)]
        exact (join_none _).symm
      · rw [if_neg hname, if_neg hname, ih]

/-- The names of a merge are those of both sides, each where it first occurs. -/
theorem names_mergeInto (fs gs : List Feature) :
    names (mergeInto fs gs) = gather (names fs) (names gs) := by
  induction gs generalizing fs with
  | nil => rfl
  | cons g gs ih =>
    calc names (mergeInto (insert g fs) gs)
        = gather (gather (names fs) [g.name]) (names gs) := by rw [ih, names_insert]
      _ = gather (names fs) (names (g :: gs)) := (gather_append (names fs) [g.name] (names gs)).symm

/-- **What merging does to the patterns of a name.** Induction on the features that are merged
in. -/
theorem patterns?_mergeInto (fs gs : List Feature) (name : String) :
    patterns? (mergeInto fs gs) name
      = join (patterns? fs name) (patterns? (mergeInto [] gs) name) := by
  induction gs generalizing fs with
  | nil => exact (join_none _).symm
  | cons g gs ih =>
    calc patterns? (mergeInto (insert g fs) gs) name
        = join (join (patterns? fs name) (patterns? [g] name))
          (patterns? (mergeInto [] gs) name) := by
          rw [ih, patterns?_insert]
      _ = join (patterns? fs name) (patterns? (mergeInto [g] gs) name) := by rw [join_assoc, ← ih]

/-- The patterns that the features with a name come with, one list for each of them, in order. -/
def accounts (fs : List Feature) (name : String) : List (List String) :=
  (fs.filter (·.name = name)).map (·.matchedVia)

/-- **The patterns of a merged feature.** The first feature with the name keeps its patterns, and
the others add what is new. Induction on the features; the first one with the name comes in front of
what the rest has gathered. -/
theorem patterns?_mergeInto_nil (fs : List Feature) (name : String) :
    patterns? (mergeInto [] fs) name
      = (accounts fs name).head?.map fun first =>
          gather first (accounts fs name).tail.flatten := by
  induction fs with
  | nil => rfl
  | cons f fs ih =>
    -- the first feature is joined in front of the merge of the rest
    have hstep : patterns? (mergeInto [] (f :: fs)) name
        = join (patterns? [f] name) (patterns? (mergeInto [] fs) name) := by
      rw [← patterns?_mergeInto]
      rfl
    have hnone : patterns? ([] : List Feature) name = none := rfl
    rw [hstep, ih, patterns?_cons, hnone]
    by_cases hf : f.name = name
    · have hmine : accounts (f :: fs) name = f.matchedVia :: accounts fs name := by
        simp [accounts, hf]
      rw [if_pos hf, hmine, List.head?_cons, List.tail_cons, Option.map_some]
      cases accounts fs name with
      | nil => rfl
      | cons first rest =>
        show some (gather f.matchedVia (gather first rest.flatten))
          = some (gather f.matchedVia (first ++ rest.flatten))
        rw [gather_append, gather_assoc]
    · have hother : accounts (f :: fs) name = accounts fs name := by simp [accounts, hf]
      rw [if_neg hf, none_join, hother]

/-- Where names are distinct, a feature's patterns are found under its name. -/
theorem patterns?_of_mem {f : Feature} {fs : List Feature} (hnodup : (names fs).Nodup)
    (hf : f ∈ fs) : patterns? fs f.name = some f.matchedVia := by
  induction fs with
  | nil => exact absurd hf List.not_mem_nil
  | cons x xs ih =>
    obtain ⟨hnew, hnodup⟩ := List.nodup_cons.mp hnodup
    rw [patterns?_cons]
    rcases List.mem_cons.mp hf with rfl | hf
    · rw [if_pos rfl]
    · have hne : x.name ≠ f.name := fun heq => hnew (List.mem_map.mpr ⟨f, hf, heq.symm⟩)
      rw [if_neg hne, ih hnodup hf]

/-- **A list of different names is known by its names and their patterns.** -/
theorem eq_of_names_of_patterns? {fs gs : List Feature} (hnames : names fs = names gs)
    (hnodup : (names fs).Nodup)
    (hpatterns : ∀ name, patterns? fs name = patterns? gs name) : fs = gs := by
  induction fs generalizing gs with
  | nil => exact (List.map_eq_nil_iff.mp hnames.symm).symm
  | cons f fs ih =>
    match gs with
    | [] => cases hnames
    | g :: gs =>
      obtain ⟨hname, htail⟩ := List.cons.inj hnames
      obtain ⟨hnew, hnodup⟩ := List.nodup_cons.mp hnodup
      have hhead : f = g := by
        have h := hpatterns f.name
        rw [patterns?_cons, patterns?_cons, if_pos rfl, if_pos hname.symm] at h
        cases f
        cases g
        exact congr (congrArg Feature.mk hname) (Option.some.inj h)
      subst hhead
      refine congrArg (f :: ·) (ih htail hnodup fun name => ?_)
      by_cases hf : f.name = name
      · -- the rest of neither list has the name of the head
        subst hf
        have hnew' : f.name ∉ names gs := fun hmem => hnew (htail.symm ▸ hmem)
        rw [patterns?_eq_none_iff.mpr hnew, patterns?_eq_none_iff.mpr hnew']
      · have h := hpatterns name
        rwa [patterns?_cons, patterns?_cons, if_neg hf, if_neg hf] at h

/-- A merge has every name once. -/
theorem nodup_names_mergeInto (gs : List Feature) : (names (mergeInto [] gs)).Nodup :=
  names_mergeInto [] gs ▸ nodup_gather (names gs) List.nodup_nil

/-! ## Merging what is merged -/

/-- A feature of a new name goes to the end. -/
theorem insert_of_notMem {f : Feature} {fs : List Feature} (h : f.name ∉ names fs) :
    insert f fs = fs ++ [f] := by
  induction fs with
  | nil => rfl
  | cons x xs ih =>
    obtain ⟨hx, hxs⟩ := not_or.mp (mt List.mem_cons.mpr h)
    rw [insert, if_neg (Ne.symm hx), ih hxs, List.cons_append]

/-- Merging features of different names is appending them. -/
theorem mergeInto_eq_append {fs gs : List Feature} (h : (names (fs ++ gs)).Nodup) :
    mergeInto fs gs = fs ++ gs := by
  induction gs generalizing fs with
  | nil => exact (List.append_nil fs).symm
  | cons g gs ih =>
    have hnew : g.name ∉ names fs := by
      rw [names_append] at h
      exact fun hmem => (List.nodup_append.mp h).2.2 _ hmem _ List.mem_cons_self rfl
    -- move the first new feature over, so that the induction goes along the second list
    have hassoc : fs ++ g :: gs = (fs ++ [g]) ++ gs := List.append_cons fs g gs
    rw [hassoc] at h ⊢
    calc mergeInto (insert g fs) gs
        = mergeInto (fs ++ [g]) gs := by rw [insert_of_notMem hnew]
      _ = fs ++ [g] ++ gs := ih h

theorem mergeInto_idem (fs : List Feature) : mergeInto [] (mergeInto [] fs) = mergeInto [] fs :=
  mergeInto_eq_append (nodup_names_mergeInto fs)

theorem patterns?_mergeInto_append (fs gs : List Feature) (name : String) :
    patterns? (mergeInto [] (fs ++ gs)) name
      = join (patterns? (mergeInto [] fs) name) (patterns? (mergeInto [] gs) name) := by
  rw [mergeInto, List.foldl_append]
  exact patterns?_mergeInto (mergeInto [] fs) gs name

/-- **Two lists may be merged each by itself before they are merged.** The names agree since
gathering is associative, and so do the patterns of each name. -/
theorem mergeInto_append (fs gs : List Feature) :
    mergeInto [] (fs ++ gs) = mergeInto [] (mergeInto [] fs ++ mergeInto [] gs) := by
  refine eq_of_names_of_patterns? ?_ (nodup_names_mergeInto _) fun name => ?_
  · calc names (mergeInto [] (fs ++ gs))
        = gather (gather [] (names fs)) (names gs) := by
          rw [names_mergeInto, names_append, gather_append]; rfl
      _ = gather (gather [] (gather [] (names fs))) (gather [] (names gs)) := by
        simp only [← gather_assoc]; rfl
      _ = names (mergeInto [] (mergeInto [] fs ++ mergeInto [] gs)) := by
        simp only [names_mergeInto, names_append, gather_append]; rfl
  · rw [patterns?_mergeInto_append, patterns?_mergeInto_append, mergeInto_idem, mergeInto_idem]

/-- Merging two groups of lists is merging their two merges. -/
theorem merge_append (A B : List (List Feature)) : merge (A ++ B) = merge [merge A, merge B] := by
  have hpair : [merge A, merge B].flatten = merge A ++ merge B := by simp
  rw [merge, List.flatten_append, merge, hpair]
  exact mergeInto_append A.flatten B.flatten

/-- What a merged feature is found by: the patterns of the first feature with its name as they are,
then those of the others that are new, each once. -/
theorem matchedVia_of_mem_mergeInto {f : Feature} {fs : List Feature} (hf : f ∈ mergeInto [] fs) :
    ∃ first rest, accounts fs f.name = first :: rest ∧
      f.matchedVia = first ++ (rest.flatten.removeAll first).eraseDups := by
  have hvia := patterns?_of_mem (nodup_names_mergeInto fs) hf
  rw [patterns?_mergeInto_nil] at hvia
  cases haccounts : accounts fs f.name with
  | nil =>
    rw [haccounts] at hvia
    cases hvia
  | cons first rest =>
    rw [haccounts] at hvia
    refine ⟨first, rest, rfl, ?_⟩
    rw [← gather_eq]
    exact (Option.some.inj hvia).symm

/-- **Merging is a union that does not depend on the grouping.** For all groups of features, with
repeated patterns or without: two lists of groups may be merged each by itself first; what is merged
stays as it is when it is merged again; and the names of a merged list are the names that occur,
each once, in the order of their first occurrence. A merged feature has the patterns of its first
occurrence as they are, then the new ones of the later occurrences, each once and in their order. So
the features of several identifiers can be collected in parts. -/
theorem merge_grouping (A B : List (List Feature)) :
    merge (A ++ B) = merge [merge A, merge B] ∧ merge [merge A] = merge A ∧
      (names (merge A)).Nodup ∧ names (merge A) = (names A.flatten).eraseDups ∧
      (∀ f ∈ merge A, ∃ first rest,
        (A.flatten.filter (·.name = f.name)).map (·.matchedVia) = first :: rest ∧
          f.matchedVia = first ++ (rest.flatten.removeAll first).eraseDups) ∧
      ∀ (t : FeatureTable) (xs ys : List Identifier),
        t.featuresOfAll (xs ++ ys) = merge [t.featuresOfAll xs, t.featuresOfAll ys] := by
  refine ⟨merge_append A B, ?_, nodup_names_mergeInto A.flatten, ?_,
    fun f hf => matchedVia_of_mem_mergeInto hf, fun t xs ys => ?_⟩
  · have hsingle : [merge A].flatten = merge A := by simp
    rw [merge, hsingle]
    exact mergeInto_idem A.flatten
  · exact (names_mergeInto [] A.flatten).trans (gather_nil (names A.flatten))
  · rw [FeatureTable.featuresOfAll, List.map_append]
    exact merge_append (xs.map t.featuresOf) (ys.map t.featuresOf)

/-! The patterns that a feature comes with are kept as they are, repetitions included; later ones
are not repeated. -/

example : merge [[⟨"login", ["auth", "auth"]⟩], [⟨"login", ["session", "auth", "session"]⟩]]
    = [⟨"login", ["auth", "auth", "session"]⟩] := by decide

end Feature

/-! ## The features of an identifier -/

namespace Identifier

/-- Rules for anything look at every identifier, the others at those of their own sort. -/
inductive InScope : Identifier → MatchScope → Prop where
  | any (i : Identifier) : InScope i .any
  | path (text : String) : InScope (.path text) .path
  | name (text : String) : InScope (.name text) .name

/-- The scope check decides whether an identifier is in the scope. -/
theorem isIn_iff {i : Identifier} {scope : MatchScope} : i.isIn scope = true ↔ i.InScope scope := by
  constructor
  · intro h
    cases scope with
    | any => exact .any i
    | path =>
      cases i with
      | path text => exact .path text
      | name text => cases h
    | name =>
      cases i with
      | path text => cases h
      | name text => exact .name text
  · intro h
    cases h <;> rfl

end Identifier

namespace FeatureTable

open Feature

/-- The rules whose scope has the identifier and whose pattern is accepted for its text. -/
def hits (accepts : FeatureRule → String → Bool) (t : FeatureTable)
    (i : Identifier) : List FeatureRule :=
  t.rules.filter fun r => i.isIn r.scope && accepts r i.text

/-- A hit is a rule of the table whose scope has the identifier and whose pattern accepts its text.
-/
theorem mem_hits {accepts : FeatureRule → String → Bool} {t : FeatureTable} {i : Identifier}
    {r : FeatureRule} :
    r ∈ t.hits accepts i ↔ r ∈ t.rules ∧ i.InScope r.scope ∧ accepts r i.text = true := by
  rw [hits, List.mem_filter, Bool.and_eq_true, Identifier.isIn_iff]

/-- The features of an identifier, with any notion of a match. -/
def featuresBy (accepts : FeatureRule → String → Bool) (t : FeatureTable)
    (i : Identifier) : List Feature :=
  Feature.merge ((t.hits accepts i).map (·.found))

theorem featuresOf_eq (t : FeatureTable) (i : Identifier) :
    t.featuresOf i = t.featuresBy (·.regex.isMatch ·) i := rfl

/-- The patterns of the rules that list a feature, in the order of the rules. -/
def listing (rules : List FeatureRule) (name : String) : List String :=
  (rules.filter (·.features.contains name)).map (·.pattern)

/-- A rule adds its pattern to the listing of each of its features. -/
theorem listing_cons (r : FeatureRule) (rules : List FeatureRule) (name : String) :
    listing (r :: rules) name
      = if r.features.contains name then r.pattern :: listing rules name
        else listing rules name := by
  rw [listing, List.filter_cons]
  split
  · rfl
  · rfl

theorem mem_listing {rules : List FeatureRule} {name p : String} :
    p ∈ listing rules name ↔ ∃ r ∈ rules, name ∈ r.features ∧ r.pattern = p := by
  simp [listing, and_assoc]

theorem listing_eq_nil_iff {rules : List FeatureRule} {name : String} :
    listing rules name = [] ↔ name ∉ rules.flatMap (·.features) := by
  simp [listing]

theorem names_found (r : FeatureRule) : names r.found = r.features := by
  rw [names, FeatureRule.found, List.map_map]
  exact List.map_id' r.features

/-- However often a rule lists a feature, its pattern is found once. -/
theorem patterns?_found (r : FeatureRule) (name : String) :
    patterns? (mergeInto [] r.found) name = if r.features.contains name then some [r.pattern]
      else none := by
  rw [FeatureRule.found]
  induction r.features with
  | nil => rfl
  | cons f fs ih =>
    rw [List.map_cons, ← List.singleton_append, patterns?_mergeInto_append, ih, List.contains_cons]
    have hhead : patterns? (mergeInto [] [⟨f, [r.pattern]⟩]) name = if f = name then
        some [r.pattern] else none :=
      patterns?_cons _ [] name
    have hagain : gather [r.pattern] [r.pattern] = [r.pattern] :=
      gather_singleton_of_mem List.mem_cons_self
    rw [hhead]
    by_cases hf : f = name
    · -- listed again or not, the pattern is the same
      cases hfs : fs.contains name with
      | true => simp [hf, join, hagain]
      | false => simp [hf, join]
    · have hne : (name == f) = false := beq_false_of_ne (Ne.symm hf)
      rw [if_neg hf, none_join, hne, Bool.false_or]

/-- The patterns that are found for a name are those of the rules that list it. Induction on the
rules. -/
theorem patterns?_mergeInto_found (rules : List FeatureRule) (name : String) :
    patterns? (mergeInto [] (rules.flatMap (·.found))) name
      = if listing rules name = [] then none else some (listing rules name).eraseDups := by
  induction rules with
  | nil => rfl
  | cons r rules ih =>
    rw [List.flatMap_cons, patterns?_mergeInto_append, patterns?_found, ih, listing_cons]
    split
    · rw [if_neg (List.cons_ne_nil _ _)]
      split
      · next hnone => rw [hnone, join_none]; rfl
      · -- the pattern of the rule may be among the others
        have hgather :
            gather [r.pattern] (listing rules name).eraseDups
              = (r.pattern :: listing rules name).eraseDups :=
          calc gather [r.pattern] (listing rules name).eraseDups
              = gather [r.pattern].eraseDups (listing rules name) := by
                rw [← gather_nil, ← gather_assoc]; rfl
            _ = (r.pattern :: listing rules name).eraseDups := gather_eraseDups _ _
        exact congrArg some hgather
    · exact none_join _

/-- **The features of an identifier, said without merging.** -/
theorem featuresBy_eq (accepts : FeatureRule → String → Bool) (t : FeatureTable) (i : Identifier) :
    t.featuresBy accepts i = ((t.hits accepts i).flatMap (·.features)).eraseDups.map fun name =>
      ⟨name, (listing (t.hits accepts i) name).eraseDups⟩ := by
  generalize hrules : t.hits accepts i = rules
  have hmerged : t.featuresBy accepts i = mergeInto [] (rules.flatMap (·.found)) := by
    rw [featuresBy, hrules, merge, List.flatMap_def]
  have hnames : names (mergeInto [] (rules.flatMap (·.found)))
      = (rules.flatMap (·.features)).eraseDups := by
    have hfound : names (rules.flatMap (·.found)) = rules.flatMap (·.features) := by
      rw [names, List.map_flatMap]
      exact List.flatMap_congr fun r _ => names_found r
    rw [names_mergeInto, hfound]
    exact gather_nil _
  rw [hmerged]
  refine eq_of_names_of_patterns? ?_ (nodup_names_mergeInto _) fun name => ?_
  · rw [hnames, names, List.map_map]
    exact (List.map_id' _).symm
  · rw [patterns?_mergeInto_found, patterns?_map]
    simp only [listing_eq_nil_iff, List.mem_eraseDups, ite_not]

variable {accepts : FeatureRule → String → Bool} {t : FeatureTable} {i : Identifier}

/-- A feature is named exactly if a rule that names it is hit. -/
theorem mem_names_featuresBy {name : String} :
    name ∈ names (t.featuresBy accepts i) ↔
      ∃ r ∈ t.rules, i.InScope r.scope ∧ accepts r i.text = true ∧ name ∈ r.features := by
  rw [featuresBy_eq, names, List.map_map]
  simp [List.mem_eraseDups, mem_hits, and_assoc]

/-- A feature is matched via exactly the patterns of the hit rules that name it. -/
theorem mem_matchedVia_iff {f : Feature} (hf : f ∈ t.featuresBy accepts i) {p : String} :
    p ∈ f.matchedVia ↔
      ∃ r ∈ t.rules, i.InScope r.scope ∧ accepts r i.text = true ∧ f.name ∈ r.features ∧
        r.pattern = p := by
  rw [featuresBy_eq] at hf
  obtain ⟨name, -, rfl⟩ := List.mem_map.mp hf
  simp only [List.mem_eraseDups, mem_listing, mem_hits, and_assoc]

/-- **A table collects the features of every rule that applies.** For every table, every notion of
which texts a rule matches, and every identifier: there is one feature for each name that a rule in
scope that matches lists, and no other, in the order in which the rules first list the names; and it
was found by the patterns of the rules that list it, each once, in the order of the table. So the
order of the rules matters for the order of names and patterns only. The features of an identifier
are those where a text is matched by the pattern of the rule. -/
theorem featuresBy_exact (accepts : FeatureRule → String → Bool) (t : FeatureTable)
    (i : Identifier) :
    (t.featuresBy accepts i
      = ((t.hits accepts i).flatMap (·.features)).eraseDups.map fun name =>
        ⟨name,
          (((t.hits accepts i).filter (·.features.contains name)).map (·.pattern)).eraseDups⟩) ∧
      (∀ r, r ∈ t.hits accepts i ↔ r ∈ t.rules ∧ i.InScope r.scope ∧ accepts r i.text = true) ∧
      (∀ u : FeatureTable, u.rules.Perm t.rules →
        (∀ name, name ∈ names (u.featuresBy accepts i) ↔ name ∈ names (t.featuresBy accepts i)) ∧
          ∀ f ∈ u.featuresBy accepts i, ∀ f' ∈ t.featuresBy accepts i, f.name = f'.name →
            ∀ p, p ∈ f.matchedVia ↔ p ∈ f'.matchedVia) ∧
      t.featuresOf i = t.featuresBy (·.regex.isMatch ·) i := by
  refine ⟨featuresBy_eq accepts t i, fun r => mem_hits, fun u hperm => ?_, featuresOf_eq t i⟩
  constructor
  · intro name
    simp only [mem_names_featuresBy, hperm.mem_iff]
  · intro f hf f' hf' hname p
    simp only [mem_matchedVia_iff hf, mem_matchedVia_iff hf', hname, hperm.mem_iff]

end FeatureTable

end CallAtlas
