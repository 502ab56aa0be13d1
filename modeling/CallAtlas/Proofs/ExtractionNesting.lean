import Mathlib.Data.List.Nodup
import CallAtlas.Pipeline
import CallAtlas.Proofs.ExtractionMoves

/-!
# Proofs.ExtractionNesting — declarations are nested in earlier ones

Every move of a walk keeps the ids of declarations distinct and nests a new declaration in an
earlier one, if in any.

* `freshId_not_mem` — the id of a new declaration is free: among the numbered ids that are tried one
  is.
* `Nested` — ids are distinct, and a declaration is nested in an earlier one.
* `extract_recorded` — the declarations of every extraction are nested, and every call has one of
  them as its caller.
-/

namespace CallAtlas

/-! ## Free ids -/

/-- Different numbers are written differently, since the digits read back. -/
theorem Text.decimal_injective : Function.Injective Text.decimal := by
  intro m n h
  have hdigits : Nat.toDigits 10 m = Nat.toDigits 10 n := String.ofList_inj.mp h
  calc m = Nat.ofDigitChars 10 (Nat.toDigits 10 m) 0 := Nat.ofDigitChars_ten_toDigits.symm
    _ = Nat.ofDigitChars 10 (Nat.toDigits 10 n) 0 := by rw [hdigits]
    _ = n := Nat.ofDigitChars_ten_toDigits

namespace Extraction

open CallAtlas.Tree

/-- If the search for a free number fails, all the numbers that it tried are taken. -/
theorem taken_of_numberedId_mem {taken : List String} {base : String} {fuel n : Nat}
    (h : numberedId taken base fuel n ∈ taken) :
    ∀ k ≤ fuel, base ++ "#" ++ Text.decimal (n + k) ∈ taken := by
  induction fuel generalizing n with
  | zero =>
    intro k hk
    obtain rfl : k = 0 := Nat.le_zero.mp hk
    exact h
  | succ fuel ih =>
    simp only [numberedId] at h
    split at h
    · next htaken =>
      intro k hk
      cases k with
      | zero => simpa using htaken
      | succ k =>
        have hlater := ih h k (Nat.le_of_succ_le_succ hk)
        rwa [Nat.add_assoc, Nat.add_comm 1 k] at hlater
    · next hfree => exact absurd (by simpa using h) hfree

/-- Numbering one base gives a different id for every number. -/
theorem numbered_injective (base : String) :
    Function.Injective fun n => base ++ "#" ++ Text.decimal n := by
  intro m n h
  have hlists : (base ++ "#").toList ++ (Text.decimal m).toList
      = (base ++ "#").toList ++ (Text.decimal n).toList := by
    rw [← String.toList_append, ← String.toList_append]
    exact congrArg String.toList h
  exact Text.decimal_injective (String.toList_inj.mp (List.append_cancel_left hlists))

/-- One more number is tried than ids are taken. -/
theorem numberedId_not_mem (taken : List String) (base : String) (n : Nat) :
    numberedId taken base taken.length n ∉ taken := by
  intro h
  have htaken := taken_of_numberedId_mem h
  let tried := (List.range (taken.length + 1)).map fun k => base ++ "#" ++ Text.decimal (n + k)
  have hdistinct : tried.Nodup :=
    List.nodup_range.map fun j k hjk => Nat.add_left_cancel (numbered_injective base hjk)
  have hsub : tried ⊆ taken := by
    intro id hid
    obtain ⟨k, hk, rfl⟩ := List.mem_map.mp hid
    exact htaken k (Nat.le_of_lt_succ (List.mem_range.mp hk))
  have hlength : tried.length ≤ taken.length := hdistinct.length_le_of_subset hsub
  rw [List.length_map, List.length_range] at hlength
  exact Nat.not_succ_le_self _ hlength

/-- **A new id is free.** -/
theorem freshId_not_mem (taken : List String) (wish : String) (line : Nat) :
    freshId taken wish line ∉ taken := by
  dsimp only [freshId]
  split
  · split
    · exact numberedId_not_mem taken _ 2
    · next hfree => simpa using hfree
  · next hfree => simpa using hfree

/-! ## Nesting -/

/-- Built from the front, every declaration has a new id and is nested in one before it, or in
none. -/
inductive Nested : List Declaration → Prop where
  | nil : Nested []
  | snoc {ds : List Declaration} {d : Declaration} (before : Nested ds)
      (fresh : d.id ∉ ds.map (·.id))
      (inside : ∀ id, d.enclosing = some id → id ∈ ds.map (·.id)) : Nested (ds ++ [d])

/-- Nested declarations have different ids. -/
theorem Nested.nodup {ds : List Declaration} (h : Nested ds) : (ds.map (·.id)).Nodup := by
  induction h with
  | nil => exact List.nodup_nil
  | snoc before fresh inside ih =>
    rw [List.map_append, List.nodup_append]
    refine ⟨ih, List.nodup_singleton _, ?_⟩
    rintro id hid _ hlast rfl
    obtain rfl := List.mem_singleton.mp hlast
    exact fresh hid

/-- An enclosing declaration is one of the list. -/
theorem Nested.enclosing_mem {ds : List Declaration} (h : Nested ds) {d : Declaration} (hd : d ∈ ds)
    {id : String} (hid : d.enclosing = some id) : id ∈ ds.map (·.id) := by
  -- a declaration is appended after the one around it
  induction h with
  | nil => exact absurd hd List.not_mem_nil
  | snoc before fresh inside ih =>
    rw [List.map_append]
    refine List.mem_append_left _ ?_
    rcases List.mem_append.mp hd with hd | hd
    · exact ih hd
    · obtain rfl := List.mem_singleton.mp hd
      exact inside id hid

theorem map_id_of_outlines {ds ds' : List Declaration} (h : ds'.map outline = ds.map outline) :
    ds'.map (·.id) = ds.map (·.id) := by
  have hids := congrArg (List.map Declaration.id) h
  rw [List.map_map, List.map_map] at hids
  exact hids

/-- What may change after a declaration is made does not matter for the nesting. -/
theorem Nested.of_outlines {ds ds' : List Declaration} (h : Nested ds)
    (houtlines : ds'.map outline = ds.map outline) : Nested ds' := by
  induction h generalizing ds' with
  | nil =>
    obtain rfl : ds' = [] := by simpa using houtlines
    exact .nil
  | @snoc ds d before fresh inside ih =>
    rw [List.map_append] at houtlines
    obtain ⟨front, last, rfl, hfront, hlast⟩ := List.map_eq_append_iff.mp houtlines
    obtain ⟨d', rfl, hd'⟩ := List.map_eq_singleton_iff.mp hlast
    have hid : d'.id = d.id := by simpa using congrArg Declaration.id hd'
    have henclosing : d'.enclosing = d.enclosing := by
      simpa using congrArg Declaration.enclosing hd'
    -- the earlier declarations have kept their ids, so what was new or known still is
    rw [← map_id_of_outlines hfront] at fresh inside
    refine .snoc (ih hfront) ?_ ?_
    · rw [hid]
      exact fresh
    · rw [henclosing]
      exact inside

/-! ## What moves keep -/

/-- The declarations are nested, and every call is made by one of them. -/
structure Recorded (declarations : List Declaration) (calls : List CallSite) : Prop where
  nested : Nested declarations
  callers : ∀ s ∈ calls, s.callerId ∈ declarations.map (·.id)

/-- A record depends on the outlines of the declarations and the callers of the calls. -/
theorem Recorded.of_outlines {ds ds' : List Declaration} {calls calls' : List CallSite}
    (h : Recorded ds calls) (houtlines : ds'.map outline = ds.map outline)
    (hcallers : calls'.map (·.callerId) = calls.map (·.callerId)) :
    Recorded ds' calls' where
  nested := h.nested.of_outlines houtlines
  callers s hs := by
    have hcaller : s.callerId ∈ calls'.map (·.callerId) := List.mem_map_of_mem hs
    rw [hcallers] at hcaller
    obtain ⟨s', hs', heq⟩ := List.mem_map.mp hcaller
    rw [map_id_of_outlines houtlines, ← heq]
    exact h.callers s' hs'

/-- An owner that is given by its number is among the declarations. -/
theorem id_mem_of_getElem? {ds : List Declaration} {i : Option Nat} {id : String}
    (h : (i.bind (ds[·]?)).map (·.id) = some id) : id ∈ ds.map (·.id) := by
  obtain ⟨d, hd, rfl⟩ := Option.map_eq_some_iff.mp h
  obtain ⟨n, -, hget⟩ := Option.bind_eq_some_iff.mp hd
  exact List.mem_map_of_mem (List.mem_of_getElem? hget)

/-- **One move keeps the record.** -/
theorem Move.recorded {path : String} {root : Cursor} {st st' : State} (h : Move path root st st')
    (hst : Recorded st.declarations st.calls) : Recorded st'.declarations st'.calls := by
  cases h with
  | @declare place scope _ fits callable name kind =>
    obtain ⟨d, hds, -, -, -, -, -, henclosing, -, wish, hid⟩ :=
      exists_declare path place callable name kind scope st
    rw [hds]
    refine ⟨.snoc hst.nested ?_ fun id hinside => ?_, fun s hs => ?_⟩
    · rw [hid]
      exact freshId_not_mem _ _ _
    · -- the owner is looked up by number among the earlier declarations
      rw [henclosing] at hinside
      exact id_mem_of_getElem? hinside
    · rw [List.map_append]
      exact List.mem_append_left _ (hst.callers s hs)
  | mark scope mark =>
    refine hst.of_outlines (map_outline_markErrors scope mark st) ?_
    unfold State.markErrors
    split <;> rfl
  | record caller target node via scope =>
    unfold State.record
    split
    · exact hst
    · next d hd =>
      refine ⟨hst.nested, fun s hs => ?_⟩
      rcases List.mem_append.mp hs with hs | hs
      · exact hst.callers s hs
      · obtain rfl := List.mem_singleton.mp hs
        exact List.mem_map_of_mem (List.mem_of_getElem? hd)
  | aside hdeclarations hcalls =>
    rw [hdeclarations, hcalls]
    exact hst

theorem outline_exportNamed (names : List String) (d : Declaration) :
    outline (State.exportNamed names d) = outline d := by
  unfold State.exportNamed
  split <;> rfl

theorem outline_exportMember (classes : List String) (d : Declaration) :
    outline (State.exportMember classes d) = outline d := by
  unfold State.exportMember
  split <;> rfl

/-- Closing a file changes exports and modules only. -/
theorem map_outline_close (st : State) :
    st.close.declarations.map outline = st.declarations.map outline := by
  simp [State.close, outline_exportNamed, outline_exportMember]

/-- **What is extracted from any tree is nested and accounted for.** -/
theorem extract_recorded (ctx : Context) (root : Node) :
    Recorded (extract ctx root).declarations (extract ctx root).calls := by
  have hwalked : Recorded (walked ctx root).declarations (walked ctx root).calls :=
    walked_induction ctx root ⟨.nil, by simp⟩ Move.recorded
  exact hwalked.of_outlines (map_outline_close _) (by simp [extract, walked, State.close])

end Extraction

/-- **What is read from a file** are the declarations and the calls of its walk, under the path in
its normal form. -/
theorem SourceFile.read_of_analyze {settings : ExtractionSettings} {rules : List LayerRule}
    {file : SourceFile} {f : FileAnalysis} (h : file.analyze settings rules = .ok f) :
    let st := Extraction.extract { path := Path.normalize file.path, settings } file.tree
    f.filePath = Path.normalize file.path ∧ f.declarations = st.declarations ∧
      f.calls = st.calls := by
  unfold analyze extract at h
  dsimp only at h
  split at h
  · next g hextract =>
    -- a role changes none of the three
    cases h
    split at hextract
    · cases hextract
    · split at hextract
      · cases hextract
      · cases hextract
        exact ⟨rfl, rfl, rfl⟩
  · cases h

end CallAtlas
