import CallAtlas.Text.Basic
import Mathlib.Data.List.Basic
import Mathlib.Data.List.Infix

/-!
# Proofs.TextCuts — what a cut leaves

Each cut of a text at a lead, a tail or a separator is described by the text as a whole: it is what
remains, put together with what was cut off. The descriptions are equivalences, so they say both
what a cut gives and when there is one.

The pieces between separators have none inside, and a text that is joined from pieces without one is
`Tidy` if no piece is empty: the separators stand alone, and none stands at an end.
-/

namespace CallAtlas.Text

variable {sep : Char} {pre suf cs rest before after : List Char} {s t : String}

/-! ## Lists of characters -/

/-- Dropping a lead gives what follows it. -/
theorem dropLead?_eq_some_iff : dropLead? pre cs = some rest ↔ cs = pre ++ rest := by
  fun_induction dropLead? pre cs with
  | case1 cs => simp
  | case2 p pre cs ih => simp [ih]
  | case3 p pre c cs hne =>
    constructor
    · intro h
      cases h
    · intro h
      exact absurd (List.cons.inj h).1.symm hne
  | case4 p pre => simp

/-- Dropping a tail gives what comes before it. -/
theorem dropTail?_eq_some_iff : dropTail? suf cs = some rest ↔ cs = rest ++ suf := by
  unfold dropTail?
  rw [Option.map_eq_some_iff]
  constructor
  · rintro ⟨back, hdrop, rfl⟩
    have h := congrArg List.reverse (dropLead?_eq_some_iff.mp hdrop)
    simpa using h
  · rintro rfl
    exact ⟨rest.reverse, dropLead?_eq_some_iff.mpr List.reverse_append, List.reverse_reverse rest⟩

theorem cutLast_eq_none (h : sep ∉ cs) : cutLast sep cs = none := by
  induction cs with
  | nil => rfl
  | cons c cs ih =>
    rw [List.mem_cons, not_or] at h
    rw [cutLast, ih h.2]
    exact if_neg (Ne.symm h.1)

/-- The cut is at the last separator. -/
theorem cutLast_append (h : sep ∉ after) :
    cutLast sep (before ++ sep :: after) = some (before, after) := by
  induction before with
  | nil =>
    rw [List.nil_append, cutLast, cutLast_eq_none h]
    exact if_pos rfl
  | cons c before ih => rw [List.cons_append, cutLast, ih]

/-- The last separator stands before a rest without one. -/
theorem cutLast_eq_some_iff :
    cutLast sep cs = some (before, after) ↔ cs = before ++ sep :: after ∧ sep ∉ after := by
  constructor
  · intro h
    by_cases hmem : sep ∈ cs
    · -- the first separator from behind
      obtain ⟨behind, front, hsplit, hbehind⟩ :=
        List.eq_append_cons_of_mem (List.mem_reverse.mpr hmem)
      have hcs : cs = front.reverse ++ sep :: behind.reverse := by
        have hsplit := congrArg List.reverse hsplit
        simpa using hsplit
      have hafter : sep ∉ behind.reverse := fun hin => hbehind (List.mem_reverse.mp hin)
      rw [hcs, cutLast_append hafter] at h
      cases h
      exact ⟨hcs, hafter⟩
    · rw [cutLast_eq_none hmem] at h
      cases h
  · rintro ⟨rfl, hafter⟩
    exact cutLast_append hafter

/-- A tail without the separator lies behind the separator. -/
theorem suffix_of_suffix_append_cons (hsep : sep ∉ suf)
    (h : suf <:+ before ++ sep :: after) : suf <:+ after := by
  have hmem : ∀ {l : List Char}, sep :: after <:+ l →
      sep ∈ l := fun hl => hl.subset List.mem_cons_self
  rcases List.suffix_or_suffix_of_suffix h (List.suffix_append before (sep :: after))
    with hin | hout
  · rcases List.suffix_cons_iff.mp hin with rfl | hin
    · exact absurd (hmem List.suffix_rfl) hsep
    · exact hin
  · exact absurd (hmem hout) hsep

/-! ## Pieces -/

/-- A piece between separators has no separator and only characters of the text. Induction on the
text, whose first character is a separator or belongs to the first piece. -/
theorem of_mem_splitOn {piece : List Char} (h : piece ∈ cs.splitOn sep) :
    sep ∉ piece ∧ piece ⊆ cs := by
  induction cs generalizing piece with
  | nil =>
    rw [List.splitOn_nil, List.mem_singleton] at h
    subst h
    exact ⟨List.not_mem_nil, List.Subset.refl _⟩
  | cons c cs ih =>
    obtain ⟨first, others, hpieces⟩ := List.exists_cons_of_ne_nil (List.splitOn_ne_nil sep cs)
    rw [hpieces] at ih
    rw [List.splitOn_cons_eq_if_modifyHead, hpieces] at h
    -- a separator starts a new piece, any other character joins the first one
    split at h
    · rcases List.mem_cons.mp h with rfl | h
      · exact ⟨List.not_mem_nil, List.nil_subset _⟩
      · exact ⟨(ih h).1, List.subset_cons_of_subset c (ih h).2⟩
    · next hc =>
      have hne : sep ≠ c := fun heq => hc (beq_iff_eq.mpr heq.symm)
      rcases List.mem_cons.mp h with rfl | h
      · obtain ⟨hfirst, hsubset⟩ := ih List.mem_cons_self
        refine ⟨?_, List.cons_subset_cons c hsubset⟩
        rw [List.mem_cons, not_or]
        exact ⟨hne, hfirst⟩
      · obtain ⟨hother, hsubset⟩ := ih (List.mem_cons_of_mem first h)
        exact ⟨hother, List.subset_cons_of_subset c hsubset⟩

/-- Every character of joined pieces is the separator or in a piece. -/
theorem mem_intercalate {c : Char} {pieces : List (List Char)}
    (h : c ∈ List.intercalate [sep] pieces) : c = sep ∨ ∃ piece ∈ pieces, c ∈ piece := by
  induction pieces with
  | nil => exact absurd h List.not_mem_nil
  | cons piece pieces ih =>
    cases pieces with
    | nil =>
      rw [List.intercalate_singleton] at h
      exact .inr ⟨piece, List.mem_cons_self, h⟩
    | cons next pieces =>
      rw [List.intercalate_cons_cons, List.append_assoc, List.mem_append, List.singleton_append,
        List.mem_cons] at h
      rcases h with h | h | h
      · exact .inr ⟨piece, List.mem_cons_self, h⟩
      · exact .inl h
      · refine (ih h).imp_right ?_
        rintro ⟨piece', hmem, hc⟩
        exact ⟨piece', List.mem_cons_of_mem piece hmem, hc⟩

/-- Separators stand alone between pieces, and none stands at an end. -/
structure Tidy (sep : Char) (cs : List Char) : Prop where
  leading : cs.head? ≠ some sep
  trailing : cs.getLast? ≠ some sep
  doubled : ¬ [sep, sep] <:+: cs

/-- A separator in front stands alone, too. -/
theorem Tidy.not_doubled_cons (h : Tidy sep cs) : ¬ [sep, sep] <:+: sep :: cs := by
  rw [List.infix_cons_iff, not_or]
  refine ⟨?_, h.doubled⟩
  rintro ⟨more, hmore⟩
  refine h.leading ?_
  rw [← (List.cons.inj hmore).2]
  rfl

/-- A piece in front of a tidy text. -/
theorem Tidy.append {piece : List Char} (hpiece : sep ∉ piece) (hne : piece ≠ []) (h : Tidy sep cs)
    (hcs : cs ≠ []) :
    Tidy sep (piece ++ sep :: cs) where
  leading := by
    rw [List.head?_append_of_ne_nil _ hne]
    exact fun hhead => hpiece (List.mem_of_mem_head? hhead)
  trailing := by
    rw [List.getLast?_append_of_ne_nil _ (List.cons_ne_nil _ _), List.getLast?_cons_of_ne_nil hcs]
    exact h.trailing
  doubled := by
    clear hne
    induction piece with
    | nil => exact h.not_doubled_cons
    | cons c piece ih =>
      rw [List.mem_cons, not_or] at hpiece
      rw [List.cons_append, List.infix_cons_iff, not_or]
      exact ⟨fun hlead => hpiece.1 (List.cons_prefix_cons.mp hlead).1, ih hpiece.2⟩

/-- **Pieces that are joined make a tidy text**, if none is empty or has a separator. Induction on
the pieces. -/
theorem tidy_intercalate {pieces : List (List Char)}
    (h : ∀ piece ∈ pieces, piece ≠ [] ∧ sep ∉ piece) :
    Tidy sep (List.intercalate [sep] pieces) := by
  induction pieces with
  | nil => exact ⟨by simp, by simp, by simp⟩
  | cons piece pieces ih =>
    obtain ⟨⟨hne, hsep⟩, hpieces⟩ := List.forall_mem_cons.mp h
    cases pieces with
    | nil =>
      rw [List.intercalate_singleton]
      exact ⟨fun hhead => hsep (List.mem_of_mem_head? hhead),
        fun hlast => hsep (List.mem_of_getLast? hlast),
          fun hdouble => hsep (hdouble.subset List.mem_cons_self)⟩
    | cons next pieces =>
      -- what follows the separator is not empty, so no separator ends the text
      have hrest : List.intercalate [sep] (next :: pieces) ≠ [] := by
        obtain ⟨c, more, rfl⟩ := List.exists_cons_of_ne_nil (hpieces next List.mem_cons_self).1
        cases pieces with
        | nil => simp
        | cons other pieces => simp
      rw [List.intercalate_cons_cons, List.append_assoc, List.singleton_append]
      exact (ih hpieces).append hsep hne hrest

/-! ## Strings -/

theorem stripTail?_eq_some_iff {suf : String} : stripTail? suf s = some t ↔ s = t ++ suf := by
  unfold stripTail?
  rw [Option.map_eq_some_iff]
  simp only [dropTail?_eq_some_iff]
  constructor
  · rintro ⟨rest, hs, rfl⟩
    rw [← String.toList_inj, hs, String.toList_append, String.toList_ofList]
  · rintro rfl
    exact ⟨t.toList, String.toList_append, String.ofList_toList⟩

/-- A text ends with a suffix exactly when it is something followed by the suffix. -/
theorem endsWith_iff {suf : String} : endsWith s suf = true ↔ ∃ t, s = t ++ suf := by
  unfold endsWith
  rw [List.isSuffixOf_iff_suffix]
  constructor
  · rintro ⟨front, hs⟩
    refine ⟨String.ofList front, ?_⟩
    rw [← String.toList_inj, ← hs, String.toList_append, String.toList_ofList]
  · rintro ⟨t, rfl⟩
    exact ⟨t.toList, String.toList_append.symm⟩

/-- Splitting at the last separator leaves none in the second part. -/
theorem splitLast?_eq_some_iff {a b : String} :
    splitLast? sep s = some (a, b) ↔ s.toList = a.toList ++ sep :: b.toList ∧ sep ∉ b.toList := by
  unfold splitLast?
  rw [Option.map_eq_some_iff, ← cutLast_eq_some_iff]
  constructor
  · rintro ⟨⟨before, after⟩, hcut, heq⟩
    obtain ⟨rfl, rfl⟩ := Prod.mk.inj heq
    rw [String.toList_ofList, String.toList_ofList]
    exact hcut
  · intro hcut
    exact ⟨_, hcut, by simp only [String.ofList_toList]⟩

/-- Splitting goes on independently on both sides of a separator. -/
theorem split_append_cons {a b : String} (h : s.toList = a.toList ++ sep :: b.toList) :
    split sep s = split sep a ++ split sep b := by
  rw [split, h, List.splitOn_append_cons_self, List.map_append]
  rfl

theorem split_eq_singleton (h : sep ∉ s.toList) : split sep s = [s] := by
  rw [split, List.splitOn_eq_singleton h, List.map_singleton, String.ofList_toList]

end CallAtlas.Text
