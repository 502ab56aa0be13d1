import CallAtlas.Journey.Wording
import CallAtlas.Proofs.TextCuts

/-!
# Proofs.Phrasing — a phrase has the letters of its name and reads back as itself

Where a word ends depends on three characters: the last one of the word, the next one and the one
behind it. `lead` takes from a text what still belongs to a word, and `words` is then one word after
the other. A word is `Solid` if it has no end inside. Words of a name are solid, and a phrase of
solid words is taken apart at its spaces only.

Recasing does not spoil this. A word either keeps its case, and then no small letter in it can be
made a capital, or it has no capital left but maybe the first one, which starts no word.

* `words_flatten` — words have all characters of the name but the separators.
* `splitWords_join` — a phrase of solid words has these words.
* `solid_wordForm`, `wordForm_wordForm`, `upperFirst_wordForm` — forms of words are solid and have
  no other form.
* `humanize_faithful` — letters, spaces and the second pass.
-/

namespace CallAtlas

namespace Text

/-! ## ASCII letters -/

variable {c : Char}

/-- Upper case is a range of code points. -/
theorem isUpper_iff : isUpper c = true ↔ 65 ≤ c.toNat ∧ c.toNat ≤ 90 := by
  simp only [isUpper, Bool.and_eq_true, decide_eq_true_eq]
  rfl

theorem isLower_iff : isLower c = true ↔ 97 ≤ c.toNat ∧ c.toNat ≤ 122 := by
  simp only [isLower, Bool.and_eq_true, decide_eq_true_eq]
  rfl

theorem toNat_ofNat_of_lt {n : Nat} (h : n < 128) : (Char.ofNat n).toNat = n := by
  rw [Char.ofNat, dif_pos (Or.inl (by omega))]
  rfl

/-- Lowering moves the upper case range up by 32. -/
theorem toNat_asciiLower (c : Char) :
    (asciiLower c).toNat = if 65 ≤ c.toNat ∧ c.toNat ≤ 90 then c.toNat + 32 else c.toNat := by
  unfold asciiLower
  simp only [isUpper_iff]
  split
  · exact toNat_ofNat_of_lt (by omega)
  · rfl

/-- The upper-case form of an ASCII letter, any other character unchanged. -/
def asciiUpper (c : Char) : Char := if isLower c then Char.ofNat (c.toNat - 32) else c

/-- Raising moves the lower case range down by 32. -/
theorem toNat_asciiUpper (c : Char) :
    (asciiUpper c).toNat = if 97 ≤ c.toNat ∧ c.toNat ≤ 122 then c.toNat - 32 else c.toNat := by
  unfold asciiUpper
  simp only [isLower_iff]
  split
  · exact toNat_ofNat_of_lt (by omega)
  · rfl

@[simp] theorem asciiLower_asciiLower (c : Char) : asciiLower (asciiLower c) = asciiLower c := by
  apply Char.toNat_inj.mp
  rw [toNat_asciiLower, toNat_asciiLower]
  split_ifs <;> omega

/-- Lowering forgets whether a letter was raised. -/
@[simp] theorem asciiLower_asciiUpper (c : Char) : asciiLower (asciiUpper c) = asciiLower c := by
  apply Char.toNat_inj.mp
  rw [toNat_asciiLower, toNat_asciiLower, toNat_asciiUpper]
  split_ifs <;> omega

@[simp] theorem asciiUpper_asciiUpper (c : Char) : asciiUpper (asciiUpper c) = asciiUpper c := by
  apply Char.toNat_inj.mp
  rw [toNat_asciiUpper, toNat_asciiUpper]
  split_ifs <;> omega

@[simp] theorem asciiUpper_asciiLower (c : Char) : asciiUpper (asciiLower c) = asciiUpper c := by
  apply Char.toNat_inj.mp
  rw [toNat_asciiUpper, toNat_asciiUpper, toNat_asciiLower]
  split_ifs <;> omega

theorem isUpper_asciiLower (c : Char) : isUpper (asciiLower c) = false := by
  rw [Bool.eq_false_iff, ne_eq, isUpper_iff, toNat_asciiLower]
  split <;> omega

/-! ## Case of ASCII texts -/

/-- All characters are ASCII characters. -/
def IsAscii (cs : List Char) : Prop := ∀ c ∈ cs, c.toNat < 128

/-- On ASCII the general case map is the ASCII one, whatever stands around a letter. -/
theorem lowerFrom_ascii {cs : List Char} (h : IsAscii cs) (before : List Char) :
    CaseMap.lowerFrom before cs = cs.map asciiLower := by
  -- the letters before a letter only matter beyond ASCII
  induction cs generalizing before with
  | nil => rfl
  | cons c cs ih =>
    obtain ⟨hc, hcs⟩ := List.forall_mem_cons.mp h
    rw [CaseMap.lowerFrom, ih hcs, CaseMap.lowerIn, if_pos hc]
    rfl

/-- An ASCII text is lowered letter by letter. -/
theorem toList_lower {s : String} (h : IsAscii s.toList) :
    (lower s).toList = s.toList.map asciiLower := by
  rw [lower, lowerFrom_ascii h, String.toList_ofList]

theorem upperExpansions_beyond_ascii : ∀ e ∈ CaseMap.upperExpansions, 128 ≤ e.1 := by decide

set_option maxRecDepth 4096 in
/-- One run is that of the small ASCII letters, and no other has an ASCII character. -/
theorem upperRuns_beyond_ascii :
    ∀ r ∈ CaseMap.upperRuns, 128 ≤ r.first ∨ (r.first = 97 ∧ r.last = 122) := by decide

/-- On ASCII the general raising is the ASCII one. -/
theorem upper_ascii (h : c.toNat < 128) : CaseMap.upper c = [asciiUpper c] := by
  unfold CaseMap.upper asciiUpper
  split
  · rfl
  · next hlower =>
    -- the tables of the general map start beyond ASCII
    have hnone : CaseMap.upperExpansions.lookup c.toNat = none := by
      rw [List.lookup_eq_none_iff]
      intro e he
      have hle := upperExpansions_beyond_ascii e he
      exact bne_iff_ne.mpr (by omega)
    have hkept : CaseMap.upperRuns.findSome? (·.image? c.toNat) = none := by
      rw [List.findSome?_eq_none_iff]
      intro r hr
      have hrun := upperRuns_beyond_ascii r hr
      rw [isLower_iff] at hlower
      rw [CaseMap.Run.image?, if_neg (by omega)]
    rw [hnone]
    show [CaseMap.apply CaseMap.upperRuns c] = [c]
    rw [CaseMap.apply, hkept]

/-- Raising the first letter of an ASCII text changes that letter only. -/
theorem toList_upperFirst {s : String} (h : IsAscii s.toList) :
    (upperFirst s).toList = s.toList.modifyHead asciiUpper := by
  unfold upperFirst
  cases hs : s.toList with
  | nil => exact hs
  | cons c cs =>
    have hc : c.toNat < 128 := h c (by rw [hs]; exact List.mem_cons_self)
    show (String.ofList (CaseMap.upper c ++ cs)).toList = asciiUpper c :: cs
    rw [upper_ascii hc, String.toList_ofList, List.singleton_append]

end Text

namespace Wording

open Text (isUpper isLower asciiLower asciiUpper IsAscii)

/-! ## Words -/

variable {p c : Char} {cs rest w : List Char} {ws : List (List Char)}

theorem isSeparator_iff : isSeparator c = true ↔
    c.toNat = 95 ∨ c.toNat = 45 ∨ c.toNat = 32 ∨ c.toNat = 46 ∨ c.toNat = 36 := by
  simp only [isSeparator, Bool.or_eq_true, beq_iff_eq, or_assoc, ← Char.toNat_inj]
  rfl

/-- What still belongs to a word that ends in `p` so far. -/
def lead (p : Char) : List Char → List Char
  | [] => []
  | c :: cs => if isSeparator c || startsWord (some p) c cs.head? then [] else c :: lead c cs

/-- The words of a text. -/
def words (cs : List Char) : List (List Char) := wordsFrom none [] cs

/-- The lead of a text is its beginning. -/
theorem lead_initial (p : Char) (cs : List Char) : lead p cs <+: cs := by
  induction cs generalizing p with
  | nil => exact List.prefix_rfl
  | cons c cs ih =>
    rw [lead]
    split
    · exact List.nil_prefix
    · exact List.cons_prefix_cons.mpr ⟨rfl, ih c⟩

/-- No separator is in a lead. -/
theorem isSeparator_of_mem_lead (h : c ∈ lead p cs) : isSeparator c = false := by
  induction cs generalizing p with
  | nil => exact absurd h List.not_mem_nil
  | cons d cs ih =>
    rw [lead] at h
    split at h
    · exact absurd h List.not_mem_nil
    · next hd =>
      rcases List.mem_cons.mp h with rfl | h
      · exact (Bool.or_eq_false_iff.mp (Bool.eq_false_iff.mpr hd)).1
      · exact ih h

/-- While no word is open, the character before makes no difference. -/
theorem wordsFrom_nil (before : Option Char) (cs : List Char) :
    wordsFrom before [] cs = words cs := by
  cases cs with
  | nil => rfl
  | cons c cs =>
    unfold words
    rw [wordsFrom, wordsFrom]
    simp

/-- A separator in front makes no word. -/
theorem words_cons_separator (h : isSeparator c = true) (cs : List Char) :
    words (c :: cs) = words cs := by
  rw [← wordsFrom_nil (some c) cs]
  unfold words
  rw [wordsFrom]
  simp [h]

/-- **An open word takes what belongs to it**, and the words of the rest follow. Induction on the
text: a capital that ends the word opens the next one, just as it does where no word is open. -/
theorem wordsFrom_open {current : List Char} (h : current ≠ []) (p : Char) (cs : List Char) :
    wordsFrom (some p) current cs = (current ++ lead p cs) ::
      words (cs.drop (lead p cs).length) := by
  induction cs generalizing p current with
  | nil => simp [wordsFrom, lead, words, h]
  | cons c cs ih =>
    have hopen : current.isEmpty = false := List.isEmpty_eq_false_iff.mpr h
    rw [wordsFrom, lead]
    cases hc : isSeparator c with
    | true => simp [hopen, wordsFrom_nil, words_cons_separator hc]
    | false =>
      cases hstart : startsWord (some p) c cs.head? with
      | true => simp [hopen, words, wordsFrom, hc]
      | false =>
        have hgrown : current ++ [c] ≠ [] := by simp
        simp [ih hgrown c]

@[simp] theorem words_nil : words [] = [] := rfl

/-- Any other character starts a word, which takes the lead of what follows. -/
theorem words_cons (h : isSeparator c = false) (cs : List Char) :
    words (c :: cs) = (c :: lead c cs) :: words (cs.drop (lead c cs).length) := by
  rw [show c :: lead c cs = [c] ++ lead c cs from rfl,
    ← wordsFrom_open (List.cons_ne_nil c []) c cs]
  unfold words
  rw [wordsFrom]
  simp [h]

/-- Texts by their words: separators are passed, and a word is passed as a whole. -/
theorem words_induction {motive : List Char → Prop} (nil : motive [])
    (separator : ∀ c cs, isSeparator c = true → motive cs → motive (c :: cs))
    (word : ∀ c cs, isSeparator c = false → motive (cs.drop (lead c cs).length) →
      motive (c :: cs)) :
    ∀ cs, motive cs
  | [] => nil
  | c :: cs =>
    match hc : isSeparator c with
    | true => separator c cs hc (words_induction nil separator word cs)
    | false => word c cs hc (words_induction nil separator word (cs.drop (lead c cs).length))
termination_by cs => cs.length
decreasing_by
  all_goals simp only [List.length_drop, List.length_cons]
  all_goals omega

/-- **Words have all characters but the separators.** -/
theorem words_flatten (cs : List Char) : (words cs).flatten = cs.filter (!isSeparator ·) := by
  induction cs using words_induction with
  | nil => rfl
  | separator c cs hc ih => rw [words_cons_separator hc, ih, List.filter_cons_of_neg (by simp [hc])]
  | word c cs hc ih =>
    have hlead : (lead c cs).filter (!isSeparator ·) = lead c cs :=
      List.filter_eq_self.mpr fun d hd => by simp [isSeparator_of_mem_lead hd]
    have hsplit : cs = lead c cs ++ cs.drop (lead c cs).length :=
      List.prefix_iff_eq_append.mp (lead_initial c cs) |>.symm
    rw [words_cons hc, List.flatten_cons, ih, List.filter_cons_of_pos (by simp [hc])]
    conv_rhs => rw [hsplit, List.filter_append, hlead]
    rfl

/-! ## Solid words -/

/-- A word without a separator and without the start of another word. -/
def Solid : List Char → Prop
  | [] => False
  | c :: cs => isSeparator c = false ∧ lead c cs = cs

theorem Solid.ne_nil (h : Solid w) : w ≠ [] := by
  rintro rfl
  exact h

/-- A solid word has no separator. -/
theorem Solid.isSeparator (h : Solid w) (hc : c ∈ w) : isSeparator c = false := by
  cases w with
  | nil => exact absurd hc List.not_mem_nil
  | cons d w =>
    rcases List.mem_cons.mp hc with rfl | hc
    · exact h.1
    · exact isSeparator_of_mem_lead (h.2.symm ▸ hc)

theorem Solid.not_mem_space (h : Solid w) :
    ' ' ∉ w := fun hc => absurd (h.isSeparator hc) (by decide)

/-- With less to see behind it, no more characters start a word. -/
theorem startsWord_of_none {before : Option Char} (h : startsWord before c none = true)
    (after : Option Char) : startsWord before c after = true := by
  unfold startsWord at h ⊢
  cases before with
  | none => simp at h
  | some p =>
    simp only [Option.any_some, Option.any_none, Bool.and_false, Bool.or_false,
      Bool.and_eq_true] at h ⊢
    exact ⟨h.1, by simp [h.2]⟩

/-- A cut leaves no start of a word: the last character of what was taken sees nothing behind it,
and all others see what they saw before. -/
theorem lead_lead (p : Char) (cs : List Char) : lead p (lead p cs) = lead p cs := by
  induction cs generalizing p with
  | nil => rfl
  | cons c cs ih =>
    rw [lead]
    split
    · rfl
    · next hc =>
      -- what follows in the lead is the same character, or none, and then the word ends no sooner
      have hc' : (isSeparator c || startsWord (some p) c (lead c cs).head?) = false := by
        rw [Bool.or_eq_true, not_or] at hc
        refine Bool.or_eq_false_iff.mpr ⟨Bool.eq_false_iff.mpr hc.1,
          Bool.eq_false_iff.mpr fun hstart => hc.2 ?_⟩
        obtain ⟨dropped, hdropped⟩ := lead_initial c cs
        cases hlead : lead c cs with
        | nil =>
          rw [hlead] at hstart
          exact startsWord_of_none hstart _
        | cons d more =>
          rw [hlead] at hstart hdropped
          rw [← hdropped]
          exact hstart
      rw [lead, if_neg (by simp [hc']), ih]

/-- The words of a text are solid: none splits again. -/
theorem solid_of_mem_words (h : w ∈ words cs) : Solid w := by
  -- along the words, each of which is one character and its lead
  induction cs using words_induction with
  | nil => exact absurd h List.not_mem_nil
  | separator c cs hc ih => exact ih (words_cons_separator hc cs ▸ h)
  | word c cs hc ih =>
    rw [words_cons hc] at h
    rcases List.mem_cons.mp h with rfl | h
    · exact ⟨hc, lead_lead c cs⟩
    · exact ih h

/-- Only capitals start words, and the first character is not asked. -/
theorem solid_of_no_capitals (hc : isSeparator c = false)
    (hcs : ∀ d ∈ cs, isSeparator d = false ∧ isUpper d = false) : Solid (c :: cs) := by
  refine ⟨hc, ?_⟩
  induction cs generalizing c with
  | nil => rfl
  | cons d cs ih =>
    obtain ⟨hd, hrest⟩ := List.forall_mem_cons.mp hcs
    rw [lead, if_neg (by simp [startsWord, hd]), ih hd.1 hrest]

/-! ## Phrases -/

/-- A space ends a word, and to the character before it this is like the end of the text. -/
theorem lead_append_space (h : lead p w = w) (rest : List Char) :
    lead p (w ++ ' ' :: rest) = w := by
  induction w generalizing p with
  | nil => rfl
  | cons c w ih =>
    rw [lead] at h
    split at h
    · cases h
    · next hc =>
      have hsame : startsWord (some p) c (w ++ ' ' :: rest).head?
          = startsWord (some p) c w.head? := by
        cases w with
        | nil => rfl
        | cons d w => rfl
      rw [List.cons_append, lead, hsame, if_neg hc, ih (List.cons.inj h).2]

/-- A solid word before a space is the first word. -/
theorem words_append_space (h : Solid w) (rest : List Char) :
    words (w ++ ' ' :: rest) = w :: words rest := by
  cases w with
  | nil => exact h.elim
  | cons c w =>
    rw [List.cons_append, words_cons h.1, lead_append_space h.2, List.drop_left,
      words_cons_separator (by decide)]

/-- **A phrase of solid words has these words.** Induction on the words. -/
theorem words_intercalate (h : ∀ w ∈ ws, Solid w) : words (List.intercalate [' '] ws) = ws := by
  induction ws with
  | nil => rfl
  | cons w ws ih =>
    obtain ⟨hw, hws⟩ := List.forall_mem_cons.mp h
    cases ws with
    | nil =>
      rw [List.intercalate_singleton]
      cases w with
      | nil => exact hw.elim
      | cons c w => rw [words_cons hw.1, hw.2, List.drop_length, words_nil]
    | cons w' ws =>
      rw [List.intercalate_cons_cons, List.append_assoc, List.singleton_append,
        words_append_space hw, ih hws]

/-- Solid words that are joined by spaces split into the same words. -/
theorem splitWords_join {ws : List String} (h : ∀ w ∈ ws, Solid w.toList) :
    splitWords (Text.join " " ws) = ws := by
  have hwords : wordsFrom none [] (Text.join " " ws).toList = ws.map String.toList := by
    rw [Text.join, String.toList_intercalate]
    exact words_intercalate (List.forall_mem_map.mpr h)
  rw [splitWords, hwords, List.map_map]
  simp [Function.comp_def]

/-- Without the spaces between them, joined words are their letters. -/
theorem filter_intercalate (h : ∀ w ∈ ws, Solid w) :
    (List.intercalate [' '] ws).filter (· != ' ') = ws.flatten := by
  induction ws with
  | nil => rfl
  | cons w ws ih =>
    obtain ⟨hw, hws⟩ := List.forall_mem_cons.mp h
    have hkept : w.filter (· != ' ') = w := by
      refine List.filter_eq_self.mpr fun c hc => bne_iff_ne.mpr ?_
      rintro rfl
      exact hw.not_mem_space hc
    cases ws with
    | nil => rw [List.intercalate_singleton, hkept, List.flatten_singleton]
    | cons w' ws =>
      have hspace : [' '].filter (· != ' ') = [] := rfl
      rw [List.intercalate_cons_cons, List.filter_append, List.filter_append, hkept, hspace, ih hws,
        List.append_nil]
      rfl

/-! ## Forms of words -/

section Forms

variable {word : String}

theorem isSeparator_asciiLower (c : Char) : isSeparator (asciiLower c) = isSeparator c := by
  rw [Bool.eq_iff_iff, isSeparator_iff, isSeparator_iff, Text.toNat_asciiLower]
  split <;> omega

theorem isSeparator_asciiUpper (c : Char) : isSeparator (asciiUpper c) = isSeparator c := by
  rw [Bool.eq_iff_iff, isSeparator_iff, isSeparator_iff, Text.toNat_asciiUpper]
  split <;> omega

/-- Lower case behind the first character leaves no capital that could start another word. -/
theorem Solid.lower_tail {first : Char} (h : Solid (c :: cs))
    (hfirst : Wording.isSeparator first = false) : Solid (first :: cs.map asciiLower) := by
  refine solid_of_no_capitals hfirst (List.forall_mem_map.mpr fun d hd => ?_)
  rw [isSeparator_asciiLower]
  exact ⟨h.isSeparator (List.mem_cons_of_mem c hd), Text.isUpper_asciiLower d⟩

theorem isAscii_lower (h : IsAscii word.toList) : IsAscii (Text.lower word).toList := by
  rw [Text.toList_lower h]
  refine List.forall_mem_map.mpr fun c hc => ?_
  have hlt := h c hc
  rw [Text.toNat_asciiLower]
  split <;> omega

/-- A word keeps its form if its case is kept, and is lowered otherwise. -/
theorem wordForm_cases (word : String) :
    (keepsCase word = true ∧ wordForm word = word) ∨ wordForm word = Text.lower word := by
  unfold wordForm
  split
  · next hkeeps => exact .inl ⟨hkeeps, rfl⟩
  · exact .inr rfl

theorem isAscii_wordForm (h : IsAscii word.toList) : IsAscii (wordForm word).toList := by
  rcases wordForm_cases word with ⟨-, hform⟩ | hform <;> rw [hform]
  · exact h
  · exact isAscii_lower h

/-- A form has the letters of the word, up to case. -/
theorem toList_wordForm (h : IsAscii word.toList) :
    (wordForm word).toList.map asciiLower = word.toList.map asciiLower := by
  rcases wordForm_cases word with ⟨-, hform⟩ | hform <;> rw [hform]
  rw [Text.toList_lower h, List.map_map]
  simp [Function.comp_def]

/-- **A form of a word is a word.** -/
theorem solid_wordForm (h : IsAscii word.toList) (hsolid : Solid word.toList) :
    Solid (wordForm word).toList := by
  rcases wordForm_cases word with ⟨-, hform⟩ | hform <;> rw [hform]
  · exact hsolid
  · rw [Text.toList_lower h]
    cases hword : word.toList with
    | nil => exact absurd hword hsolid.ne_nil
    | cons c cs =>
      rw [hword] at hsolid
      exact hsolid.lower_tail ((isSeparator_asciiLower c).trans hsolid.1)

/-- A form is its own form. -/
theorem wordForm_wordForm (h : IsAscii word.toList) : wordForm (wordForm word) = wordForm word := by
  rcases wordForm_cases word with ⟨-, hform⟩ | hform
  · rw [hform, hform]
  · rw [hform]
    have hlower : Text.lower (Text.lower word) = Text.lower word := by
      apply String.toList_inj.mp
      rw [Text.toList_lower (isAscii_lower h), Text.toList_lower h, List.map_map]
      simp [Function.comp_def]
    -- whether or not lower case keeps its case, it stays as it is
    rcases wordForm_cases (Text.lower word) with ⟨-, hagain⟩ | hagain
    · exact hagain
    · rw [hagain, hlower]

/-- **The first word of a phrase** is as it was, or it has a capital in front and lower case
behind. -/
theorem upperFirst_wordForm_cases {c : Char} {cs : List Char} (h : IsAscii word.toList)
    (hword : word.toList = c :: cs) :
    (wordForm word = word ∧ Text.upperFirst word = word) ∨
      (Text.upperFirst (wordForm word)).toList = asciiUpper c :: cs.map asciiLower := by
  rcases wordForm_cases word with ⟨hkeeps, hform⟩ | hform
  · refine .inl ⟨hform, String.toList_inj.mp ?_⟩
    have hcapital : isLower c = false := by
      have hall :=
        List.all_eq_true.mp (Bool.and_eq_true_iff.mp hkeeps).2 c
          (by rw [hword]; exact List.mem_cons_self)
      simpa using hall
    rw [Text.toList_upperFirst h, hword]
    show asciiUpper c :: cs = c :: cs
    rw [asciiUpper, if_neg (by simp [hcapital])]
  · refine .inr ?_
    rw [hform, Text.toList_upperFirst (isAscii_lower h), Text.toList_lower h, hword]
    show asciiUpper (asciiLower c) :: cs.map asciiLower = asciiUpper c :: cs.map asciiLower
    rw [Text.asciiUpper_asciiLower]

theorem isAscii_upperFirst (h : IsAscii word.toList) : IsAscii (Text.upperFirst word).toList := by
  rw [Text.toList_upperFirst h]
  cases hword : word.toList with
  | nil => exact List.forall_mem_nil _
  | cons c cs =>
    rw [hword] at h
    obtain ⟨hc, hcs⟩ := List.forall_mem_cons.mp h
    refine List.forall_mem_cons.mpr ⟨?_, hcs⟩
    rw [Text.toNat_asciiUpper]
    split <;> omega

theorem toList_upperFirst_wordForm (h : IsAscii word.toList) :
    (Text.upperFirst (wordForm word)).toList.map asciiLower = word.toList.map asciiLower := by
  rw [Text.toList_upperFirst (isAscii_wordForm h), ← toList_wordForm h]
  cases (wordForm word).toList with
  | nil => rfl
  | cons c cs => simp

theorem solid_upperFirst_wordForm (h : IsAscii word.toList) (hsolid : Solid word.toList) :
    Solid (Text.upperFirst (wordForm word)).toList := by
  obtain ⟨c, cs, hword⟩ := List.exists_cons_of_ne_nil hsolid.ne_nil
  rcases upperFirst_wordForm_cases h hword with ⟨hform, hupper⟩ | hupper
  · rw [hform, hupper]
    exact hsolid
  · rw [hupper]
    rw [hword] at hsolid
    exact hsolid.lower_tail ((isSeparator_asciiUpper c).trans hsolid.1)

/-- **The first word of a phrase has no other form there.** A second pass may take it for a word in
capitals, or it puts it into lower case and the capital in front back. -/
theorem upperFirst_wordForm (h : IsAscii word.toList) (hsolid : Solid word.toList) :
    Text.upperFirst (wordForm (Text.upperFirst (wordForm word)))
      = Text.upperFirst (wordForm word) := by
  obtain ⟨c, cs, hword⟩ := List.exists_cons_of_ne_nil hsolid.ne_nil
  rcases upperFirst_wordForm_cases h hword with ⟨hform, hupper⟩ | hupper
  · rw [hform, hupper, hform, hupper]
  · have hascii : IsAscii (Text.upperFirst (wordForm word)).toList :=
      isAscii_upperFirst (isAscii_wordForm h)
    generalize Text.upperFirst (wordForm word) = first at hupper hascii
    apply String.toList_inj.mp
    rcases wordForm_cases first with ⟨-, hagain⟩ | hagain
    · rw [hagain, Text.toList_upperFirst hascii, hupper]
      simp
    · rw [hagain, Text.toList_upperFirst (isAscii_lower hascii), Text.toList_lower hascii, hupper]
      simp [Function.comp_def]

end Forms

/-! ## Names and their phrases -/

/-- The words of a name as they stand in its phrase. -/
def forms : List String → List String
  | [] => []
  | first :: rest => Text.upperFirst (wordForm first) :: rest.map wordForm

/-- A phrase is the forms of the words, joined by spaces. -/
theorem humanize_eq_join (name : String) :
    humanize name = Text.join " " (forms (splitWords name)) := by
  unfold humanize
  cases splitWords name with
  | nil => rfl
  | cons first rest => rfl

/-- Words that can be put into a phrase. -/
def Regular (ws : List String) : Prop := ∀ w ∈ ws, IsAscii w.toList ∧ Solid w.toList

/-- The words of an ASCII name are ASCII and solid. -/
theorem regular_splitWords {name : String} (h : IsAscii name.toList) :
    Regular (splitWords name) := by
  refine List.forall_mem_map.mpr fun w hw => ?_
  rw [String.toList_ofList]
  refine ⟨fun c hc => h c ?_, solid_of_mem_words hw⟩
  have hflat : c ∈ (words name.toList).flatten := List.mem_flatten.mpr ⟨w, hw, hc⟩
  rw [words_flatten] at hflat
  exact List.mem_of_mem_filter hflat

section Regular

variable {ws : List String}

/-- The forms of regular words are solid. -/
theorem Regular.solid_forms (h : Regular ws) : ∀ w ∈ forms ws, Solid w.toList := by
  cases ws with
  | nil => exact List.forall_mem_nil _
  | cons first rest =>
    obtain ⟨hfirst, hrest⟩ := List.forall_mem_cons.mp h
    refine List.forall_mem_cons.mpr ⟨solid_upperFirst_wordForm hfirst.1 hfirst.2,
      List.forall_mem_map.mpr fun w hw => ?_⟩
    exact solid_wordForm (hrest w hw).1 (hrest w hw).2

/-- Taking forms a second time changes nothing. -/
theorem Regular.forms_forms (h : Regular ws) : forms (forms ws) = forms ws := by
  cases ws with
  | nil => rfl
  | cons first rest =>
    obtain ⟨hfirst, hrest⟩ := List.forall_mem_cons.mp h
    show Text.upperFirst (wordForm (Text.upperFirst (wordForm first))) ::
      (rest.map wordForm).map wordForm
      = Text.upperFirst (wordForm first) :: rest.map wordForm
    rw [upperFirst_wordForm hfirst.1 hfirst.2, List.map_map]
    congr 1
    exact List.map_congr_left fun w hw => wordForm_wordForm (hrest w hw).1

/-- Forms have the letters of the words, up to case. -/
theorem Regular.letters_forms (h : Regular ws) :
    ((forms ws).map String.toList).flatten.map asciiLower
      = (ws.map String.toList).flatten.map asciiLower := by
  cases ws with
  | nil => rfl
  | cons first rest =>
    obtain ⟨hfirst, hrest⟩ := List.forall_mem_cons.mp h
    simp only [forms, List.map_cons, List.flatten_cons, List.map_append,
      toList_upperFirst_wordForm hfirst.1, List.map_flatten, List.map_map]
    congr 2
    exact List.map_congr_left fun w hw => toList_wordForm (hrest w hw).1

end Regular

/-- The characters of a name but the separators. -/
def letters (name : String) : List Char := name.toList.filter (· ∉ ['_', '-', ' ', '.', '$'])

/-- Splitting a name keeps its letters in order. -/
theorem flatten_splitWords (name : String) :
    ((splitWords name).map String.toList).flatten = letters name := by
  have hsame : (fun c => decide (c ∉ ['_', '-', ' ', '.', '$'])) = fun c => !isSeparator c := by
    funext c
    rw [Bool.eq_iff_iff]
    simp [isSeparator, and_assoc]
  have hwords : (splitWords name).map String.toList = words name.toList := by
    rw [splitWords, List.map_map]
    simp [Function.comp_def, words]
  rw [hwords, words_flatten, letters, hsame]

/-- **A phrase is faithful to its name.** The words of a name are not empty and have its characters
but the separators. Its phrase has single spaces between words and none at the ends, the same
letters up to their case, and it is its own phrase. -/
theorem humanize_faithful (name : String) (hascii : IsAscii name.toList) :
    (∀ w ∈ splitWords name, w ≠ "") ∧ ((splitWords name).map String.toList).flatten = letters name ∧
      Text.Tidy ' ' (humanize name).toList ∧
      ((humanize name).toList.filter (· != ' ')).map asciiLower = (letters name).map asciiLower ∧
      humanize (humanize name) = humanize name := by
  have hregular : Regular (splitWords name) := regular_splitWords hascii
  have hsolid : ∀ w ∈ (forms (splitWords name)).map String.toList, Solid w :=
    List.forall_mem_map.mpr hregular.solid_forms
  -- the phrase is solid words with single spaces between them
  have hphrase : (humanize name).toList
      = List.intercalate [' '] ((forms (splitWords name)).map String.toList) := by
    rw [humanize_eq_join, Text.join, String.toList_intercalate]
    rfl
  refine ⟨?_, flatten_splitWords name, ?_, ?_, ?_⟩
  · rintro w hw rfl
    exact (hregular "" hw).2.ne_nil rfl
  · rw [hphrase]
    exact Text.tidy_intercalate fun w hw => ⟨(hsolid w hw).ne_nil, (hsolid w hw).not_mem_space⟩
  · rw [hphrase, filter_intercalate hsolid, hregular.letters_forms, flatten_splitWords]
  · rw [humanize_eq_join (humanize name), humanize_eq_join name,
      splitWords_join hregular.solid_forms, hregular.forms_forms]

/-- Capitals that stay together, a digit before a capital, and separators at the ends and side by
side. -/
theorem humanize_faithful_mixed :
    IsAscii "_getHTTPResponse2FA__id$".toList ∧
      splitWords "_getHTTPResponse2FA__id$" = ["get", "HTTP", "Response2", "FA", "id"] ∧
      humanize "_getHTTPResponse2FA__id$" = "Get HTTP response2 FA id" ∧
      humanize "Get HTTP response2 FA id" = "Get HTTP response2 FA id" := by
  have hascii : IsAscii "_getHTTPResponse2FA__id$".toList := by simp [IsAscii]
  have hphrase : humanize "_getHTTPResponse2FA__id$" = "Get HTTP response2 FA id" := by decide
  obtain ⟨-, -, -, -, hagain⟩ := humanize_faithful "_getHTTPResponse2FA__id$" hascii
  rw [hphrase] at hagain
  exact ⟨hascii, by decide, hphrase, hagain⟩

end Wording

end CallAtlas
