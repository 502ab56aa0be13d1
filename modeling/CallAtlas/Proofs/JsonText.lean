import CallAtlas.Json.Printer
import CallAtlas.Json.Reader
import Mathlib.Data.List.DropRight
import Mathlib.Data.List.Nodup

/-!
# Proofs.JsonText — a value that is written and read again

The compact and the pretty text differ in their blanks only. What the reader does with a text is
therefore said once for arrays and objects with blanks at the places where either of them has some,
and the two printers are instances of it.

* `entries_joined` — entries with commas between them are read one by one.
* `parse?_compact`, `parse?_pretty` — a plain value comes back from both texts.
-/

namespace CallAtlas.Json

open Text (isDigit)

namespace Reader

variable {cs rest b : List Char} {fuel : Nat} {j : Json}

-- The three readers call each other, so each is opened by its equation at a positive bound.
alias value_succ := value.eq_2

alias items_succ := items.eq_2

alias members_succ := members.eq_2

/-! ## Blanks -/

/-- Nothing but blanks. -/
def Blanks (cs : List Char) : Prop := ∀ c ∈ cs, isBlank c = true

/-- Blanks in front make no difference. -/
theorem skipBlanks_append (h : Blanks b) (cs : List Char) : skipBlanks (b ++ cs) = skipBlanks cs :=
  List.dropWhile_append_of_pos h

theorem skipBlanks_cons {c : Char} (h : isBlank c = false) (cs : List Char) :
    skipBlanks (c :: cs) = c :: cs := by
  rw [skipBlanks, List.dropWhile_cons, h, if_neg Bool.false_ne_true]

theorem skipBlanks_idem (cs : List Char) : skipBlanks (skipBlanks cs) = skipBlanks cs := by
  rw [skipBlanks, skipBlanks, List.dropWhile_idempotent]

/-- A value may be read with the blanks before it or without them. -/
theorem value_skipBlanks (fuel : Nat) (cs : List Char) :
    value fuel (skipBlanks cs) = value fuel cs := by
  cases fuel with
  | zero => rfl
  | succ fuel => rw [value_succ, value_succ, skipBlanks_idem]

/-- Nothing here goes on with a number. -/
def Ends (rest : List Char) : Prop :=
  ∀ c ∈ rest.head?, isDigit c = false ∧ c ≠ '.' ∧ c ≠ 'e' ∧ c ≠ 'E'

theorem ends_nil : Ends [] := by simp [Ends]

/-- The end of a number is seen by the next character. -/
theorem ends_cons {c : Char} (h : isDigit c = false ∧ c ≠ '.' ∧ c ≠ 'e' ∧ c ≠ 'E')
    (rest : List Char) : Ends (c :: rest) := by
  simpa [Ends] using h

/-- A blank ends a number, and where there is none the rest has to. -/
theorem ends_blanks (h : Blanks b) (hrest : Ends rest) : Ends (b ++ rest) := by
  cases b with
  | nil => exact hrest
  | cons c b =>
    have hc := h c List.mem_cons_self
    simp only [isBlank, Bool.or_eq_true, beq_iff_eq] at hc
    refine ends_cons ?_ _
    rcases hc with ((rfl | rfl) | rfl) | rfl <;> decide

/-! ## Numbers -/

/-- What is written for a number are digits in the sense of the reader. -/
theorem isDigit_of_mem_toDigits {n : Nat} {c : Char}
    (h : c ∈ Nat.toDigits 10 n) : isDigit c = true := by
  have hc := Nat.isDigit_of_mem_toDigits (by decide) (by decide) h
  simpa [isDigit, Char.isDigit, Char.le_def] using hc

/-- The reader gives the digits the value that they were made from. -/
theorem natOfDigits_toDigits (n : Nat) : natOfDigits (Nat.toDigits 10 n) = n := by
  have h := Nat.ofDigitChars_ten_toDigits (n := n)
  rw [Nat.ofDigitChars_eq_foldl] at h
  simpa only [natOfDigits, Nat.mul_comm, show '0'.toNat = 48 from rfl] using h

/-- Only zero is written with a leading zero. -/
theorem head?_toDigits_ne_zero {n : Nat} (h : 0 < n) : (Nat.toDigits 10 n).head? ≠ some '0' := by
  induction n using Nat.strongRecOn with
  | ind n ih =>
    rw [Nat.toDigits_eq_if (by decide)]
    split
    · next hlt =>
      have hdigit : ∀ k < 10, 0 < k → Nat.digitChar k ≠ '0' := by decide
      simpa using hdigit n hlt h
    · next hge =>
      -- the first digit is that of the number without its last one
      rw [List.head?_append_of_ne_nil _ Nat.toDigits_ne_nil]
      exact ih (n / 10) (by omega) (by omega)

/-- Without a point there is no fraction. -/
theorem fraction_of_ends (h : Ends rest) : fraction rest = some ([], rest) := by
  rw [fraction.eq_def]
  split
  · next rest' => exact absurd rfl (h '.' rfl).2.1
  · rfl

/-- Without a letter there is no exponent. -/
theorem exponent_of_ends (h : Ends rest) : exponent rest = some (none, rest) := by
  cases rest with
  | nil => rfl
  | cons c rest =>
    obtain ⟨-, -, he, hE⟩ := h c rfl
    simp [exponent, he, hE]

/-- **A natural number is read as it is written**, if what follows does not go on with it. -/
theorem number_decimal {n : Nat} (hrest : Ends rest) :
    number (Nat.toDigits 10 n ++ rest) = some (wholeNumber false n, rest) := by
  have htake : (Nat.toDigits 10 n ++ rest).takeWhile isDigit = Nat.toDigits 10 n := by
    rw [List.takeWhile_append_of_pos fun c => isDigit_of_mem_toDigits]
    cases rest with
    | nil => simp
    | cons c rest => simp [(hrest c rfl).1]
  have hdrop : (Nat.toDigits 10 n ++ rest).dropWhile isDigit = rest := by
    rw [List.dropWhile_append_of_pos fun c => isDigit_of_mem_toDigits]
    cases rest with
    | nil => simp
    | cons c rest => simp [(hrest c rfl).1]
  -- the reader refuses a leading zero
  have hlead : ((Nat.toDigits 10 n).head? == some '0' && decide ((Nat.toDigits 10 n).length > 1))
      = false := by
    rcases Nat.eq_zero_or_pos n with rfl | hpos
    · rfl
    · simp [head?_toDigits_ne_zero hpos]
  -- and no digit is taken for a sign
  have hsign : ∀ r, Nat.toDigits 10 n ++ rest ≠ '-' :: r := by
    intro r heq
    obtain ⟨d, ds, hds⟩ := List.exists_cons_of_ne_nil (Nat.toDigits_ne_nil (n := n) (b := 10))
    have hd : isDigit d = true := isDigit_of_mem_toDigits (n := n) (hds ▸ List.mem_cons_self)
    rw [hds] at heq
    cases heq
    cases hd
  unfold number
  split
  next minus digits heq =>
    -- with no sign, the digits are all that is left
    split at heq
    · next r hminus => exact absurd hminus (hsign r)
    · cases heq
      simp [htake, hdrop, hlead, fraction_of_ends hrest, exponent_of_ends hrest,
        natOfDigits_toDigits]

/-! ## Strings -/

theorem hexDigit?_hexDigit : ∀ n < 16, hexDigit? (Printer.hexDigit n) = some n := by decide

/-- A character is written in such a way that it is read in one step. -/
theorem stringBody_escapeChar (fuel : Nat) (acc : List Char) (c : Char) (rest : List Char) :
    stringBody (fuel + 1) acc (Printer.escapeChar c ++ rest) = stringBody fuel (c :: acc) rest := by
  rw [Printer.escapeChar]
  split_ifs with hquote hback hn hr ht hb hf hctrl
  · subst hquote
    rfl
  · subst hback
    rfl
  · subst hn
    rfl
  · subst hr
    rfl
  · subst ht
    rfl
  · subst hb
    rfl
  · subst hf
    rfl
  · -- a control character is written by its code, in four digits of which two are zero
    have hhex : hex4 ('0' :: '0' :: Printer.hexDigit (c.toNat / 16) ::
        Printer.hexDigit (c.toNat % 16) :: rest) = some (c.toNat, rest) := by
      have h0 : hexDigit? '0' = some 0 := rfl
      have hcode : c.toNat / 16 * 16 + c.toNat % 16 = c.toNat := by omega
      simp [hex4, h0, hexDigit?_hexDigit (c.toNat / 16) (by omega),
        hexDigit?_hexDigit (c.toNat % 16) (by omega), hcode]
    have hesc : escape ('u' :: '0' :: '0' :: Printer.hexDigit (c.toNat / 16) ::
        Printer.hexDigit (c.toNat % 16) :: rest) = some (c, rest) := by
      have hlow : ¬ 0xDC00 ≤ c.toNat := by omega
      have hhigh : ¬ 0xD800 ≤ c.toNat := by omega
      simp [escape, hhex, hlow, hhigh]
    simp only [List.cons_append, List.nil_append, stringBody, hesc]
  · rw [List.singleton_append, stringBody.eq_def]
    simp [hctrl]

theorem escapeChar_ne_nil (c : Char) : Printer.escapeChar c ≠ [] := by
  rw [Printer.escapeChar]
  split_ifs <;> exact List.cons_ne_nil _ _

/-- **A quoted text is read back**, up to the quote that ends it. Induction on the text; each
character takes one step of the fuel, and is written with at least one character. -/
theorem stringBody_quoted (s : List Char) (fuel : Nat) (acc : List Char) (rest : List Char)
    (hfuel : (s.flatMap Printer.escapeChar).length < fuel) :
    stringBody fuel acc (s.flatMap Printer.escapeChar ++ '"' :: rest)
      = some (.ofList (acc.reverse ++ s), rest) := by
  induction s generalizing fuel acc with
  | nil =>
    obtain ⟨fuel, rfl⟩ := Nat.exists_eq_add_one_of_ne_zero (Nat.ne_zero_of_lt hfuel)
    simp [stringBody]
  | cons c s ih =>
    obtain ⟨fuel, rfl⟩ := Nat.exists_eq_add_one_of_ne_zero (Nat.ne_zero_of_lt hfuel)
    have hlen := List.length_pos_iff.mpr (escapeChar_ne_nil c)
    rw [List.flatMap_cons, List.length_append] at hfuel
    rw [List.flatMap_cons, List.append_assoc, stringBody_escapeChar, ih fuel (c :: acc) (by omega)]
    simp

/-- The text of a string, as characters. -/
theorem toList_quote (s : String) :
    (Printer.quote s).toList = '"' :: (s.toList.flatMap Printer.escapeChar ++ ['"']) := by
  simp [Printer.quote]

/-! ## Values -/

/-- From a text that begins like this the reader takes this value and no more. -/
def Reads (j : Json) (cs : List Char) : Prop :=
  ∀ fuel rest, cs.length < fuel → Ends rest → value fuel (cs ++ rest) = some (j, rest)

/-- Blanks may stand before a value. -/
theorem Reads.blanks (h : Reads j cs) (hb : Blanks b) : Reads j (b ++ cs) := by
  intro fuel rest hfuel hrest
  rw [List.length_append] at hfuel
  rw [← value_skipBlanks, List.append_assoc, skipBlanks_append hb, value_skipBlanks]
  exact h fuel rest (by omega) hrest

theorem reads_null : Reads .null "null".toList := by
  rintro (- | fuel) rest hfuel -
  · cases hfuel
  · rfl

theorem reads_bool (x : Bool) : Reads (.bool x) (if x then "true" else "false").toList := by
  rintro (- | fuel) rest hfuel -
  · cases hfuel
  · cases x <;> rfl

/-- Of the characters that a value begins with, digits are those that no other value begins with. -/
theorem value_of_digit {d : Char} (hd : isDigit d = true) :
    value (fuel + 1) (d :: cs)
      = (number (d :: cs)).bind fun (n, rest) =>
        if n.isTooLarge then none else some (.num n, rest) := by
  have hblank : isBlank d = false := by
    by_contra hb
    simp only [Bool.not_eq_false, isBlank, Bool.or_eq_true, beq_iff_eq] at hb
    rcases hb with ((rfl | rfl) | rfl) | rfl <;> cases hd
  rw [value_succ, skipBlanks_cons hblank]
  split
  · next heq => cases heq; cases hd
  · next heq => cases heq; cases hd
  · next heq => cases heq; cases hd
  · next heq => cases heq; cases hd
  · next heq => cases heq; cases hd
  · next heq => cases heq; cases hd
  · rfl

/-- A number that fits in 64 bits is read as a natural number. -/
theorem reads_natural {n : Nat} (h : n < Nat.pow 2 64) :
    Reads (.ofNat n) (Text.decimal n).toList := by
  rintro (- | fuel) rest hfuel hrest
  · cases hfuel
  · have hnumber := number_decimal (n := n) hrest
    rw [Text.decimal, String.toList_ofList]
    -- its first digit tells the reader that it is a number
    obtain ⟨d, ds, hds⟩ := List.exists_cons_of_ne_nil (Nat.toDigits_ne_nil (n := n) (b := 10))
    have hd : isDigit d = true := isDigit_of_mem_toDigits (n := n) (hds ▸ List.mem_cons_self)
    rw [hds, List.cons_append] at hnumber ⊢
    rw [value_of_digit hd, hnumber, wholeNumber, if_neg Bool.false_ne_true, if_pos h]
    rfl

theorem value_quote :
    value (fuel + 1) ('"' :: cs) = (stringBody fuel [] cs).map fun (s, rest) => (.str s, rest) :=
  rfl

/-- The body of a string has less characters than the string with its quotes, so the fuel is enough.
-/
theorem reads_str (s : String) : Reads (.str s) (Printer.quote s).toList := by
  rintro (- | fuel) rest hfuel -
  · cases hfuel
  · rw [toList_quote] at hfuel ⊢
    simp only [List.length_cons, List.length_append] at hfuel
    simp only [List.cons_append, List.append_assoc, List.nil_append]
    rw [value_quote, stringBody_quoted s.toList fuel [] rest (by omega)]
    simp

/-! ### Arrays and objects -/

section

variable {lead tail : List Char}

/-- Entries with commas between them, each with the blanks `lead` before it, and further blanks
before the closing bracket. A reader that takes one entry up to a comma or the bracket takes them
all. -/
theorem entries_joined {α : Type} (read : Nat → List Char → Option (List α × List Char))
    (close : Char) (Entry : α → List Char → Prop)
    (hmore : ∀ {a cs fuel} rest, Entry a cs → cs.length < fuel →
      read (fuel + 1) (cs ++ ',' :: rest) = (read fuel rest).map fun p => (a :: p.1, p.2))
    (hlast : ∀ {a cs fuel} rest, Entry a cs → cs.length < fuel →
      read (fuel + 1) (cs ++ (tail ++ close :: rest)) = some ([a], rest))
    (hlead : ∀ {a cs}, Entry a cs → Entry a (lead ++ cs)) {as : List α} {text : α → List Char}
    (h : ∀ a ∈ as, Entry a (text a)) (hne : as ≠ []) (rest : List Char)
    (hfuel : (lead ++ (',' :: lead).intercalate (as.map text)).length + 1 < fuel) :
    read fuel (lead ++ (',' :: lead).intercalate (as.map text) ++ (tail ++ close :: rest))
      = some (as, rest) := by
  induction as generalizing fuel with
  | nil => exact absurd rfl hne
  | cons a as ih =>
    obtain ⟨fuel, rfl⟩ := Nat.exists_eq_add_one_of_ne_zero (Nat.ne_zero_of_lt hfuel)
    -- the entry is read with the blanks before it
    have ha := hlead (h a List.mem_cons_self)
    cases as with
    | nil =>
      rw [List.map_singleton, List.intercalate_singleton] at hfuel ⊢
      exact hlast rest ha (by omega)
    | cons a' as =>
      -- more entries follow, so the first one is read up to its comma
      have hsplit : lead ++ (',' :: lead).intercalate ((a :: a' :: as).map text)
          = lead ++ text a ++ ',' :: (lead ++ (',' :: lead).intercalate ((a' :: as).map text)) := by
        simp
      rw [hsplit, List.length_append, List.length_cons] at hfuel
      have has : ∀ a'' ∈ a' :: as, Entry a'' (text a'') := fun a'' hmem =>
        h a'' (List.mem_cons_of_mem a hmem)
      rw [hsplit, List.append_assoc, List.cons_append, hmore _ ha (by omega),
        ih has (List.cons_ne_nil a' as) (by omega)]
      rfl

/-- An element is read up to the comma behind it. -/
theorem items_more (h : Reads j cs) (hfuel : cs.length < fuel) (rest : List Char) :
    items (fuel + 1) (cs ++ ',' :: rest) = (items fuel rest).map fun p => (j :: p.1, p.2) := by
  rw [items_succ, h fuel _ hfuel (ends_cons (by decide) rest)]
  simp only [skipBlanks_cons (show isBlank ',' = false by decide)]

/-- The last element is read up to the bracket. -/
theorem items_last (h : Reads j cs) (hfuel : cs.length < fuel) (htail : Blanks tail)
    (rest : List Char) : items (fuel + 1) (cs ++ (tail ++ ']' :: rest)) = some ([j], rest) := by
  rw [items_succ, h fuel _ hfuel (ends_blanks htail (ends_cons (by decide) rest))]
  simp only [skipBlanks_append htail, skipBlanks_cons (show isBlank ']' = false by decide)]

/-- No element begins with the closing bracket. -/
theorem value_array {js : List Json} (h : items fuel cs = some (js, rest)) :
    value (fuel + 1) ('[' :: cs) = some (.arr js, rest) := by
  obtain - | fuel := fuel
  · cases h
  have hopen : ∀ r, skipBlanks cs ≠ ']' :: r := by
    intro r hr
    obtain - | fuel := fuel
    · cases h
    · rw [items_succ, value_succ, hr] at h
      cases h
  -- whether blanks are skipped before the elements or by the first of them is the same
  have hskip : items (fuel + 1) (skipBlanks cs) = some (js, rest) := by
    rw [items_succ] at h ⊢
    rwa [value_skipBlanks]
  rw [value_succ, skipBlanks_cons (by decide)]
  simp only [hskip, Option.map_some]

/-- **An array is read from its elements**, with any blanks in the two places. -/
theorem reads_arr {js : List Json} {text : Json → List Char} (h : ∀ j ∈ js, Reads j (text j))
    (hne : js ≠ []) (hlead : Blanks lead) (htail : Blanks tail) :
    Reads (.arr js)
      ('[' :: (lead ++ (',' :: lead).intercalate (js.map text) ++ (tail ++ [']']))) := by
  rintro (- | fuel) rest hfuel -
  · cases hfuel
  · have hitems :
        items fuel (lead ++ (',' :: lead).intercalate (js.map text) ++ (tail ++ ']' :: rest))
          = some (js, rest) := by
      refine entries_joined items ']' Reads (fun rest h hlen => items_more h hlen rest)
        (fun rest h hlen => items_last h hlen htail rest) (fun h => h.blanks hlead) h hne rest ?_
      simp only [List.length_cons, List.length_append] at hfuel ⊢
      omega
    -- what follows the array stands behind its bracket
    have htext : '[' :: (lead ++ (',' :: lead).intercalate (js.map text) ++ (tail ++ [']'])) ++ rest
        = '[' :: (lead ++ (',' :: lead).intercalate (js.map text) ++ (tail ++ ']' :: rest)) := by
      simp
    rw [htext, value_array hitems]

theorem reads_arr_nil : Reads (.arr []) "[]".toList := by
  rintro (- | fuel) rest hfuel -
  · cases hfuel
  · rfl

/-- The text of a member: its name, a colon and its value, with blanks before the name and the
value. -/
def ReadsMember (m : String × Json) (cs : List Char) : Prop :=
  ∃ lead gap text, Blanks lead ∧ Blanks gap ∧ Reads m.2 text ∧
    cs = lead ++ (Printer.quote m.1).toList ++ ':' :: (gap ++ text)

/-- Blanks before a member are blanks before its name. -/
theorem ReadsMember.blanks {m : String × Json} (h : ReadsMember m cs) (hb : Blanks b) :
    ReadsMember m (b ++ cs) := by
  obtain ⟨lead, gap, text, hlead, hgap, htext, rfl⟩ := h
  refine ⟨b ++ lead, gap, text, fun c hc => ?_, hgap, htext, by simp⟩
  exact (List.mem_append.mp hc).elim (hb c) (hlead c)

/-- The name and the value of a member are read one after the other. -/
theorem ReadsMember.steps {m : String × Json} (h : ReadsMember m cs) (hfuel : cs.length < fuel)
    (hrest : Ends rest) :
    ∃ quoted after, skipBlanks (cs ++ rest) = '"' :: quoted ∧
      stringBody fuel [] quoted = some (m.1, ':' :: after) ∧
      value fuel after = some (m.2, rest) := by
  obtain ⟨lead, gap, text, hlead, hgap, htext, rfl⟩ := h
  rw [toList_quote] at hfuel ⊢
  simp only [List.length_append, List.length_cons] at hfuel
  -- the name is read up to its quote, and a colon follows
  have hname := stringBody_quoted m.1.toList fuel [] (':' :: (gap ++ text ++ rest)) (by omega)
  have hvalue : value fuel (gap ++ text ++ rest) = some (m.2, rest) :=
    htext.blanks hgap fuel rest (by simp; omega) hrest
  refine ⟨_, _, ?_, by simpa using hname, hvalue⟩
  simp only [List.append_assoc, List.cons_append, List.nil_append]
  rw [skipBlanks_append hlead, skipBlanks_cons (by decide)]

/-- A member is read up to the comma behind it. -/
theorem members_more {m : String × Json} (h : ReadsMember m cs) (hfuel : cs.length < fuel)
    (rest : List Char) :
    members (fuel + 1) (cs ++ ',' :: rest) = (members fuel rest).map fun p => (m :: p.1, p.2) := by
  have hends : Ends (',' :: rest) := ends_cons (by decide) rest
  obtain ⟨quoted, after, hquote, hname, hvalue⟩ := h.steps hfuel hends
  simp only [members, hquote, hname, skipBlanks_cons (show isBlank ':' = false by decide), hvalue,
    skipBlanks_cons (show isBlank ',' = false by decide)]

/-- The last member is read up to the brace. -/
theorem members_last {m : String × Json} (h : ReadsMember m cs) (hfuel : cs.length < fuel)
    (htail : Blanks tail) (rest : List Char) :
    members (fuel + 1) (cs ++ (tail ++ '}' :: rest)) = some ([m], rest) := by
  have hends : Ends (tail ++ '}' :: rest) := ends_blanks htail (ends_cons (by decide) rest)
  obtain ⟨quoted, after, hquote, hname, hvalue⟩ := h.steps hfuel hends
  simp only [members, hquote, hname, skipBlanks_cons (show isBlank ':' = false by decide), hvalue,
    skipBlanks_append htail, skipBlanks_cons (show isBlank '}' = false by decide)]

/-- No member begins with the closing brace. -/
theorem value_object {ms : List (String × Json)} (h : members fuel cs = some (ms, rest)) :
    value (fuel + 1) ('{' :: cs) = some (.ofMembers ms, rest) := by
  obtain - | fuel := fuel
  · cases h
  have hopen : ∀ r, skipBlanks cs ≠ '}' :: r := by
    intro r hr
    rw [members_succ, hr] at h
    cases h
  have hskip : members (fuel + 1) (skipBlanks cs) = some (ms, rest) := by
    rw [members_succ] at h ⊢
    rwa [skipBlanks_idem]
  rw [value_succ, skipBlanks_cons (by decide)]
  simp only [hskip, Option.map_some]

/-- **An object is read from its members**, as an array from its elements. -/
theorem reads_obj {ms : List (String × Json)} {text : String × Json → List Char}
    (h : ∀ m ∈ ms, ReadsMember m (text m)) (hne : ms ≠ []) (hlead : Blanks lead)
    (htail : Blanks tail) :
    Reads (.ofMembers ms)
      ('{' :: (lead ++ (',' :: lead).intercalate (ms.map text) ++ (tail ++ ['}']))) := by
  rintro (- | fuel) rest hfuel -
  · cases hfuel
  · have hmembers :
        members fuel (lead ++ (',' :: lead).intercalate (ms.map text) ++ (tail ++ '}' :: rest))
          = some (ms, rest) := by
      refine entries_joined members '}' ReadsMember (fun rest h hlen => members_more h hlen rest)
        (fun rest h hlen => members_last h hlen htail rest) (fun h => h.blanks hlead) h hne rest ?_
      simp only [List.length_cons, List.length_append] at hfuel ⊢
      omega
    have htext : '{' :: (lead ++ (',' :: lead).intercalate (ms.map text) ++ (tail ++ ['}'])) ++ rest
        = '{' :: (lead ++ (',' :: lead).intercalate (ms.map text) ++ (tail ++ '}' :: rest)) := by
      simp
    rw [htext, value_object hmembers]

theorem reads_obj_nil : Reads (.obj []) "\x7b\x7d".toList := by
  rintro (- | fuel) rest hfuel -
  · cases hfuel
  · rfl

end

/-- A whole text is a value with nothing behind it. -/
theorem parse?_of_reads {text : String} (h : Reads j text.toList) : parse? text = some j := by
  have hvalue := h (text.toList.length + 1) [] (Nat.lt_succ_self _) ends_nil
  rw [List.append_nil] at hvalue
  simp [parse?, hvalue, skipBlanks]

end Reader

/-! ## Members of one name -/

/-- A new name goes to the end. -/
theorem putMember_of_notMem {name : String} {value : Json} {members : List (String × Json)}
    (h : name ∉ members.map (·.1)) : putMember name value members = members ++ [(name, value)] := by
  induction members with
  | nil => rfl
  | cons m members ih =>
    obtain ⟨hne, hrest⟩ := List.ne_and_not_mem_of_not_mem_cons h
    rw [putMember, if_neg (Ne.symm hne), ih hrest, List.cons_append]

/-- **Members of different names stay as they are.** Induction on the members that are still to
come, with those that are done general. -/
theorem ofMembers_of_nodup {members : List (String × Json)} (h : (members.map (·.1)).Nodup) :
    ofMembers members = .obj members := by
  have hall : ∀ done rest : List (String × Json), ((done ++ rest).map (·.1)).Nodup →
      rest.foldl (fun acc m => putMember m.1 m.2 acc) done = done ++ rest := by
    intro done rest
    induction rest generalizing done with
    | nil => simp
    | cons m rest ih =>
      intro hnodup
      obtain ⟨name, value⟩ := m
      have hnew : name ∉ done.map (·.1) := by
        rw [List.map_append, List.map_cons, List.nodup_append'] at hnodup
        exact fun hmem => hnodup.2.2 hmem List.mem_cons_self
      rw [List.append_cons] at hnodup ⊢
      simp only [List.foldl_cons, putMember_of_notMem hnew, ih _ hnodup]
  exact congrArg Json.obj ((hall [] members h).trans (List.nil_append members))

/-! ## The printed texts -/

/-- Values without decimals, whose whole numbers fit in 64 bits and whose members have different
names. -/
inductive Plain : Json → Prop where
  | null : Plain .null
  | bool (b : Bool) : Plain (.bool b)
  | natural {n : Nat} (h : n < Nat.pow 2 64) : Plain (.ofNat n)
  | str (s : String) : Plain (.str s)
  | arr {items : List Json} (h : ∀ j ∈ items, Plain j) : Plain (.arr items)
  | obj {members : List (String × Json)} (hnames : (members.map (·.1)).Nodup)
      (h : ∀ m ∈ members, Plain m.2) : Plain (.obj members)

namespace Printer

open Reader (Reads ReadsMember Blanks reads_arr reads_obj)

/-- The four lemmas about lists say that a printer for lists is the printer for their elements. -/
theorem compactItems_eq (items : List Json) : compactItems items = items.map compact := by
  induction items with
  | nil => rfl
  | cons j items ih => rw [compactItems, ih, List.map_cons]

theorem compactMembers_eq (members : List (String × Json)) :
    compactMembers members = members.map fun m => quote m.1 ++ ":" ++ compact m.2 := by
  induction members with
  | nil => rfl
  | cons m members ih => rw [compactMembers, ih, List.map_cons]

theorem prettyItems_eq (level : Nat) (items : List Json) :
    prettyItems level items = items.map fun j => indent level ++ pretty level j := by
  induction items with
  | nil => rfl
  | cons j items ih => rw [prettyItems, ih, List.map_cons]

theorem prettyMembers_eq (level : Nat) (members : List (String × Json)) :
    prettyMembers level members
      = members.map fun m => indent level ++ quote m.1 ++ ": " ++ pretty level m.2 := by
  induction members with
  | nil => rfl
  | cons m members ih => rw [prettyMembers, ih, List.map_cons]

theorem blanks_nil : Blanks [] := by simp [Blanks]

/-- The indentation of a level. -/
theorem blanks_indent (level : Nat) : Blanks (indent level).toList := by
  intro c hc
  rw [indent, String.toList_ofList] at hc
  rw [List.eq_of_mem_replicate hc]
  rfl

/-- **The compact text of a plain value is read back.** Induction on the value. The compact text is
the case without blanks of what is said for arrays and objects. -/
theorem reads_compact {j : Json} (h : Plain j) : Reads j (compact j).toList := by
  induction h with
  | null => exact Reader.reads_null
  | bool b => exact Reader.reads_bool b
  | natural h => exact Reader.reads_natural h
  | str s => exact Reader.reads_str s
  | @arr items _ ih =>
    rcases eq_or_ne items [] with rfl | hne
    · exact Reader.reads_arr_nil
    · have htext : (compact (.arr items)).toList
          = '[' :: ([] ++ [','].intercalate (items.map fun j => (compact j).toList) ++
            ([] ++ [']'])) := by
        simp [compact, compactItems_eq, Function.comp_def]
      rw [htext]
      exact reads_arr ih hne blanks_nil blanks_nil
  | @obj members hnames _ ih =>
    rcases eq_or_ne members [] with rfl | hne
    · exact Reader.reads_obj_nil
    · let text (m : String × Json) : List Char := (quote m.1).toList ++ ':' :: (compact m.2).toList
      have htext : (compact (.obj members)).toList
          = '{' :: ([] ++ [','].intercalate (members.map text) ++ ([] ++ ['}'])) := by
        simp [compact, compactMembers_eq, Function.comp_def, text]
      -- a member has its name, the colon and the value right behind it
      have hmembers : ∀ m ∈ members, ReadsMember m (text m) := fun m hm =>
        ⟨[], [], (compact m.2).toList, blanks_nil, blanks_nil, ih m hm,
          by simp only [text, List.nil_append]⟩
      rw [htext, ← ofMembers_of_nodup hnames]
      exact reads_obj hmembers hne blanks_nil blanks_nil

theorem blanks_line : Blanks ['\n'] := by simp [Blanks, Reader.isBlank]

/-- What stands before a closing bracket in the pretty text. -/
theorem blanks_closing (level : Nat) : Blanks ('\n' :: (indent level).toList) := by
  intro c hc
  exact (List.mem_cons.mp hc).elim (fun h => h ▸ rfl) (blanks_indent level c)

/-- **The pretty text of a plain value is read back**, whatever level it starts on: a new line and
an indentation stand before each entry, and a blank behind each colon. -/
theorem reads_pretty {j : Json} (h : Plain j) (level : Nat) : Reads j (pretty level j).toList := by
  induction h generalizing level with
  | null => exact Reader.reads_null
  | bool b => exact Reader.reads_bool b
  | natural h => exact Reader.reads_natural h
  | str s => exact Reader.reads_str s
  | @arr items _ ih =>
    rcases eq_or_ne items [] with rfl | hne
    · exact Reader.reads_arr_nil
    · let text (j : Json) : List Char :=
        (indent (level + 1)).toList ++ (pretty (level + 1) j).toList
      have htext : (pretty level (.arr items)).toList
          = '[' :: (['\n'] ++ [',', '\n'].intercalate (items.map text) ++
            ('\n' :: (indent level).toList ++ [']'])) := by
        rw [pretty]
        · simp [prettyItems_eq, Function.comp_def, text]
        · exact hne
      -- the indentation of an element counts as blanks before it
      have hitems : ∀ j ∈ items, Reads j (text j) := fun j hj =>
        (ih j hj (level + 1)).blanks (blanks_indent _)
      rw [htext]
      exact reads_arr hitems hne blanks_line (blanks_closing level)
  | @obj members hnames _ ih =>
    rcases eq_or_ne members [] with rfl | hne
    · exact Reader.reads_obj_nil
    · let text (m : String × Json) : List Char :=
        (indent (level + 1)).toList ++ (quote m.1).toList ++ ':' ::
          ([' '] ++ (pretty (level + 1) m.2).toList)
      have htext : (pretty level (.obj members)).toList
          = '{' :: (['\n'] ++ [',', '\n'].intercalate (members.map text) ++
            ('\n' :: (indent level).toList ++ ['}'])) := by
        rw [pretty]
        · simp [prettyMembers_eq, Function.comp_def, text]
        · exact hne
      have hmembers : ∀ m ∈ members, ReadsMember m (text m) := fun m hm =>
        ⟨_, [' '], _, blanks_indent _, by simp [Blanks, Reader.isBlank], ih m hm (level + 1), rfl⟩
      rw [htext, ← ofMembers_of_nodup hnames]
      exact reads_obj hmembers hne blanks_line (blanks_closing level)

end Printer

/-- **A plain value comes back from its compact text.** -/
theorem parse?_compact {j : Json} (h : Plain j) : parse? j.compact = some j :=
  Reader.parse?_of_reads (Printer.reads_compact h)

/-- **A plain value comes back from its pretty text.** -/
theorem parse?_pretty {j : Json} (h : Plain j) : parse? j.pretty = some j :=
  Reader.parse?_of_reads (Printer.reads_pretty h 0)

end CallAtlas.Json
