import CallAtlas.Extraction.Literal

/-!
# Proofs.TemplateText — what a template literal reads as

A template literal should read as its text with each substitution as `:param`. The tree says where
the substitutions are, but the text is taken flat: whatever stands between `${` and the next closing
brace counts as one, and quotes of any kind are cut off at both ends.

* `Template` — a template as its tree has it, with the text that it should read as.
* `opens_paramsFrom` — the flat reading leaves a `${` only where no closing brace follows.
* `paramsFrom_eq_shown_iff` — hence it is right only if all other `${` start a substitution, and
  each of these ends at its first closing brace.
* `literalText?_template_iff` — the same of the node, with the quotes around it.
-/

namespace CallAtlas.Extraction

open CallAtlas.Tree

/-! ## Templates -/

/-- A template between its quotes: texts with substitutions between them. -/
inductive Template where
  | text (cs : List Char)
  | hole (lead body : List Char) (rest : Template)

namespace Template

def source : Template → List Char
  | text cs => cs
  | hole lead body rest => lead ++ (body ++ rest.source)

/-- What the template should read as. -/
def shown : Template → List Char
  | text cs => cs
  | hole lead _ rest => lead ++ (":param".toList ++ rest.shown)

def bodies : Template → List (List Char)
  | text _ => []
  | hole _ body rest => body :: rest.bodies

/-- No `${` in the texts has a closing brace behind it in the template. -/
def Inert : Template → Prop
  | text cs => ∀ a b, cs = a ++ '$' :: '{' :: b → '}' ∉ b
  | hole lead _ rest => (∀ a b, lead ≠ a ++ '$' :: '{' :: b) ∧ rest.Inert

end Template

/-- The characters of the first bytes, and those behind. -/
def cutBytes : Nat → List Char → List Char × List Char
  | 0, cs => ([], cs)
  | _ + 1, [] => ([], [])
  | k + 1, c :: cs =>
    (c :: (cutBytes (k + 1 - c.utf8Size) cs).1, (cutBytes (k + 1 - c.utf8Size) cs).2)

/-- Cuts a text that starts at a byte offset at the places of the substitutions. -/
def Template.read (offset : Nat) : List Node → List Char → Template
  | [], cs => text cs
  | sub :: subs, cs =>
    let lead := cutBytes (sub.label.start - offset) cs
    let body := cutBytes (sub.label.stop - sub.label.start) lead.2
    hole lead.1 body.1 (read sub.label.stop subs body.2)

/-- The template of a node, by the places of its children. -/
def Template.of (n : Node) : Template :=
  read (n.label.start + 1) (n.children.filter (·.kind == "template_substitution"))
    (n.text.toList.drop 1).dropLast

/-- Cutting loses nothing. -/
theorem cutBytes_append (k : Nat) (cs : List Char) :
    (cutBytes k cs).1 ++ (cutBytes k cs).2 = cs := by
  induction cs generalizing k with
  | nil => cases k <;> rfl
  | cons c cs ih =>
    cases k with
    | zero => rfl
    | succ k => exact congrArg (c :: ·) (ih _)

/-- **Cutting loses nothing.** -/
theorem Template.source_read (offset : Nat) (subs : List Node) (cs : List Char) :
    (read offset subs cs).source = cs := by
  induction subs generalizing offset cs with
  | nil => rfl
  | cons sub subs ih => simp only [read, source, ih, cutBytes_append]

/-- A substitution as it is written: `${`, an expression and a closing brace. -/
def IsSubstitution (body : List Char) : Prop := ∃ e, body = '$' :: '{' :: (e ++ ['}'])

/-! ## Counting -/

/-- The number of `${` in a text. -/
def opens : List Char → Nat
  | [] => 0
  | c :: cs => (if c = '$' ∧ cs.head? = some '{' then 1 else 0) + opens cs

/-- The number of those with no closing brace behind them. -/
def unclosed : List Char → Nat
  | [] => 0
  | c :: cs => (if c = '$' ∧ cs.head? = some '{' ∧ '}' ∉ cs then 1 else 0) + unclosed cs

/-- The number of `${` in the texts of a template. -/
def Template.opens : Template → Nat
  | text cs => Extraction.opens cs
  | hole lead _ rest => Extraction.opens lead + rest.opens

section Counting

variable {a b cs : List Char}

theorem head?_append_brace (hb : b.head? ≠ some '{') :
    (a ++ b).head? = some '{' ↔ a.head? = some '{' := by
  cases a with
  | nil => simp [hb]
  | cons c a => rfl

/-- Openings are counted on both sides of a cut that splits none. -/
theorem opens_append (hb : b.head? ≠ some '{') : opens (a ++ b) = opens a + opens b := by
  induction a with
  | nil => simp [opens]
  | cons c a ih =>
    simp only [List.cons_append, opens, ih, head?_append_brace hb]
    omega

/-- A `${` of a text is at its start or further on. -/
theorem forall_open_cons {c : Char} {P : List Char → Prop} :
    (∀ a b, c :: cs = a ++ '$' :: '{' :: b → P b) ↔
      (∀ b, c = '$' → cs = '{' :: b → P b) ∧ ∀ a b, cs = a ++ '$' :: '{' :: b → P b := by
  constructor
  · intro h
    refine ⟨fun b hc hcs => h [] b ?_, fun a b hcs => h (c :: a) b ?_⟩
    · rw [hc, hcs]
      rfl
    · rw [hcs]
      rfl
  · rintro ⟨hfirst, hlater⟩ a b h
    cases a with
    | nil =>
      obtain ⟨hc, hcs⟩ := List.cons.inj h
      exact hfirst b hc hcs
    | cons d a => exact hlater a b (List.cons.inj h).2

theorem head?_eq_brace : cs.head? = some '{' ↔ ∃ b, cs = '{' :: b := by
  cases cs with
  | nil => simp
  | cons c cs => simp

/-- A text has no opening exactly when the mark does not occur in it. -/
theorem opens_eq_zero_iff : opens cs = 0 ↔ ∀ a b, cs ≠ a ++ '$' :: '{' :: b := by
  induction cs with
  | nil => simp [opens]
  | cons c cs ih =>
    have hfirst : (∀ b, c = '$' → cs = '{' :: b → False) ↔ ¬ (c = '$' ∧ cs.head? = some '{') := by
      rw [head?_eq_brace]
      exact ⟨fun h ⟨hc, b, hb⟩ => h b hc hb, fun h b hc hb => h ⟨hc, b, hb⟩⟩
    refine Iff.trans ?_ forall_open_cons.symm
    rw [hfirst, opens, Nat.add_eq_zero_iff, ih]
    simp

/-- At most all openings are unclosed. -/
theorem unclosed_le_opens (cs : List Char) : unclosed cs ≤ opens cs := by
  induction cs with
  | nil => exact Nat.le_refl _
  | cons c cs ih =>
    simp only [unclosed, opens]
    split
    · next h => simp [h, ih]
    · omega

/-- All `${` before a closing brace are closed. -/
theorem unclosed_append (a b : List Char) : unclosed (a ++ '}' :: b) = unclosed b := by
  induction a with
  | nil => simp [unclosed]
  | cons c a ih => simp [unclosed, ih]

/-- All openings are unclosed exactly when no brace closes after any of them. -/
theorem unclosed_eq_opens_iff :
    unclosed cs = opens cs ↔ ∀ a b, cs = a ++ '$' :: '{' :: b → '}' ∉ b := by
  induction cs with
  | nil => simp [unclosed, opens]
  | cons c cs ih =>
    rw [forall_open_cons, ← ih, unclosed, opens]
    have hle := unclosed_le_opens cs
    -- an opening here is closed later or not; without one the rest decides
    by_cases h : c = '$' ∧ cs.head? = some '{'
    · obtain ⟨rfl, hhead⟩ := h
      obtain ⟨b, rfl⟩ := head?_eq_brace.mp hhead
      by_cases hb : '}' ∈ b
      · refine iff_of_false ?_ fun hall => hall.1 b rfl rfl hb
        simp only [List.mem_cons, hb, or_true, not_true, and_false, if_false, hhead,
          and_self, if_true]
        omega
      · simp [hb]
    · have hfirst : ∀ b, c = '$' → cs = '{' :: b → '}' ∉ b := by
        rintro b hc rfl
        exact absurd ⟨hc, rfl⟩ h
      have hnot : ¬ (c = '$' ∧ cs.head? = some '{' ∧ '}' ∉ cs) :=
        fun ⟨hc, hhead, _⟩ => h ⟨hc, hhead⟩
      rw [if_neg h, if_neg hnot, Nat.zero_add, Nat.zero_add]
      exact ⟨fun heq => ⟨hfirst, heq⟩, And.right⟩

/-! ## The flat reading -/

/-- Here the flat reading takes a substitution to start. -/
def StartsHole (c : Char) (cs : List Char) : Prop := c = '$' ∧ cs.head? = some '{' ∧ '}' ∈ cs

/-- A closed opening is written as a parameter, and skipped up to its brace. -/
theorem paramsFrom_hole {c : Char} (h : StartsHole c cs) :
    paramsFrom false (c :: cs) = ":param".toList ++ paramsFrom true cs := by
  have h : (c = '$' && cs.head? == some '{' && cs.contains '}') = true := by
    simpa [and_assoc, StartsHole] using h
  rw [paramsFrom, if_neg Bool.false_ne_true, if_pos h]

/-- Any other character is copied. -/
theorem paramsFrom_copy {c : Char} (h : ¬ StartsHole c cs) :
    paramsFrom false (c :: cs) = c :: paramsFrom false cs := by
  have h : ¬ (c = '$' && cs.head? == some '{' && cs.contains '}') = true := by
    simpa [and_assoc, StartsHole] using h
  rw [paramsFrom, if_neg Bool.false_ne_true, if_neg h]

theorem paramsFrom_skip (c : Char) (cs : List Char) :
    paramsFrom true (c :: cs) = paramsFrom (c != '}') cs := by
  rw [paramsFrom, if_pos rfl]

/-- A text is copied or starts with a parameter. -/
theorem head?_paramsFrom (cs : List Char) :
    (paramsFrom false cs).head? = cs.head? ∨
      cs.head? = some '$' ∧ (paramsFrom false cs).head? = some ':' := by
  cases cs with
  | nil => exact .inl rfl
  | cons c cs =>
    by_cases h : StartsHole c cs
    · rw [paramsFrom_hole h, h.1]
      exact .inr ⟨rfl, rfl⟩
    · rw [paramsFrom_copy h]
      exact .inl rfl

/-- The copy starts with a brace exactly when the text does. -/
theorem head?_paramsFrom_brace : (paramsFrom false cs).head? = some '{' ↔ cs.head? = some '{' := by
  rcases head?_paramsFrom cs with h | ⟨h, h'⟩
  · rw [h]
  · rw [h, h']
    decide

/-- **What is left of the `${` are those that are not closed.** -/
theorem opens_paramsFrom {skipping : Bool} (h : skipping = true → '}' ∈ cs) :
    opens (paramsFrom skipping cs) = unclosed cs := by
  induction cs generalizing skipping with
  | nil => rfl
  | cons c cs ih =>
    cases skipping with
    | true =>
      -- up to the closing brace nothing is copied, and every `${` there is closed by it
      rw [paramsFrom_skip]
      by_cases hc : c = '}'
      · subst hc
        rw [ih (by simp)]
        simp [unclosed]
      · have hmem : '}' ∈ cs := (List.mem_cons.mp (h rfl)).resolve_left (Ne.symm hc)
        rw [ih fun _ => hmem]
        simp [unclosed, hmem]
    | false =>
      by_cases hhole : StartsHole c cs
      · have hparam : opens (":param".toList ++ paramsFrom true cs)
            = opens (paramsFrom true cs) := by simp [opens]
        rw [paramsFrom_hole hhole, hparam, ih fun _ => hhole.2.2]
        simp [unclosed, hhole.2.2]
      · -- a `${` that is copied has no closing brace behind it
        have hsame : c = '$' ∧ (paramsFrom false cs).head? = some '{' ↔
            c = '$' ∧ cs.head? = some '{' ∧ '}' ∉ cs := by
          rw [head?_paramsFrom_brace]
          exact ⟨fun ⟨hc, hhead⟩ => ⟨hc, hhead, fun hmem => hhole ⟨hc, hhead, hmem⟩⟩,
            fun ⟨hc, hhead, _⟩ => ⟨hc, hhead⟩⟩
        rw [paramsFrom_copy hhole, opens, unclosed, ih (by simp)]
        simp only [hsame]

/-- A closing brace ends whatever was before. -/
theorem paramsFrom_append (skipping : Bool) (a b : List Char) :
    paramsFrom skipping (a ++ '}' :: b)
      = paramsFrom skipping (a ++ ['}']) ++ paramsFrom false b := by
  induction a generalizing skipping with
  | nil => cases skipping <;> simp [paramsFrom]
  | cons c a ih =>
    rw [List.cons_append, List.cons_append]
    cases skipping with
    | true => rw [paramsFrom_skip, paramsFrom_skip, ih]
    | false =>
      -- either way there is a closing brace behind
      have hsame : StartsHole c (a ++ '}' :: b) ↔ StartsHole c (a ++ ['}']) := by
        cases a <;> simp [StartsHole]
      by_cases hhole : StartsHole c (a ++ ['}'])
      · rw [paramsFrom_hole hhole, paramsFrom_hole (hsame.mpr hhole), ih, List.append_assoc]
      · rw [paramsFrom_copy hhole, paramsFrom_copy (mt hsame.mp hhole), ih, List.cons_append]

/-- A text without `${` is copied. -/
theorem paramsFrom_text (ha : opens a = 0) (hb : b.head? ≠ some '{') :
    paramsFrom false (a ++ b) = a ++ paramsFrom false b := by
  induction a with
  | nil => rfl
  | cons c a ih =>
    obtain ⟨hfirst, hlater⟩ := Nat.add_eq_zero_iff.mp ha
    have hcopy : ¬ StartsHole c (a ++ b) := by
      rintro ⟨hc, hhead, -⟩
      rw [head?_append_brace hb] at hhead
      simp [hc, hhead] at hfirst
    rw [List.cons_append, paramsFrom_copy hcopy, ih hlater, List.cons_append]

/-- So is one where no `${` is closed. -/
theorem paramsFrom_inert (h : ∀ a b, cs = a ++ '$' :: '{' :: b → '}' ∉ b) :
    paramsFrom false cs = cs := by
  induction cs with
  | nil => rfl
  | cons c cs ih =>
    obtain ⟨hfirst, hlater⟩ := forall_open_cons.mp h
    have hcopy : ¬ StartsHole c cs := by
      rintro ⟨hc, hhead, hmem⟩
      obtain ⟨b, rfl⟩ := head?_eq_brace.mp hhead
      exact hfirst b hc rfl (by simpa using hmem)
    rw [paramsFrom_copy hcopy, ih hlater]

theorem paramsFrom_ne_nil (h : cs ≠ []) : paramsFrom false cs ≠ [] := by
  intro hnil
  rcases head?_paramsFrom cs with hhead | ⟨-, hhead⟩
  · rw [hnil] at hhead
    exact h (List.head?_eq_none_iff.mp hhead.symm)
  · rw [hnil] at hhead
    cases hhead

/-- Behind its parameter a substitution leaves all that follows its first closing brace. -/
theorem paramsFrom_body_eq_nil_iff {e : List Char} :
    paramsFrom true (e ++ ['}']) = [] ↔ '}' ∉ e := by
  constructor
  · intro hnil hmem
    obtain ⟨e₀, e₁, rfl, -⟩ := List.eq_append_cons_of_mem hmem
    rw [List.append_assoc, List.cons_append, paramsFrom_append] at hnil
    exact paramsFrom_ne_nil (by simp) (List.append_eq_nil_iff.mp hnil).2
  · intro hnot
    induction e with
    | nil => rfl
    | cons c e ih =>
      rw [List.mem_cons, not_or] at hnot
      obtain ⟨hc, hnot⟩ := hnot
      rw [List.cons_append, paramsFrom_skip, bne_iff_ne.mpr (Ne.symm hc)]
      exact ih hnot

end Counting

/-! ## Templates, read flat -/

namespace Template

variable {t : Template}

/-- A shown template has the openings of its text parts. -/
theorem opens_shown (t : Template) : Extraction.opens t.shown = t.opens := by
  induction t with
  | text cs => rfl
  | hole lead body rest ih =>
    have hparam : Extraction.opens (":param".toList ++ rest.shown) = rest.opens := by
      simp [Extraction.opens, ih]
    rw [shown, opens_append (by simp), hparam]
    rfl

/-- In a template with a substitution, the `${` that are not closed are behind it. -/
theorem unclosed_hole {lead body : List Char} (hbody : IsSubstitution body) (rest : List Char) :
    unclosed (lead ++ (body ++ rest)) = unclosed rest := by
  obtain ⟨e, rfl⟩ := hbody
  have hsplit : lead ++ ('$' :: '{' :: (e ++ ['}']) ++ rest)
      = (lead ++ '$' :: '{' :: e) ++ '}' :: rest := by simp
  rw [hsplit, unclosed_append]

/-- Substitutions close, so the unclosed openings are those of the text parts. -/
theorem unclosed_source_le (h : ∀ body ∈ t.bodies, IsSubstitution body) :
    unclosed t.source ≤ t.opens := by
  induction t with
  | text cs => exact unclosed_le_opens cs
  | hole lead body rest ih =>
    obtain ⟨hbody, hrest⟩ := List.forall_mem_cons.mp h
    rw [source, unclosed_hole hbody]
    exact Nat.le_trans (ih hrest) (Nat.le_add_left _ _)

/-- **The counts agree if no other `${` is closed.** -/
theorem inert_iff (h : ∀ body ∈ t.bodies, IsSubstitution body) :
    t.Inert ↔ unclosed t.source = t.opens := by
  induction t with
  | text cs => exact unclosed_eq_opens_iff.symm
  | hole lead body rest ih =>
    obtain ⟨hbody, hrest⟩ := List.forall_mem_cons.mp h
    have hle := unclosed_source_le hrest
    rw [source, unclosed_hole hbody, Inert, ih hrest, ← opens_eq_zero_iff, opens]
    omega

/-- A template with nothing else to replace, read flat, is what it should be but for what
substitutions leave. -/
theorem paramsFrom_hole_source {lead e : List Char} {rest : Template}
    (hlead : ∀ a b, lead ≠ a ++ '$' :: '{' :: b) :
    paramsFrom false (lead ++ ('$' :: '{' :: (e ++ ['}']) ++ rest.source))
      = lead ++
        (":param".toList ++ (paramsFrom true (e ++ ['}']) ++ paramsFrom false rest.source)) := by
  rw [paramsFrom_text (opens_eq_zero_iff.mpr hlead) (by simp)]
  have hhole : StartsHole '$' ('{' :: (e ++ ['}']) ++ rest.source) := ⟨rfl, rfl, by simp⟩
  rw [List.cons_append, paramsFrom_hole hhole]
  have hskip : paramsFrom true ('{' :: (e ++ ['}']) ++ rest.source)
      = paramsFrom true (e ++ '}' :: rest.source) := by
    rw [List.cons_append, paramsFrom_skip, List.append_assoc]
    rfl
  rw [hskip, paramsFrom_append]

/-- **The flat reading is never shorter, and it is right if every substitution ends at its first
closing brace.** -/
theorem paramsFrom_source (h : ∀ body ∈ t.bodies, IsSubstitution body) (hinert : t.Inert) :
    t.shown.length ≤ (paramsFrom false t.source).length ∧
      (paramsFrom false t.source = t.shown ↔ ∀ body ∈ t.bodies, '}' ∉ body.dropLast) := by
  induction t with
  | text cs =>
    have hcopied : paramsFrom false cs = cs := paramsFrom_inert hinert
    exact ⟨by rw [source, hcopied]; exact Nat.le_refl _, by simp [source, shown, bodies, hcopied]⟩
  | hole lead body rest ih =>
    obtain ⟨⟨e, rfl⟩, hrest⟩ := List.forall_mem_cons.mp h
    obtain ⟨hlead, hinert⟩ := hinert
    obtain ⟨hle, hiff⟩ := ih hrest hinert
    have hbody : (('$' :: '{' :: e) ++ ['}']).dropLast = '$' :: '{' :: e := List.dropLast_concat
    rw [List.cons_append, List.cons_append] at hbody
    rw [source, paramsFrom_hole_source hlead, shown, bodies, List.forall_mem_cons,
      List.append_cancel_left_eq, List.append_cancel_left_eq, hbody]
    refine ⟨by simp only [List.length_append]; omega, ?_⟩
    constructor
    · intro heq
      -- what the substitution leaves would make it longer
      have hlength := congrArg List.length heq
      rw [List.length_append] at hlength
      have hnil : paramsFrom true (e ++ ['}']) = [] := List.length_eq_zero_iff.mp (by omega)
      rw [hnil, List.nil_append] at heq
      exact ⟨by simpa using paramsFrom_body_eq_nil_iff.mp hnil, hiff.mp heq⟩
    · rintro ⟨he, hclean⟩
      rw [paramsFrom_body_eq_nil_iff.mpr (by simpa using he), List.nil_append]
      exact hiff.mpr hclean

/-- **The flat reading is right if nothing else is taken for a substitution, and every substitution
ends at its first closing brace.** If it is right, it has as many `${` as the texts; these are then
all that were not closed. -/
theorem paramsFrom_eq_shown_iff (h : ∀ body ∈ t.bodies, IsSubstitution body) :
    paramsFrom false t.source = t.shown ↔ t.Inert ∧ ∀ body ∈ t.bodies, '}' ∉ body.dropLast := by
  constructor
  · intro heq
    have hcount := congrArg Extraction.opens heq
    rw [opens_paramsFrom (by simp), opens_shown, ← inert_iff h] at hcount
    exact ⟨hcount, (paramsFrom_source h hcount).2.mp heq⟩
  · rintro ⟨hinert, hclean⟩
    exact (paramsFrom_source h hinert).2.mpr hclean

/-- What a template starts with, other than a substitution, is shown. -/
theorem head?_shown {c : Char} (h : ∀ body ∈ t.bodies, IsSubstitution body) (hc : c ≠ '$')
    (hhead : t.source.head? = some c) : t.shown.head? = some c := by
  cases t with
  | text cs => exact hhead
  | hole lead body rest =>
    obtain ⟨⟨e, rfl⟩, -⟩ := List.forall_mem_cons.mp h
    cases lead with
    | nil => exact absurd (Option.some.inj hhead).symm hc
    | cons d lead => exact hhead

/-- What a template ends with, other than a substitution, is shown. -/
theorem getLast?_shown {c : Char} (h : ∀ body ∈ t.bodies, IsSubstitution body) (hc : c ≠ '}')
    (hlast : t.source.getLast? = some c) : t.shown.getLast? = some c := by
  induction t with
  | text cs => exact hlast
  | hole lead body rest ih =>
    obtain ⟨⟨e, rfl⟩, hrest⟩ := List.forall_mem_cons.mp h
    have hbody : (lead ++ '$' :: '{' :: (e ++ ['}'])).getLast? = some '}' := by
      simp [List.getLast?_append, List.getLast?_cons]
    rw [source, ← List.append_assoc, List.getLast?_append, hbody] at hlast
    rw [shown, ← List.append_assoc, List.getLast?_append]
    -- if nothing follows the hole, the template ends in its brace
    cases hrestlast : rest.source.getLast? with
    | none =>
      rw [hrestlast] at hlast
      exact absurd (Option.some.inj hlast).symm hc
    | some d =>
      rw [hrestlast] at hlast
      rw [ih hrest (hrestlast.trans hlast)]
      rfl

end Template

/-! ## Quotes -/

/-- The quotes that are cut off at the ends of a literal. -/
def isQuote (c : Char) : Bool := c == '"' || c == '\'' || c == '\x60'

theorem unquote_eq (s : String) : unquote s = .ofList (Text.trimBy isQuote s.toList) := rfl

/-- A text that has no quote at its ends. -/
def Unquoted (cs : List Char) : Prop :=
  ∀ c, cs.head? = some c ∨ cs.getLast? = some c → isQuote c = false

section Quotes

variable {cs : List Char} {c : Char}

theorem not_quote_of_head?_dropWhile
    (h : (cs.dropWhile isQuote).head? = some c) : isQuote c = false := by
  have hnot := List.head?_dropWhile_not isQuote cs
  rw [h] at hnot
  exact hnot

/-- Trimmed text has no quote at either end. -/
theorem unquoted_trimBy (cs : List Char) : Unquoted (Text.trimBy isQuote cs) := by
  rintro c (hhead | hlast)
  · -- the front is not touched by trimming the back
    have hsplit : Text.trimBy isQuote cs ++
        ((cs.dropWhile isQuote).reverse.takeWhile isQuote).reverse = cs.dropWhile isQuote := by
      rw [Text.trimBy, Text.dropWhileEnd, ← List.reverse_append, List.takeWhile_append_dropWhile,
        List.reverse_reverse]
    have hstart : (cs.dropWhile isQuote).head? = some c := by
      rw [← hsplit, List.head?_append, hhead]
      rfl
    exact not_quote_of_head?_dropWhile hstart
  · rw [Text.trimBy, Text.dropWhileEnd, List.getLast?_reverse] at hlast
    exact not_quote_of_head?_dropWhile hlast

theorem dropWhile_of_not_quote (h : ∀ c, cs.head? = some c → isQuote c = false) :
    cs.dropWhile isQuote = cs := by
  cases cs with
  | nil => rfl
  | cons c cs => rw [List.dropWhile_cons_of_neg (by simp [h c rfl])]

/-- Trimming takes the two quotes off a text that has none at its own ends. -/
theorem trimBy_quoted (h : Unquoted cs) :
    Text.trimBy isQuote ('\x60' :: (cs ++ ['\x60'])) = cs := by
  have hquote : isQuote '\x60' = true := by decide
  cases cs with
  | nil => decide
  | cons c cs =>
    rw [Text.trimBy, List.dropWhile_cons_of_pos hquote,
      dropWhile_of_not_quote fun d hd => h d (.inl (by simpa using hd)), Text.dropWhileEnd,
      List.reverse_append, List.reverse_singleton, List.singleton_append,
      List.dropWhile_cons_of_pos hquote,
      dropWhile_of_not_quote fun d hd => h d (.inr (by rwa [List.head?_reverse] at hd)),
      List.reverse_reverse]

/-- The flat reading ends with the last character, or with a parameter. -/
theorem getLast?_paramsFrom {skipping : Bool} (h : (paramsFrom skipping cs).getLast? = some c) :
    c = 'm' ∨ cs.getLast? = some c := by
  -- the last character is copied or is the end of the word written for a hole
  induction cs generalizing skipping with
  | nil => cases h
  | cons d cs ih =>
    have hlater : cs.getLast? = some c → (d :: cs).getLast? = some c := by
      intro hlast
      rw [List.getLast?_cons, hlast]
      rfl
    cases skipping with
    | true =>
      rw [paramsFrom_skip] at h
      exact (ih h).imp_right hlater
    | false =>
      by_cases hhole : StartsHole d cs
      · rw [paramsFrom_hole hhole, List.getLast?_append] at h
        cases hrest : (paramsFrom true cs).getLast? with
        | none =>
          rw [hrest] at h
          exact .inl (Option.some.inj h).symm
        | some x =>
          rw [hrest] at h
          exact (ih (hrest.trans h)).imp_right hlater
      · rw [paramsFrom_copy hhole] at h
        cases cs with
        | nil => exact .inr h
        | cons x cs =>
          have hne := paramsFrom_ne_nil (List.cons_ne_nil x cs)
          rw [List.getLast?_cons_of_ne_nil hne] at h
          exact (ih h).imp_right hlater

/-- A right reading keeps the ends of the text, so no quote can have been there. -/
theorem unquoted_of_paramsFrom_eq {t : Template} {trimmed : List Char}
    (hbodies : ∀ body ∈ t.bodies, IsSubstitution body) (htrimmed : Unquoted trimmed)
    (heq : paramsFrom false trimmed = t.shown) : Unquoted t.source := by
  intro c hc
  cases hquote : isQuote c with
  | false => rfl
  | true =>
    have hne : ∀ d : Char, isQuote d = false → c ≠ d := by
      rintro d hd rfl
      rw [hd] at hquote
      cases hquote
    -- a quote at an end of the source is shown, so the trimmed text would have it too
    rcases hc with hhead | hlast
    · have hshown := t.head?_shown hbodies (hne '$' (by decide)) hhead
      rw [← heq] at hshown
      rcases head?_paramsFrom trimmed with hsame | ⟨-, hparam⟩
      · exact hquote.symm.trans (htrimmed c (.inl (hsame.symm.trans hshown)))
      · exact absurd (Option.some.inj (hshown.symm.trans hparam)) (hne ':' (by decide))
    · have hshown := t.getLast?_shown hbodies (hne '}' (by decide)) hlast
      rw [← heq] at hshown
      rcases getLast?_paramsFrom hshown with hparam | hsame
      · exact absurd hparam (hne 'm' (by decide))
      · exact hquote.symm.trans (htrimmed c (.inr hsame))

end Quotes

/-- **A template literal reads as it should if the flat reading is right and no quotes stand at the
ends of its text.** -/
theorem literalText?_template_iff (n : Node) (inner : List Char)
    (hkind : n.kind = "template_string") (htext : n.text.toList = '\x60' :: (inner ++ ['\x60']))
    (hbodies : ∀ body ∈ (Template.of n).bodies, IsSubstitution body) :
    literalText? n = some (.ofList (Template.of n).shown) ↔
      Unquoted inner ∧ (Template.of n).Inert ∧
        ∀ body ∈ (Template.of n).bodies, '}' ∉ body.dropLast := by
  have hsource : (Template.of n).source = inner := by
    rw [Template.of, Template.source_read, htext]
    exact List.dropLast_concat
  have hread : literalText? n = some
      (.ofList (paramsFrom false (Text.trimBy isQuote n.text.toList))) := by
    simp [literalText?, hkind, withParams, unquote_eq]
  rw [hread, htext, Option.some.injEq, String.ofList_inj]
  constructor
  · -- first the ends: without them, trimming takes off only the two quotes
    intro heq
    have hunquoted := unquoted_of_paramsFrom_eq hbodies (unquoted_trimBy _) heq
    rw [hsource] at hunquoted
    rw [trimBy_quoted hunquoted, ← hsource, Template.paramsFrom_eq_shown_iff hbodies] at heq
    exact ⟨hunquoted, heq⟩
  · rintro ⟨hunquoted, hright⟩
    rw [trimBy_quoted hunquoted, ← hsource]
    exact (Template.paramsFrom_eq_shown_iff hbodies).mpr hright

/-! Two templates, one with names as substitutions and one with a call that takes an object. -/

def nameTemplate : Node :=
  .mk { kind := "template_string", text := "`/a/$\x7bid\x7d/$\x7b n \x7d`",
        start := 20, stop := 37 }
    [.mk { kind := "template_substitution", start := 24, stop := 29 } [],
      .mk { kind := "template_substitution", start := 30, stop := 36 } []]

def objectTemplate : Node :=
  .mk { kind := "template_string", text := "`/a/$\x7bf(\x7b n: 1 \x7d)\x7d`",
        start := 20, stop := 39 }
    [.mk { kind := "template_substitution", start := 24, stop := 38 } []]

/-- Names read as they should. -/
theorem literalText?_template_iff_names :
    (∀ body ∈ (Template.of nameTemplate).bodies, IsSubstitution body) ∧
      (Template.of nameTemplate).Inert ∧
      literalText? nameTemplate = some "/a/:param/:param" := by
  have hof : (Template.of nameTemplate).bodies = ["$\x7bid\x7d".toList, "$\x7b n \x7d".toList] := by
    rfl
  have hbodies : ∀ body ∈ (Template.of nameTemplate).bodies, IsSubstitution body := by
    intro body hbody
    rw [hof, List.mem_cons, List.mem_singleton] at hbody
    rcases hbody with rfl | rfl
    · exact ⟨"id".toList, rfl⟩
    · exact ⟨" n ".toList, rfl⟩
  have hinert : (Template.of nameTemplate).Inert := (Template.inert_iff hbodies).mpr (by decide)
  -- the text starts with a slash and ends with a brace
  have hunquoted : Unquoted "/a/$\x7bid\x7d/$\x7b n \x7d".toList := by
    rintro c (h | h)
    · obtain rfl : '/' = c := Option.some.inj h
      decide
    · obtain rfl : '}' = c := Option.some.inj h
      decide
  refine ⟨hbodies, hinert, ?_⟩
  exact (literalText?_template_iff nameTemplate "/a/$\x7bid\x7d/$\x7b n \x7d".toList rfl rfl
    hbodies).mpr ⟨hunquoted, hinert, by rw [hof]; decide⟩

/-- A substitution that holds an object does not: all behind the brace of the object is left. -/
theorem literalText?_object :
    objectTemplate.kind = "template_string" ∧
      (∀ body ∈ (Template.of objectTemplate).bodies, IsSubstitution body) ∧
      String.ofList (Template.of objectTemplate).shown = "/a/:param" ∧
      literalText? objectTemplate = some "/a/:param)\x7d" := by
  refine ⟨rfl, fun body hbody => ?_, by decide, by decide⟩
  obtain rfl : body = "$\x7bf(\x7b n: 1 \x7d)\x7d".toList := List.mem_singleton.mp hbody
  exact ⟨"f(\x7b n: 1 \x7d)".toList, rfl⟩

end CallAtlas.Extraction
