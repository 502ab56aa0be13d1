import Mathlib.Data.List.Nodup
import Mathlib.Data.String.Basic
import CallAtlas.Order
import CallAtlas.Text.Basic

/-!
# Proofs.Sorting — the orders of the library are orders, and its sorts sort

`Order.Total` bundles what a comparison must satisfy for a merge sort to sort by it, and
`Order.Linear` what it must satisfy beside that for the result not to depend on the order before.
The comparisons of texts and counts satisfy both, and so does the lexicographic combination of two
that do. `Order.pairwise_sortOn`, `Order.filter_sortOn`, `Order.sortOn_eq_of_perm` and
`Text.pairwise_sortUnique` are then all that other modules need to know about sorting, beside what
the sorts keep.
-/

namespace CallAtlas

namespace Order

variable {α κ : Type}

/-! ## Comparisons -/

/-- A comparison that is transitive and compares any two keys. -/
structure Total (le : κ → κ → Bool) : Prop where
  trans : ∀ a b c, le a b = true → le b c = true → le a c = true
  total : ∀ a b, le a b = true ∨ le b a = true

theorem text_total : Total text where
  trans a b c := by
    simp only [text, decide_eq_true_eq]
    exact le_trans
  total a b := by
    simp only [text, decide_eq_true_eq]
    exact le_total a b

theorem count_total : Total count where
  trans a b c := by
    simp only [count, decide_eq_true_eq]
    exact Nat.le_trans
  total a b := by
    simp only [count, decide_eq_true_eq]
    exact Nat.le_total a b

/-- The lexicographic comparison asks the second order only where the first leaves it open. -/
theorem lex_eq_true {α β : Type} {first : α → α → Bool} {second : β → β → Bool} {a b : α × β} :
    lex first second a b = true ↔
      first a.1 b.1 = true ∧ (first b.1 a.1 = true → second a.2 b.2 = true) := by
  unfold lex
  cases first a.1 b.1 <;> cases first b.1 a.1 <;> simp

/-- The lexicographic combination of total orders is total. -/
theorem lex_total {α β : Type} {first : α → α → Bool} {second : β → β → Bool} (hfirst : Total first)
    (hsecond : Total second) : Total (lex first second) where
  trans a b c := by
    simp only [lex_eq_true]
    rintro ⟨hab, hab'⟩ ⟨hbc, hbc'⟩
    refine ⟨hfirst.trans _ _ _ hab hbc, fun hca => ?_⟩
    -- equal first components throughout, so the second ones decide twice
    have hba := hfirst.trans _ _ _ hbc hca
    have hcb := hfirst.trans _ _ _ hca hab
    exact hsecond.trans _ _ _ (hab' hba) (hbc' hcb)
  total a b := by
    simp only [lex_eq_true]
    by_cases hab : first a.1 b.1 = true
    · by_cases hba : first b.1 a.1 = true
      · rcases hsecond.total a.2 b.2 with h | h
        · exact Or.inl ⟨hab, fun _ => h⟩
        · exact Or.inr ⟨hba, fun _ => h⟩
      · exact Or.inl ⟨hab, fun h => absurd h hba⟩
    · have hba := (hfirst.total a.1 b.1).resolve_left hab
      exact Or.inr ⟨hba, fun h => absurd h hab⟩

/-- A comparison by which no two keys are equal but the same. -/
structure Linear (le : κ → κ → Bool) : Prop extends Total le where
  antisymm : ∀ a b, le a b = true → le b a = true → a = b

theorem text_linear : Linear text where
  toTotal := text_total
  antisymm a b := by
    simp only [text, decide_eq_true_eq]
    exact le_antisymm

theorem count_linear : Linear count where
  toTotal := count_total
  antisymm a b := by
    simp only [count, decide_eq_true_eq]
    exact Nat.le_antisymm

/-- The lexicographic combination of linear orders is linear. -/
theorem lex_linear {α β : Type} {first : α → α → Bool} {second : β → β → Bool}
    (hfirst : Linear first) (hsecond : Linear second) : Linear (lex first second) where
  toTotal := lex_total hfirst.toTotal hsecond.toTotal
  antisymm a b := by
    simp only [lex_eq_true]
    rintro ⟨hab, hab'⟩ ⟨hba, hba'⟩
    exact Prod.ext (hfirst.antisymm _ _ hab hba) (hsecond.antisymm _ _ (hab' hba) (hba' hab))

/-- A count decides, and between equal counts a text does. Said the other way round: the second
entry comes first. -/
theorem not_lex_count_text (m n : Nat) (s t : String) :
    (decide (n < m) || (decide (n = m) && decide (t < s))) = !lex count text (m, s) (n, t) := by
  rw [Bool.eq_iff_iff, Bool.not_eq_true', ← Bool.not_eq_true, lex_eq_true]
  simp only [count, text, Bool.or_eq_true, Bool.and_eq_true, decide_eq_true_eq, ← not_le]
  constructor
  · rintro (hlt | ⟨heq, hlt⟩) ⟨hle, hrest⟩
    · exact hlt hle
    · exact hlt (hrest heq.le)
  · intro h
    by_cases hle : m ≤ n
    · right
      by_contra hnot
      refine h ⟨hle, fun hge => ?_⟩
      by_contra htext
      exact hnot ⟨Nat.le_antisymm hge hle, htext⟩
    · exact Or.inl hle

/-- **A fold that keeps the smaller of two entries ends at a smallest one.** -/
theorem foldl_least {le : κ → κ → Bool} (h : Total le) (key : α → κ) {choose : α → α → α}
    (hchoose : ∀ a b, choose a b = if le (key a) (key b) then a else b) (first : α)
    (rest : List α) : ∀ x ∈ first :: rest, le (key (rest.foldl choose first)) (key x) = true := by
  have hrefl : ∀ a, le (key a) (key a) = true := fun a => or_self_iff.mp (h.total (key a) (key a))
  induction rest generalizing first with
  | nil =>
    intro x hx
    obtain rfl := List.mem_singleton.mp hx
    exact hrefl x
  | cons y rest ih =>
    -- the choice is below both of the elements it chose from
    have hmin : le (key (choose first y)) (key first) = true ∧
        le (key (choose first y)) (key y) = true := by
      rw [hchoose]
      split
      · next hle => exact ⟨hrefl first, hle⟩
      · next hle => exact ⟨(h.total _ _).resolve_left hle, hrefl y⟩
    have hhead := ih (choose first y) _ List.mem_cons_self
    intro x hx
    rw [List.foldl_cons]
    rcases List.mem_cons.mp hx with rfl | hx
    · exact h.trans _ _ _ hhead hmin.1
    · rcases List.mem_cons.mp hx with rfl | hx
      · exact h.trans _ _ _ hhead hmin.2
      · exact ih _ x (List.mem_cons_of_mem _ hx)

/-! ## Sorting by a key -/

/-- Sorting permutes. -/
theorem perm_sortOn (le : κ → κ → Bool) (key : α → κ) (xs : List α) : (sortOn le key xs).Perm xs :=
  List.mergeSort_perm xs _

theorem mem_sortOn {le : κ → κ → Bool} {key : α → κ} {xs : List α} {x : α} :
    x ∈ sortOn le key xs ↔ x ∈ xs :=
  (perm_sortOn le key xs).mem_iff

/-- Sorting sorts, by a total order on the keys. -/
theorem pairwise_sortOn {le : κ → κ → Bool} (h : Total le) (key : α → κ) (xs : List α) :
    (sortOn le key xs).Pairwise fun a b => le (key a) (key b) = true := by
  refine List.pairwise_mergeSort ?_ ?_ xs
  · exact fun a b c => h.trans (key a) (key b) (key c)
  · intro a b
    rw [Bool.or_eq_true]
    exact h.total (key a) (key b)

/-- **Sorting is stable.** Entries that compare as equal, each with each, stay in their order. -/
theorem filter_sortOn {le : κ → κ → Bool} (h : Total le) (key : α → κ) (xs : List α) {p : α → Bool}
    (hp : ∀ a b, p a = true → p b = true → le (key a) (key b) = true) :
    (sortOn le key xs).filter p = xs.filter p := by
  have hequal : (xs.filter p).Pairwise fun a b => le (key a) (key b) = true :=
    List.pairwise_of_forall_mem_list fun a ha b hb =>
      hp a b (List.mem_filter.mp ha).2 (List.mem_filter.mp hb).2
  have hsub : (xs.filter p).Sublist (sortOn le key xs) := by
    refine List.sublist_mergeSort ?_ ?_ hequal List.filter_sublist
    · exact fun a b c => h.trans (key a) (key b) (key c)
    · exact fun a b => by rw [Bool.or_eq_true]; exact h.total (key a) (key b)
  have hfilter := hsub.filter p
  rw [List.filter_filter,
    show (fun a => p a && p a) = p from funext fun a => Bool.and_self (p a)] at hfilter
  exact (hfilter.eq_of_length ((perm_sortOn le key xs).filter p).length_eq.symm).symm

/-- **Sorting by distinct keys forgets the order.** What comes out depends only on what is
sorted. -/
theorem sortOn_eq_of_perm {le : κ → κ → Bool} (h : Linear le) (key : α → κ) {xs ys : List α}
    (hperm : xs.Perm ys) (hkeys : (xs.map key).Nodup) : sortOn le key xs = sortOn le key ys := by
  have hsame : (sortOn le key xs).Perm (sortOn le key ys) :=
    (perm_sortOn le key xs).trans (hperm.trans (perm_sortOn le key ys).symm)
  refine hsame.eq_of_pairwise ?_ (pairwise_sortOn h.toTotal key xs)
    (pairwise_sortOn h.toTotal key ys)
  intro a b ha hb hab hba
  have ha' : a ∈ xs := mem_sortOn.mp ha
  have hb' : b ∈ xs := hperm.mem_iff.mpr (mem_sortOn.mp hb)
  exact List.inj_on_of_nodup_map hkeys ha' hb' (h.antisymm _ _ hab hba)

end Order

/-! ## Sets of texts -/

namespace Text

theorem mem_sort {xs : List String} {x : String} : x ∈ sort xs ↔ x ∈ xs := List.mem_mergeSort

theorem pairwise_sort (xs : List String) : (sort xs).Pairwise (· ≤ ·) :=
  (Order.pairwise_sortOn Order.text_total id xs).imp fun h => by simpa [Order.text] using h

/-- Sorting without repetitions keeps every element. -/
theorem mem_sortUnique {xs : List String} {x : String} : x ∈ sortUnique xs ↔ x ∈ xs := by
  rw [sortUnique, List.mem_eraseDups, mem_sort]

/-- In a sorted list the repetitions of a text come right after it, so that without them the list
increases. -/
theorem pairwise_eraseDups {xs : List String} (h : xs.Pairwise (· ≤ ·)) :
    xs.eraseDups.Pairwise (· < ·) := by
  match xs with
  | [] => simp
  | x :: rest =>
    obtain ⟨hhead, htail⟩ := List.pairwise_cons.mp h
    rw [List.eraseDups_cons, List.pairwise_cons]
    refine ⟨?_, pairwise_eraseDups (htail.filter _)⟩
    intro y hy
    obtain ⟨hy, hne⟩ := List.mem_filter.mp (List.mem_eraseDups.mp hy)
    exact lt_of_le_of_ne (hhead y hy) fun heq => by simp [heq] at hne
  termination_by xs.length
  decreasing_by
    have := List.length_filter_le (fun b => !b == x) rest
    simp only [List.length_cons]
    omega

/-- **A sorted list without repetition.** -/
theorem pairwise_sortUnique (xs : List String) : (sortUnique xs).Pairwise (· < ·) :=
  pairwise_eraseDups (pairwise_sort xs)

end Text

end CallAtlas
