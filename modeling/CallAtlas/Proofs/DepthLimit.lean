import CallAtlas.Proofs.WalkVisits

/-!
# Proofs.DepthLimit — a walk that refuses no node does not depend on its limit

A walk has some levels of nesting, and a node that it comes to with none left is refused. Constructs
use up the levels in their own ways: a declarator, a wrapper around a function or an argument list
of a chain is passed without one. So the limit says little about the depth of the tree, and the flag
has to tell whether something was cut.

Scripts make this a statement about lists. `script_eq_of_whole` compares the scripts of one node for
two limits: as long as the shorter one has no refusal, both list the same events, with the same
numbers of declarations between them.

* `Whole` — events without a refusal.
* `script_eq_of_whole` — more levels add nothing to a whole script.
* `depthLimited_extract_iff` — the flag is set exactly by a refusal.
* `refused_iff` — a refusal is listed for each visit with no level left, and for no other node.
* `depthLimited_exact` — the flag, the limit and the refused visits.
-/

namespace CallAtlas.Extraction

open CallAtlas.Tree

/-! ## Scripts without a refusal -/

/-- No node is refused. -/
def Whole (events : List Event) : Prop := ∀ c, Event.refuse c ∉ events

/-- Two pieces of a script are whole together exactly when each is. -/
theorem whole_append {events events' : List Event} :
    Whole (events ++ events') ↔ Whole events ∧ Whole events' := by
  simp only [Whole, List.mem_append, not_or, forall_and]

theorem Whole.tail {e : Event} {events : List Event} (h : Whole (e :: events)) : Whole events :=
  fun c hc => h c (List.mem_cons_of_mem e hc)

/-- The second script has all that the first one has, wherever the first one is whole. -/
def Completes (script script' : Script) : Prop :=
  ∀ c scope n, Whole (script c scope n) → script' c scope n = script c scope n

/-- **Parts in sequence.** Induction on the parts: those that are equal make equally many
declarations, so the rest starts with the same number. -/
theorem inSequence_eq_of_whole {α : Type} {part part' : α → Nat → List Event}
    (hpart : ∀ x n, Whole (part x n) → part' x n = part x n) {xs : List α} {n : Nat}
    (h : Whole (inSequence (xs.map part) n)) :
    inSequence (xs.map part') n = inSequence (xs.map part) n := by
  induction xs generalizing n with
  | nil => rfl
  | cons x xs ih =>
    rw [List.map_cons, inSequence] at h
    obtain ⟨hfirst, hrest⟩ := whole_append.mp h
    rw [List.map_cons, List.map_cons, inSequence, inSequence, hpart x n hfirst, ih hrest]

section Scripts

variable {script script' : Script}

/-- A turn without a refusal is the same turn under a larger allowance. -/
theorem Completes.turn (hscript : Completes script script') (t : Turn) (n : Nat)
    (h : Whole (t.events script n)) : t.events script' n = t.events script n := by
  cases t with
  | visit c scope => exact hscript c scope n h
  | declare o =>
    show .declare o :: inSequence (o.inner.map fun c => script' c (o.innerScope n)) (n + 1)
      = .declare o :: inSequence (o.inner.map fun c => script c (o.innerScope n)) (n + 1)
    rw [inSequence_eq_of_whole (fun c m => hscript c (o.innerScope n) m) h.tail]

end Scripts

/-- **More levels add nothing to a whole script.** Induction on the levels of the shorter one. With
no level its script is a refusal; with one more, both nodes do the same themselves and have the same
turns. -/
theorem script_eq_of_whole (settings : ExtractionSettings) {levels levels' : Nat}
    (hle : levels ≤ levels') : Completes (script settings levels) (script settings levels') := by
  induction levels generalizing levels' with
  | zero => exact fun c scope n h => absurd List.mem_cons_self (h c)
  | succ levels ih =>
    intro c scope n h
    obtain ⟨more, rfl⟩ : ∃ more, levels' = more + 1 := ⟨levels' - 1, by omega⟩
    have hbelow : Completes (script settings levels) (script settings more) := ih (by omega)
    rw [script_succ] at h
    obtain ⟨-, hturns⟩ := whole_append.mp h
    rw [script_succ, script_succ]
    congr 1
    exact inSequence_eq_of_whole hbelow.turn hturns

/-- A file whose script has no refusal has the same script under every larger limit. -/
theorem fileScript_eq_of_whole (settings : ExtractionSettings) (root : Node) {limit limit' : Nat}
    (hle : limit ≤ limit') (h : Whole (fileScript settings limit root)) :
    fileScript settings limit' root = fileScript settings limit root :=
  inSequence_eq_of_whole (fun c n => script_eq_of_whole settings hle c {} n) h

/-! ## The flag -/

/-- Only a refusal sets the flag. -/
theorem depthLimited_run_eq (path : String) (e : Event) (st : State) (h : ∀ c, e ≠ .refuse c) :
    (e.run path st).depthLimited = st.depthLimited := by
  cases e with
  | mark scope change =>
    show (st.markErrors scope change).depthLimited = st.depthLimited
    unfold State.markErrors
    split <;> rfl
  | record caller target node via scope =>
    show (st.record caller target node via scope).depthLimited = st.depthLimited
    unfold State.record
    split <;> rfl
  | bring statement =>
    show (importRule statement st).depthLimited = st.depthLimited
    unfold importRule
    split <;> rfl
  | refuse node => exact absurd rfl (h node)
  | declare | exportNames | markup => rfl

/-- A script without a refusal leaves the depth flag alone. -/
theorem Whole.depthLimited_replay (path : String) {events : List Event} (h : Whole events)
    (st : State) : (replay path events st).depthLimited = st.depthLimited := by
  -- only the refusing event sets the flag, and the first event is none
  induction events generalizing st with
  | nil => rfl
  | cons e events ih =>
    have hfirst : ∀ c, e ≠ .refuse c := by
      rintro c rfl
      exact h c List.mem_cons_self
    show (replay path events (e.run path st)).depthLimited = st.depthLimited
    rw [ih h.tail, depthLimited_run_eq path e st hfirst]

/-- **The flag stays unset exactly if no node is refused.** -/
theorem depthLimited_extract_iff (ctx : Context) (root : Node) :
    (extract ctx root).depthLimited = false ↔
      Whole (fileScript ctx.settings ctx.maxDepth root) := by
  -- closing a file leaves the flag as it is
  have hsame : (extract ctx root).depthLimited = (walked ctx root).depthLimited := rfl
  rw [hsame, walked_eq_replay]
  constructor
  · intro h c hc
    rw [depthLimited_replay_of_mem ctx.path {} hc] at h
    cases h
  · intro h
    exact h.depthLimited_replay ctx.path {}

/-- **An unset flag means that a higher limit changes nothing.** -/
theorem extract_eq_of_unlimited (path : String) (settings : ExtractionSettings) (root : Node)
    {limit limit' : Nat} (hle : limit ≤ limit')
    (h : (extract ⟨path, settings, limit⟩ root).depthLimited = false) :
    extract ⟨path, settings, limit'⟩ root = extract ⟨path, settings, limit⟩ root := by
  have hwhole : Whole (fileScript settings limit root) :=
    (depthLimited_extract_iff ⟨path, settings, limit⟩ root).mp h
  rw [extract_eq, extract_eq, walked_eq_replay, walked_eq_replay]
  show (replay path (fileScript settings limit' root) {}).close
    = (replay path (fileScript settings limit root) {}).close
  rw [fileScript_eq_of_whole settings root hle hwhole]

/-! ## Refused visits -/

variable {settings : ExtractionSettings} {limit levels n : Nat} {root : Node} {c : Cursor}
  {scope : Scope}

/-- The walk comes to a node when no level is left. -/
def Refused (settings : ExtractionSettings) (limit : Nat) (root : Node) (c : Cursor) : Prop :=
  ∃ scope n, Visits settings limit root 0 c scope n

/-- The walk turns back from a node exactly when the script says so. -/
theorem refused_iff :
    Refused settings limit root c ↔ .refuse c ∈ fileScript settings limit root := by
  constructor
  · rintro ⟨scope, n, hvisit⟩
    exact hvisit.occurs.subset List.mem_cons_self
  · intro h
    obtain ⟨before, after, hsplit⟩ := List.append_of_mem h
    obtain ⟨levels, q, scope, n, hvisit, hdoes⟩ := done_of_split hsplit
    cases hdoes with
    | refuse => exact ⟨scope, _, hvisit⟩
    | own he =>
      -- what a node does itself is never a refusal
      cases ownOf_of_mem he

/-- Every visit leads down, so the levels that are used up are levels of the tree. Induction on the
way to the visit. -/
theorem Visits.limit_lt (h : Visits settings limit root levels c scope n) :
    limit < levels + c.depth := by
  induction h with
  | top hc =>
    have hdepth := Cursor.depth_of_mem_namedChildren hc.mem
    omega
  | turn _ hq ih =>
    have hbelow := (turnOf_of_mem hq.mem).below_of_visit.depth_lt
    omega
  | inside _ ho hq ih =>
    have hbelow := ((turnOf_of_mem ho.mem).below_of_inner hq.mem).depth_lt
    omega

theorem Refused.limit_lt (h : Refused settings limit root c) : limit < c.depth := by
  obtain ⟨scope, n, hvisit⟩ := h
  have hlt := hvisit.limit_lt
  omega

/-- **The depth flag is exact.** While it is unset, the limit has cut nothing: every higher limit
gives the same declarations, imports and calls, the same markup flag and an unset depth flag. It is
set exactly if the walk has refused a node, and then there are more nodes above that node than the
limit allows for. -/
theorem depthLimited_exact (path : String) (settings : ExtractionSettings) (root : Node)
    (limit : Nat) :
    ((extract ⟨path, settings, limit⟩ root).depthLimited = false →
      ∀ limit', limit ≤ limit' → extract ⟨path, settings, limit'⟩ root
        = extract ⟨path, settings, limit⟩ root) ∧
    ((extract ⟨path, settings, limit⟩ root).depthLimited = true ↔
      ∃ c, Refused settings limit root c) ∧
    ∀ c, Refused settings limit root c → limit < c.depth := by
  have hflag := depthLimited_extract_iff ⟨path, settings, limit⟩ root
  refine ⟨fun hunset limit' hle => extract_eq_of_unlimited path settings root hle hunset, ?_,
    fun c => Refused.limit_lt⟩
  rw [← Bool.not_eq_false, hflag]
  simp only [Whole, refused_iff, not_forall, not_not]

/-! A function that returns a call in parentheses. Seven levels are just enough for it. -/

def nestedTree : Node :=
  let name (text field : String) : Node := .mk { kind := "identifier", text, fields := [field] } []
  let call : Node :=
    .mk { kind := "call_expression" } [name "g" "function", .mk { kind := "arguments" } []]
  let value : Node :=
    .mk { kind := "return_statement" } [.mk { kind := "parenthesized_expression" } [call]]
  let body : Node := .mk { kind := "statement_block", fields := ["body"] } [value]
  let function : Node :=
    .mk { kind := "function_declaration", fields := ["declaration"] } [name "f" "name", body]
  .mk { kind := "program" } [.mk { kind := "export_statement" } [function]]

/-- With one level less a node is refused, though the call is still found; with two less it is
lost. -/
theorem depthLimited_exact_nested :
    (extract ⟨"a.ts", {}, 7⟩ nestedTree).depthLimited = false ∧
      extract ⟨"a.ts", {}, 400⟩ nestedTree = extract ⟨"a.ts", {}, 7⟩ nestedTree ∧
      (extract ⟨"a.ts", {}, 7⟩ nestedTree).calls.map (fun s => (s.callerId, s.target))
        = [("a.ts:f", .plain "g")] ∧
      (∃ c, Refused {} 6 nestedTree c) ∧ (extract ⟨"a.ts", {}, 6⟩ nestedTree).calls.length = 1 ∧
      (∃ c, Refused {} 5 nestedTree c) ∧ (extract ⟨"a.ts", {}, 5⟩ nestedTree).calls = [] := by
  have hunset : (extract ⟨"a.ts", {}, 7⟩ nestedTree).depthLimited = false := by decide
  obtain ⟨hsame, -, -⟩ := depthLimited_exact "a.ts" {} nestedTree 7
  obtain ⟨-, hset, -⟩ := depthLimited_exact "a.ts" {} nestedTree 6
  obtain ⟨-, hset', -⟩ := depthLimited_exact "a.ts" {} nestedTree 5
  exact ⟨hunset, hsame hunset 400 (by decide),
    by decide, hset.mp (by decide), by decide, hset'.mp (by decide), by decide⟩

end CallAtlas.Extraction
