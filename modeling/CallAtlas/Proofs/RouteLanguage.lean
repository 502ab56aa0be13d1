import CallAtlas.Route.Pattern
import Mathlib.Data.List.Basic

/-!
# Proofs.RouteLanguage — the requests that a route pattern serves

A pattern is compared with a request by walking along both, with a position in the request that
moves on with every segment. At a catch-all the walk asks how much of the request is left. Here the
same is said without a walk: which requests a pattern describes, by the lengths of both and by the
literals.

* `Describes` — a pattern and a request, segment by segment or with a catch-all at the end.
* `describes_nil`, `describes_literal_cons`, `describes_param_cons`, `describes_catchAll_cons` — the
  description, read from the front.
* `exists_servesFrom?` — a walk never goes past the end of the request, so it has an answer.
* `serves_iff_describes` — what is served is what is described.
-/

namespace CallAtlas.RoutePattern

variable {q segments : List RouteSegment} {request : List String} {text : String}
  {isOptional : Bool}

/-! ## Descriptions -/

/-- No segment is a catch-all. -/
def Fixed (q : List RouteSegment) : Prop := ∀ isOptional, RouteSegment.catchAll isOptional ∉ q

/-- Each literal is the segment of the request in the same place. -/
def Agrees (q : List RouteSegment) (request : List String) : Prop :=
  ∀ (i : Nat) (text : String), q[i]? = some (.literal text) → request[i]? = some text

/-- The requests that a list of segments stands for. -/
inductive Describes : List RouteSegment → List String → Prop where
  /-- Without a catch-all both are of one length, and the literals agree. -/
  | exactly {q : List RouteSegment} {request : List String} (hfixed : Fixed q)
      (hlength : q.length = request.length)
      (hagrees : Agrees q request) : Describes q request
  /-- A catch-all at the end takes what follows the segments before it. This may be nothing if it is
  optional. -/
  | onward {q : List RouteSegment} {request : List String} {isOptional : Bool} (hfixed : Fixed q)
      (hlength : q.length ≤ request.length) (hagrees : Agrees q (request.take q.length))
      (hrest : q.length < request.length ∨ isOptional = true) :
      Describes (q ++ [.catchAll isOptional]) request

theorem fixed_nil : Fixed [] := by simp [Fixed]

/-- A pattern is fixed when no segment is a catch-all. -/
theorem fixed_cons {s : RouteSegment} :
    Fixed (s :: q) ↔ (∀ isOptional, s ≠ .catchAll isOptional) ∧ Fixed q := by
  simp only [Fixed, List.mem_cons, not_or, forall_and, ne_eq, eq_comm]

theorem agrees_nil : Agrees [] request := by simp [Agrees]

/-- Agreement is checked segment by segment. -/
theorem agrees_cons {s : RouteSegment} {first : String} {rest : List String} :
    Agrees (s :: q) (first :: rest) ↔
      (∀ text, s = .literal text → first = text) ∧ Agrees q rest := by
  constructor
  · intro h
    exact ⟨fun text hs => by simpa using h 0 text (by simp [hs]), fun i text hi => by
      simpa using h (i + 1) text hi⟩
  · rintro ⟨hfirst, hrest⟩ i text hi
    cases i with
    | zero => simpa using hfirst text (by simpa using hi)
    | succ i => simpa using hrest i text (by simpa using hi)

/-! ## Descriptions, read from the front -/

/-- The empty pattern describes the empty request. -/
theorem describes_nil : Describes [] request ↔ request = [] := by
  constructor
  · intro h
    -- the index of the relation has to be a variable before it is inverted
    generalize hsegments : ([] : List RouteSegment) = segments at h
    cases h with
    | exactly hfixed hlength hagrees =>
      subst hsegments
      exact List.length_eq_zero_iff.mp hlength.symm
    | onward => simp at hsegments
  · rintro rfl
    exact .exactly fixed_nil rfl agrees_nil

/-- **One segment that is no catch-all** stands for one segment of the request. -/
theorem describes_cons {s : RouteSegment} (hs : ∀ isOptional, s ≠ .catchAll isOptional) :
    Describes (s :: q) request ↔
      ∃ first rest, request = first :: rest ∧ (∀ text, s = .literal text → first = text) ∧
        Describes q rest := by
  constructor
  · intro h
    generalize hsegments : s :: q = segments at h
    cases h with
    | exactly hfixed hlength hagrees =>
      subst hsegments
      obtain ⟨first, rest, rfl⟩ :=
        List.exists_cons_of_length_pos (l := request) (by simp [← hlength])
      obtain ⟨hfirst, hrest⟩ := agrees_cons.mp hagrees
      exact ⟨first, rest, rfl, hfirst,
        .exactly (fixed_cons.mp hfixed).2 (by simpa using hlength) hrest⟩
    | @onward front _ isOptional hfixed hlength hagrees hrest =>
      cases front with
      | nil =>
        -- the catch-all itself would be the first segment
        exact absurd (List.cons.inj hsegments).1 (hs isOptional)
      | cons t front =>
        obtain ⟨rfl, rfl⟩ := List.cons.inj hsegments
        obtain ⟨first, rest, rfl⟩ :=
          List.exists_cons_of_length_pos (l := request)
            (Nat.lt_of_lt_of_le (Nat.succ_pos _) hlength)
        rw [List.length_cons, List.take_succ_cons] at hagrees
        obtain ⟨hfirst, hagrees⟩ := agrees_cons.mp hagrees
        refine ⟨first, rest, rfl, hfirst, .onward (fixed_cons.mp hfixed).2 ?_ hagrees ?_⟩
        · simpa using hlength
        · simpa using hrest
  · rintro ⟨first, rest, rfl, hfirst, h⟩
    cases h with
    | exactly hfixed hlength hagrees =>
      exact .exactly (fixed_cons.mpr ⟨hs, hfixed⟩) (by simpa using hlength)
        (agrees_cons.mpr ⟨hfirst, hagrees⟩)
    | @onward front _ isOptional hfixed hlength hagrees hrest =>
      rw [← List.cons_append]
      refine .onward (fixed_cons.mpr ⟨hs, hfixed⟩) (by simpa using hlength) ?_
        (by simpa using hrest)
      rw [List.length_cons, List.take_succ_cons]
      exact agrees_cons.mpr ⟨hfirst, hagrees⟩

/-- A literal takes one part, which is its text. -/
theorem describes_literal_cons :
    Describes (.literal text :: q) request ↔ ∃ rest, request = text :: rest ∧ Describes q rest := by
  rw [describes_cons (by simp)]
  constructor
  · rintro ⟨first, rest, rfl, hfirst, h⟩
    exact ⟨rest, by rw [hfirst text rfl], h⟩
  · rintro ⟨rest, rfl, h⟩
    exact ⟨text, rest, rfl, by simp, h⟩

/-- A parameter takes any one part. -/
theorem describes_param_cons :
    Describes (.param :: q) request ↔ ∃ first rest, request = first :: rest ∧ Describes q rest := by
  rw [describes_cons (by simp)]
  simp

/-- **A catch-all counts only at the end.** -/
theorem describes_catchAll_cons :
    Describes (.catchAll isOptional :: q) request ↔
      q = [] ∧ (request ≠ [] ∨ isOptional = true) := by
  constructor
  · intro h
    generalize hsegments : RouteSegment.catchAll isOptional :: q = segments at h
    cases h with
    | exactly hfixed hlength hagrees =>
      subst hsegments
      exact absurd List.mem_cons_self (hfixed isOptional)
    | @onward front _ other hfixed hlength hagrees hrest =>
      -- a catch-all in front is the one at the end, so nothing follows it
      cases front with
      | nil =>
        obtain ⟨hother, rfl⟩ := List.cons.inj hsegments
        obtain rfl := RouteSegment.catchAll.inj hother
        exact ⟨rfl, hrest.imp_left List.ne_nil_of_length_pos⟩
      | cons t front =>
        obtain ⟨rfl, -⟩ := List.cons.inj hsegments
        exact absurd List.mem_cons_self (hfixed isOptional)
  · rintro ⟨rfl, hrest⟩
    exact .onward (q := []) fixed_nil (Nat.zero_le _) agrees_nil
      (hrest.imp_left List.length_pos_of_ne_nil)

/-- A described request is as long as its segments, if none is a catch-all. -/
theorem Describes.length_eq (h : Describes q request) (hfixed : Fixed q) :
    request.length = q.length := by
  cases h with
  | exactly _ hlength _ => exact hlength.symm
  | onward => exact absurd (List.mem_append_right _ List.mem_cons_self) (hfixed _)

/-! ## The walk -/

/-- **The walk has an answer.** It moves on only where the request has a segment, so its position
stays within the request, and at a catch-all nothing is taken away that is not there. Induction on
the segments. -/
theorem exists_servesFrom? (request : List String) (segments : List RouteSegment) {i : Nat}
    (hi : i ≤ request.length) : ∃ answer, servesFrom? request segments i = some answer := by
  induction segments generalizing i with
  | nil => exact ⟨_, rfl⟩
  | cons s rest ih =>
    -- the index stays within the request, so the subtraction at a catch-all is defined
    cases s with
    | literal text =>
      unfold servesFrom?
      split
      · next hget => exact ih (List.getElem?_eq_some_iff.mp hget).1
      · exact ⟨false, rfl⟩
    | param =>
      unfold servesFrom?
      split
      · next hlt => exact ih hlt
      · exact ⟨false, rfl⟩
    | catchAll isOptional =>
      unfold servesFrom? left?
      rw [if_pos hi]
      exact ⟨_, rfl⟩

/-- **A walk from a position** compares the segments with what follows. Induction on the segments:
each one that is no catch-all moves a segment of the request from what follows to what lies
behind. -/
theorem servesFrom?_eq_some_true_iff (behind ahead : List String) (segments : List RouteSegment) :
    servesFrom? (behind ++ ahead) segments behind.length = some true ↔
      Describes segments ahead := by
  induction segments generalizing behind ahead with
  | nil =>
    rw [describes_nil, servesFrom?]
    simp
  | cons s rest ih =>
    -- where the request goes on, the walk goes on behind its first segment
    have hnext : ∀ first more, servesFrom? (behind ++ first :: more) rest (behind.length + 1)
      = some true ↔
        Describes rest more := by
      intro first more
      have hih := ih (behind ++ [first]) more
      rwa [List.append_assoc, List.singleton_append, List.length_append,
        List.length_singleton] at hih
    cases s with
    | literal text =>
      rw [describes_literal_cons, servesFrom?]
      cases ahead with
      | nil => simp
      | cons first more =>
        have hget : (behind ++ first :: more)[behind.length]? = some first := by simp
        rw [hget]
        by_cases hfirst : first = text
        · rw [if_pos (by rw [hfirst]), hnext, hfirst]
          simp
        · rw [if_neg (by simpa using hfirst)]
          simp [hfirst]
    | param =>
      rw [describes_param_cons, servesFrom?]
      cases ahead with
      | nil => simp
      | cons first more =>
        rw [if_pos (by simp), hnext]
        simp
    | catchAll isOptional =>
      rw [describes_catchAll_cons, servesFrom?, left?, if_pos (by simp)]
      simp [List.length_pos_iff]

/-- **What is served is what is described.** -/
theorem serves_eq_true_iff (p : RoutePattern) (request : List String) :
    p.serves request = true ↔ Describes p.segments request := by
  obtain ⟨answer, hanswer⟩ := exists_servesFrom? request p.segments (Nat.zero_le _)
  have hwalk := servesFrom?_eq_some_true_iff [] request p.segments
  rw [List.nil_append, List.length_nil, hanswer, Option.some.injEq] at hwalk
  rw [serves, hanswer, Option.getD_some, hwalk]

/-- A catch-all before the end describes nothing. Induction on the segments before it. -/
theorem not_describes_of_early_catchAll (front : List RouteSegment) {rest : List RouteSegment}
    (hrest : rest ≠ []) : ¬ Describes (front ++ .catchAll isOptional :: rest) request := by
  -- the segments in front take their parts, then the catch-all has to be the last
  induction front generalizing request with
  | nil =>
    rw [List.nil_append, describes_catchAll_cons]
    exact fun h => hrest h.1
  | cons s front ih =>
    rw [List.cons_append]
    cases s with
    | literal text =>
      rw [describes_literal_cons]
      rintro ⟨more, -, h⟩
      exact ih h
    | param =>
      rw [describes_param_cons]
      rintro ⟨first, more, -, h⟩
      exact ih h
    | catchAll other =>
      rw [describes_catchAll_cons]
      exact fun h => absurd h.1 (by simp)

/-- **The language of a pattern.** A pattern serves a request exactly if it has no catch-all, is as
long as the request and agrees with it in all literals; or if it ends in its only catch-all, the
segments before that agree with as many segments of the request, and the request has more of them or
the catch-all is optional. A catch-all before the end serves nothing. The walk along the pattern
always has an answer: nowhere is a position behind the end of the request taken from its length. -/
theorem serves_iff_describes (p : RoutePattern) (request : List String) :
    (p.serves request = true ↔
      (Fixed p.segments ∧ p.segments.length = request.length ∧ Agrees p.segments request) ∨
        ∃ q isOptional, p.segments = q ++ [.catchAll isOptional] ∧ Fixed q ∧
          q.length ≤ request.length ∧
          Agrees q (request.take q.length) ∧ (q.length < request.length ∨ isOptional = true)) ∧
      (∀ front isOptional rest, p.segments = front ++ .catchAll isOptional :: rest → rest ≠ [] →
        p.serves request = false) ∧
      servesFrom? request p.segments 0 = some (p.serves request) := by
  refine ⟨?_, fun front isOptional rest hsegments hrest => ?_, ?_⟩
  · rw [serves_eq_true_iff]
    constructor
    · -- the two cases of the relation are the two cases of the statement
      generalize p.segments = segments
      rintro (⟨hfixed, hlength, hagrees⟩ | ⟨hfixed, hlength, hagrees, hrest⟩)
      · exact Or.inl ⟨hfixed, hlength, hagrees⟩
      · exact Or.inr ⟨_, _, rfl, hfixed, hlength, hagrees, hrest⟩
    · rintro (⟨hfixed, hlength, hagrees⟩ | ⟨q, isOptional, hsegments, hfixed, hlength,
        hagrees, hrest⟩)
      · exact .exactly hfixed hlength hagrees
      · rw [hsegments]
        exact .onward hfixed hlength hagrees hrest
  · rw [← Bool.not_eq_true, serves_eq_true_iff, hsegments]
    exact not_describes_of_early_catchAll front hrest
  · obtain ⟨answer, hanswer⟩ := exists_servesFrom? request p.segments (Nat.zero_le _)
    rw [serves, hanswer, Option.getD_some]

/-- An optional catch-all behind a parameter serves a request that ends with the parameter. -/
example :
    (⟨[.literal "api", .param, .catchAll true]⟩ : RoutePattern).serves ["api", "42"] = true := by
      decide

end CallAtlas.RoutePattern
