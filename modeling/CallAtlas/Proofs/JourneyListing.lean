import CallAtlas.Journey.Walk
import CallAtlas.Proofs.GraphInvariant

/-!
# Proofs.JourneyListing — a journey is the beginning of a recursive listing

The walk of a journey keeps what it has to do on a stack and the declarations that it is inside of
on a path, which a `finish` task takes off again. Here the journey is written down a second time,
without stack and without limit on the visits: `listing` recurses over what follows a declaration,
one level deeper each time, with the path as an argument.

* `pending` — what the tasks of a stack still have to list. Only here does a `finish` task have a
  meaning.
* `perform_spec` — doing one task lists one stop, and what is pending afterwards is what was pending
  before without it.
* `run_spec` — hence a run lists what is pending up to the visit limit. The rounds suffice, since
  every round makes a step or takes a `finish` off the stack, and every `finish` was put there by a
  step.
* `synthesize_listing` — the journey is the beginning of the listing, and the flag says whether a
  limit cut it.
-/

namespace CallAtlas.Journey

/-! ## The listing -/

/-- What a journey can meet. -/
inductive Item where
  /-- A declaration, with the call that leads to it. -/
  | inner (d : Declaration) (kind : StepKind) (line : Option Nat) (flags : CallFlags)
  /-- A call that leaves the analysed code. -/
  | outer (e : ExternalEdge)
deriving DecidableEq, Repr

def Item.line : Item → Nat
  | inner _ _ line _ => line.getD 0
  | outer e => e.line

/-- One line of the listing. -/
structure Stop where
  item : Item
  depth : Nat
  /-- The declaration is on the path that leads to it. -/
  looped : Bool
deriving DecidableEq, Repr

/-- What follows a declaration: the calls by line and id, then the external calls that are shown,
all by line. -/
def follow (g : CallGraph) (settings : JourneySettings) (d : Declaration) : List Item :=
  let inner :=
    (g.calleeEdges d.id).map fun (callee, e) => Item.inner callee (.ofEdge e) (some e.line) e.flags
  let outer := ((g.externalsFrom d.id).filter (shows settings)).map Item.outer
  Order.sortOn Order.count Item.line (inner ++ outer)

/-- The listing below an item, itself included. It stops at a declaration that is on the path, and
after `left` more levels. -/
def listing (g : CallGraph) (settings : JourneySettings) :
    Nat → Nat → List String → Item → List Stop
  | _, depth, _, .outer e => [⟨.outer e, depth, false⟩]
  | 0, depth, path, .inner d kind line flags =>
    [⟨.inner d kind line flags, depth, path.contains d.id⟩]
  | left + 1, depth, path, .inner d kind line flags =>
    ⟨.inner d kind line flags, depth, path.contains d.id⟩ ::
      if path.contains d.id then []
      else (follow g settings d).flatMap (listing g settings left (depth + 1) (d.id :: path))

/-- The listing from an entry, down to the depth limit. -/
def fullListing (g : CallGraph) (settings : JourneySettings) (entry : Declaration) : List Stop :=
  listing g settings settings.limits.maxDepth 0 [] (.inner entry .entry none {})

/-- The depth limit cuts off what follows this declaration. -/
def Stop.CutOff (g : CallGraph) (settings : JourneySettings) (s : Stop) : Prop :=
  s.looped = false ∧ settings.limits.maxDepth ≤ s.depth ∧
    ∃ d kind line flags, s.item = .inner d kind line flags ∧ follow g settings d ≠ []

/-- The step of a stop, given its position. -/
def Stop.step (g : CallGraph) (order : Nat) (s : Stop) : JourneyStep :=
  match s.item with
  | .inner d kind line flags =>
    { order, kind, line
      declarationId := d.id
      label := d.stepLabel (g.file? d.filePath)
      isExternalCall := false
      looped := s.looped
      depth := s.depth
      awaited := flags.awaited
      conditional := flags.conditional }
  | .outer e =>
    { order
      declarationId := e.stepId
      label := e.label
      isExternalCall := true
      looped := s.looped
      depth := s.depth
      kind := .external
      line := some e.line
      awaited := e.flags.awaited
      conditional := e.flags.conditional }

/-- The steps of some stops, numbered from a position on. -/
def numbered (g : CallGraph) (first : Nat) (stops : List Stop) : List JourneyStep :=
  (stops.zipIdx first).map fun (s, order) => s.step g order

/-! ### Equations of the listing -/

/-- An external edge is listed as one stop, whatever the depth. -/
theorem listing_outer (g : CallGraph) (settings : JourneySettings) (left depth : Nat)
    (path : List String) (e : ExternalEdge) :
    listing g settings left depth path (.outer e) = [⟨.outer e, depth, false⟩] := by
  cases left <;> rfl

/-- The levels that are left at some depth decide like the depth itself. -/
theorem listing_inner (g : CallGraph) (settings : JourneySettings) (depth : Nat)
    (path : List String)
    (d : Declaration) (kind : StepKind) (line : Option Nat) (flags : CallFlags) :
    listing g settings (settings.limits.maxDepth - depth) depth path (.inner d kind line flags)
      = ⟨.inner d kind line flags, depth, path.contains d.id⟩ ::
          if path.contains d.id ∨ settings.limits.maxDepth ≤ depth then []
          else (follow g settings d).flatMap
            (listing g settings (settings.limits.maxDepth - (depth + 1)) (depth +
              1) (d.id :: path)) := by
  by_cases hdeep : settings.limits.maxDepth ≤ depth
  · rw [Nat.sub_eq_zero_of_le hdeep, if_pos (Or.inr hdeep)]
    rfl
  · -- at least one level is left, so the second equation of `listing` applies
    rw [show settings.limits.maxDepth - depth
      = settings.limits.maxDepth - (depth + 1) + 1 from by omega, listing]
    simp only [hdeep, or_false]

/-! ### Stops of the listing -/

/-- **What a listing holds.** A stop is the item itself, looped only if the item is a declaration on
the path, or it is listed one level deeper, below something that follows the item. -/
theorem mem_listing_cases {g : CallGraph} {settings : JourneySettings} {left depth : Nat}
    {path : List String} {item : Item} {s : Stop}
    (h : s ∈ listing g settings left depth path item) :
    (s.item = item ∧ s.depth = depth ∧
      (s.looped = true → ∃ d kind line flags, item = .inner d kind line flags ∧ d.id ∈ path)) ∨
    ∃ below d kind line flags next, left = below + 1 ∧ item = .inner d kind line flags ∧
      next ∈ follow g settings d ∧
      s ∈ listing g settings below (depth + 1) (d.id :: path) next := by
  cases item with
  | outer e =>
    rw [listing_outer, List.mem_singleton] at h
    subst h
    exact Or.inl ⟨rfl, rfl, fun hlooped => by cases hlooped⟩
  | inner d kind line flags =>
    have hself : path.contains d.id = true →
        ∃ d' kind' line' flags', Item.inner d kind line flags = .inner d' kind' line' flags' ∧
          d'.id ∈ path :=
      fun hlooped => ⟨d, kind, line, flags, rfl, List.contains_iff_mem.mp hlooped⟩
    -- at the depth limit the item is the only stop
    cases left with
    | zero =>
      rw [listing, List.mem_singleton] at h
      subst h
      exact Or.inl ⟨rfl, rfl, hself⟩
    | succ below =>
      rw [listing] at h
      rcases List.mem_cons.mp h with rfl | h
      · exact Or.inl ⟨rfl, rfl, hself⟩
      · split at h
        · cases h
        · obtain ⟨next, hnext, hs⟩ := List.mem_flatMap.mp h
          exact Or.inr ⟨below, d, kind, line, flags, next, rfl, rfl, hnext, hs⟩

/-- The listing ends at the level where none are left. Induction on the levels. -/
theorem depth_le_of_mem_listing {g : CallGraph} {settings : JourneySettings} {left depth : Nat}
    {path : List String} {item : Item} {s : Stop}
    (h : s ∈ listing g settings left depth path item) :
    s.depth ≤ depth + left := by
  rcases mem_listing_cases h with ⟨-, hdepth, -⟩ | ⟨below, d, kind, line, flags, next,
    rfl, -, -, hs⟩
  · omega
  · have hbelow : s.depth ≤ depth + 1 + below := depth_le_of_mem_listing hs
    omega
  termination_by left

/-! ## The tasks of a walk -/

/-- The task that an item is at some depth. -/
def Item.task (depth : Nat) : Item → Task
  | inner d kind line flags => .visit d depth kind line flags
  | outer e => .leaveCode e depth

/-- A task is a `finish` or stands for an item. -/
theorem task_cases (task : Task) :
    (∃ id, task = .finish id) ∨ ∃ item depth, task = Item.task depth item := by
  cases task with
  | visit d depth kind line flags => exact Or.inr ⟨.inner d kind line flags, depth, rfl⟩
  | leaveCode e depth => exact Or.inr ⟨.outer e, depth, rfl⟩
  | finish id => exact Or.inl ⟨id, rfl⟩

/-- The tasks below a declaration are what follows it. -/
theorem children_eq_map (g : CallGraph) (settings : JourneySettings) (d : Declaration)
    (depth : Nat) : children g settings d depth = (follow g settings d).map (Item.task depth) := by
  have hline : ∀ item : Item, Task.line (item.task depth) = item.line := by
    intro item
    cases item <;> rfl
  have hmap (items : List Item) : (Order.sortOn Order.count Item.line items).map (Item.task depth)
      = Order.sortOn Order.count Task.line (items.map (Item.task depth)) := by
    apply List.map_mergeSort
    intro a _ b _
    rw [hline, hline]
  rw [follow, hmap, List.map_append, List.map_map, List.map_map]
  rfl

/-- What the tasks of a stack list, given the declarations on the path. -/
def pending (g : CallGraph) (settings : JourneySettings) : List String → List Task → List Stop
  | _, [] => []
  | path, .finish id :: todo => pending g settings (path.erase id) todo
  | path, .visit d depth kind line flags :: todo =>
    listing g settings (settings.limits.maxDepth - depth) depth path (.inner d kind line flags) ++
      pending g settings path todo
  | path, .leaveCode e depth :: todo =>
    listing g settings (settings.limits.maxDepth - depth) depth path (.outer e) ++
      pending g settings path todo

theorem pending_task (g : CallGraph) (settings : JourneySettings) (path : List String) (item : Item)
    (depth : Nat) (todo : List Task) :
    pending g settings path (item.task depth :: todo)
      = listing g settings (settings.limits.maxDepth - depth) depth path item ++
        pending g settings path todo := by
  cases item <;> rfl

/-- What tasks in front of the others list comes first. -/
theorem pending_tasks (g : CallGraph) (settings : JourneySettings) (path : List String)
    (items : List Item) (depth : Nat) (todo : List Task) :
    pending g settings path (items.map (Item.task depth) ++ todo)
      = items.flatMap (listing g settings (settings.limits.maxDepth - depth) depth path) ++
          pending g settings path todo := by
  induction items with
  | nil => rfl
  | cons item rest ih =>
    rw [List.map_cons, List.cons_append, pending_task, ih, List.flatMap_cons, List.append_assoc]

/-- Entering a declaration: what follows it is listed with the declaration on the path, and its
`finish` task restores the path for the tasks behind it. -/
theorem pending_enter (g : CallGraph) (settings : JourneySettings) (path : List String)
    (d : Declaration) (depth : Nat) (todo : List Task) :
    pending g settings (d.id :: path) (children g settings d (depth + 1) ++ .finish d.id :: todo)
      = (follow g settings d).flatMap
          (listing g settings (settings.limits.maxDepth - (depth + 1)) (depth +
            1) (d.id :: path)) ++
        pending g settings path todo := by
  rw [children_eq_map, pending_tasks, pending, List.erase_cons_head]

/-- The number of `finish` tasks on a stack. -/
def finishes (todo : List Task) : Nat := todo.countP fun | .finish _ => true | _ => false

@[simp] theorem finishes_finish (id : String) (todo : List Task) :
    finishes (.finish id :: todo) = finishes todo + 1 := by
  simp [finishes]

theorem finishes_task (item : Item) (depth : Nat) (todo : List Task) :
    finishes (item.task depth :: todo) = finishes todo := by
  cases item <;> simp [finishes, Item.task]

/-- Following items adds no finish. -/
theorem finishes_tasks (items : List Item) (depth : Nat) (todo : List Task) :
    finishes (items.map (Item.task depth) ++ todo) = finishes todo := by
  induction items with
  | nil => rfl
  | cons item rest ih => rw [List.map_cons, List.cons_append, finishes_task, ih]

/-! ## One task -/

namespace Progress

/-- A visit makes a step and ends there if the declaration is on the path or nothing follows it.
Otherwise the depth limit decides between raising the flag and entering the declaration. -/
theorem perform_visit (g : CallGraph) (settings : JourneySettings) (p : Progress) (d : Declaration)
    (depth : Nat) (kind : StepKind) (line : Option Nat) (flags : CallFlags) :
    p.perform g settings (.visit d depth kind line flags) =
      let done := p.record g (.visit d depth kind line flags)
      if p.path.contains d.id ∨ follow g settings d = [] then done
      else if settings.limits.maxDepth ≤ depth then { done with truncated := true }
      else
        { done with
          todo := children g settings d (depth + 1) ++ .finish d.id :: p.todo
          path := d.id :: p.path } := by
  by_cases hlooped : p.path.contains d.id = true
  · simp only [perform, hlooped, if_true, true_or]
  · -- a declaration without callees is recorded and not entered
    by_cases hempty : follow g settings d = []
    · simp only [perform, hlooped, children_eq_map, hempty, List.map_nil, or_true, if_true]
      rfl
    · obtain ⟨first, rest, hchildren⟩ : ∃ first rest, children g settings d (depth + 1)
          = first :: rest := by
        rw [children_eq_map]
        exact List.exists_cons_of_ne_nil (by simpa using hempty)
      simp only [perform, hlooped, hempty, hchildren]
      rfl

/-- What doing a task has done to a walk: it has listed `s`. -/
structure Performed (g : CallGraph) (settings : JourneySettings) (p after : Progress)
    (s : Stop) : Prop where
  steps : after.steps = p.steps ++ [s.step g (p.steps.length + 1)]
  finishes : finishes after.todo ≤ finishes p.todo + 1
  raised : after.truncated = true ↔ p.truncated = true ∨ s.CutOff g settings

/-- **Doing one task.** It lists one stop, the next one that is pending, and leaves pending what
comes after it. It puts at most one `finish` on the stack, and raises the flag at a declaration that
the depth limit cuts off. -/
theorem perform_spec (g : CallGraph) (settings : JourneySettings) (p : Progress) (item : Item)
    (depth : Nat) :
    ∃ s : Stop, Performed g settings p (p.perform g settings (item.task depth)) s ∧
      listing g settings (settings.limits.maxDepth - depth) depth p.path item ++
        pending g settings p.path p.todo
        = s :: pending g settings (p.perform g settings (item.task depth)).path
            (p.perform g settings (item.task depth)).todo := by
  cases item with
  | outer e =>
    refine ⟨⟨.outer e, depth, false⟩, ⟨rfl, Nat.le_succ _, Or.inl, fun h => h.resolve_right ?_⟩, ?_⟩
    · rintro ⟨-, -, d, kind, line, flags, hitem, -⟩
      cases hitem
    · rw [listing_outer]
      rfl
  | inner d kind line flags =>
    let s : Stop := ⟨.inner d kind line flags, depth, p.path.contains d.id⟩
    have hsteps : (p.record g (.visit d depth kind line flags)).steps
        = p.steps ++ [s.step g (p.steps.length + 1)] := rfl
    refine ⟨s, ?_⟩
    rw [listing_inner, List.cons_append, Item.task, perform_visit]
    by_cases hleaf : p.path.contains d.id = true ∨ follow g settings d = []
    · -- looped, or nothing follows: the listing has one stop whatever the depth
      rw [if_pos hleaf]
      refine ⟨⟨hsteps, Nat.le_succ _, Or.inl, fun h => h.resolve_right ?_⟩, ?_⟩
      · rintro ⟨hopen, -, d', _, _, _, hitem, hfollow⟩
        cases hitem
        rcases hleaf with hlooped | hempty
        · exact Bool.false_ne_true (hopen.symm.trans hlooped)
        · exact hfollow hempty
      · rcases hleaf with hlooped | hempty
        · rw [if_pos (Or.inl hlooped)]
          rfl
        · rw [hempty, List.flatMap_nil, ite_self]
          rfl
    · obtain ⟨hlooped, hfollow⟩ := not_or.mp hleaf
      rw [if_neg hleaf]
      by_cases hdeep : settings.limits.maxDepth ≤ depth
      · -- at the depth limit the walk only raises its flag
        rw [if_pos hdeep, if_pos (Or.inr hdeep)]
        refine ⟨⟨hsteps, Nat.le_succ _, iff_of_true rfl (Or.inr ⟨?_, hdeep, ?_⟩)⟩, rfl⟩
        · exact Bool.eq_false_iff.mpr hlooped
        · exact ⟨d, kind, line, flags, rfl, hfollow⟩
      · -- the walk goes in, and the new `finish` is what the bound on the rounds has to pay for
        rw [if_neg hdeep, if_neg (not_or.mpr ⟨hlooped, hdeep⟩)]
        have hone : finishes (children g settings d (depth + 1) ++ .finish d.id :: p.todo)
            = finishes p.todo + 1 := by
          rw [children_eq_map, finishes_tasks, finishes_finish]
        refine ⟨⟨hsteps, Nat.le_of_eq hone, Or.inl,
          fun h => h.resolve_right fun hcut => hdeep hcut.2.1⟩, ?_⟩
        rw [pending_enter]

/-! ## The run -/

/-- What a run owes: up to the visit limit it lists what is pending, and it raises the flag if that
is too much or if the depth limit cuts something off. -/
structure Ran (g : CallGraph) (settings : JourneySettings) (p after : Progress)
    (stops : List Stop) : Prop where
  steps : after.steps = p.steps ++
    numbered g (p.steps.length + 1) (stops.take (settings.limits.maxVisits - p.steps.length))
  raised : after.truncated = true ↔ p.truncated = true ∨
    settings.limits.maxVisits < p.steps.length + stops.length ∨ ∃ s ∈ stops, s.CutOff g settings

/-- A run that has nothing to list. -/
theorem Ran.nil (g : CallGraph) (settings : JourneySettings) {p : Progress}
    (hvisits : p.steps.length ≤ settings.limits.maxVisits) : Ran g settings p p [] where
  steps := by simp [numbered]
  raised := by
    simp only [List.length_nil, Nat.add_zero, List.not_mem_nil, false_and, exists_false, or_false]
    exact ⟨Or.inl, fun h => h.resolve_right (by omega)⟩

/-- The visit limit ends a run that still has something to list. -/
theorem Ran.stop (g : CallGraph) (settings : JourneySettings) {p : Progress} {s : Stop}
    {stops : List Stop} {todo : List Task} (hvisits : p.steps.length = settings.limits.maxVisits) :
    Ran g settings p { p with todo, truncated := true } (s :: stops) where
  steps := by simp [numbered, hvisits]
  raised := by
    refine iff_of_true rfl (Or.inr (Or.inl ?_))
    rw [List.length_cons]
    omega

/-- A run that does a task first lists its stop first. -/
theorem Ran.cons {g : CallGraph} {settings : JourneySettings} {p p' after : Progress} {s : Stop}
    {stops : List Stop} (hperformed : Performed g settings p p' s)
    (hran : Ran g settings p' after stops) (hvisits : p.steps.length < settings.limits.maxVisits) :
    Ran g settings p after (s :: stops) where
  steps := by
    have hlen : p'.steps.length = p.steps.length + 1 := by rw [hperformed.steps]; simp
    have hleft : settings.limits.maxVisits - p.steps.length
        = settings.limits.maxVisits - (p.steps.length + 1) + 1 := by omega
    rw [hran.steps, hlen, hperformed.steps, hleft, List.take_succ_cons, List.append_assoc]
    simp [numbered]
  raised := by
    have hlen : p'.steps.length = p.steps.length + 1 := by rw [hperformed.steps]; simp
    rw [hran.raised, hperformed.raised, hlen, List.length_cons, Nat.add_right_comm p.steps.length 1,
      Nat.add_assoc p.steps.length]
    constructor
    · -- the flag was up before, goes up at this stop, or in the rest of the run
      rintro ((hup | hcut) | hlong | ⟨s', hs', hcut⟩)
      · exact Or.inl hup
      · exact Or.inr (Or.inr ⟨s, by simp, hcut⟩)
      · exact Or.inr (Or.inl hlong)
      · exact Or.inr (Or.inr ⟨s', List.mem_cons_of_mem _ hs', hcut⟩)
    · rintro (hup | hlong | ⟨s', hs', hcut⟩)
      · exact Or.inl (Or.inl hup)
      · exact Or.inr (Or.inl hlong)
      · rcases List.mem_cons.mp hs' with rfl | hs'
        · exact Or.inl (Or.inr hcut)
        · exact Or.inr (Or.inr ⟨s', hs', hcut⟩)

/-- A round of the run takes the front task, unless the visit limit is reached. -/
theorem run_task (g : CallGraph) (settings : JourneySettings) (fuel : Nat) {p : Progress}
    {item : Item} {depth : Nat} {rest : List Task} (htodo : p.todo = item.task depth :: rest) :
    p.run g settings (fuel + 1) =
      if settings.limits.maxVisits ≤ p.steps.length then { p with todo := rest, truncated := true }
      else ({ p with todo := rest }.perform g settings (item.task depth)).run g settings fuel := by
  cases item <;> simp only [run, htodo, Item.task]

/-- **A run lists what is pending.** Induction on the rounds. Two of them are set aside for every
step that may still be made, one for the step and one for its `finish`, and one for each `finish`
that is on the stack. -/
theorem run_spec (g : CallGraph) (settings : JourneySettings) {fuel : Nat} {p : Progress}
    (hvisits : p.steps.length ≤ settings.limits.maxVisits)
    (hfuel : 2 * (settings.limits.maxVisits - p.steps.length) + finishes p.todo < fuel) :
    Ran g settings p (p.run g settings fuel) (pending g settings p.path p.todo) := by
  induction fuel generalizing p with
  | zero => omega
  | succ fuel ih =>
    cases htodo : p.todo with
    | nil =>
      have hrun : p.run g settings (fuel + 1) = p := by simp only [run, htodo]
      rw [hrun]
      exact .nil g settings hvisits
    | cons task rest =>
      rcases task_cases task with ⟨id, rfl⟩ | ⟨item, depth, rfl⟩
      · -- a `finish` makes no step and takes its declaration off the path
        have hrun : p.run g settings (fuel + 1)
            = ({ p with todo := rest, path := p.path.erase id } : Progress).run g
              settings fuel := by
          simp only [run, htodo]
        rw [htodo, finishes_finish] at hfuel
        have hfuel' : 2 * (settings.limits.maxVisits - p.steps.length) + finishes rest < fuel := by
          omega
        have hran := ih (p := { p with todo := rest, path := p.path.erase id }) hvisits hfuel'
        rw [hrun]
        exact ⟨hran.steps, hran.raised⟩
      · rw [htodo, finishes_task] at hfuel
        obtain ⟨s, hperformed, hpending⟩ :=
          perform_spec g settings { p with todo := rest } item depth
        rw [run_task g settings fuel htodo, pending_task, hpending]
        by_cases hfull : settings.limits.maxVisits ≤ p.steps.length
        · rw [if_pos hfull]
          exact .stop g settings (Nat.le_antisymm hvisits hfull)
        · rw [if_neg hfull]
          have hlen : ({ p with todo := rest }.perform g settings (item.task depth)).steps.length
              = p.steps.length + 1 := by
            rw [hperformed.steps]
            simp
          have hfinishes : finishes ({ p with todo := rest }.perform g settings
            (item.task depth)).todo
              ≤ finishes rest + 1 := hperformed.finishes
          have hran :=
            ih (p := { p with todo := rest }.perform g settings (item.task depth))
              (by omega) (by omega)
          have hcons := Ran.cons hperformed hran (Nat.lt_of_not_le hfull)
          exact ⟨hcons.steps, hcons.raised⟩

end Progress

/-! ## The result -/

/-- The run from one entry: it makes the first stops of the listing, and the flag tells what was
left out. -/
theorem start_ran (g : CallGraph) (settings : JourneySettings) (entry : Declaration) :
    (start g settings entry).steps
        = numbered g 1 ((fullListing g settings entry).take settings.limits.maxVisits) ∧
      ((start g settings entry).truncated = true ↔
        settings.limits.maxVisits < (fullListing g settings entry).length ∨
          ∃ s ∈ fullListing g settings entry, s.CutOff g settings) := by
  let begun : Progress := { todo := [.visit entry 0 .entry none {}] }
  have hran : Progress.Ran g settings begun
      (begun.run g settings (2 * settings.limits.maxVisits + 2))
      (pending g settings [] begun.todo) :=
    Progress.run_spec g settings (Nat.zero_le _) (by simp [begun, finishes])
  have hpending : pending g settings [] begun.todo = fullListing g settings entry :=
    List.append_nil _
  rw [hpending] at hran
  exact ⟨hran.steps, hran.raised.trans (by simp [begun])⟩

/-- **A journey is the beginning of the listing.** For every graph, every entry that a query means
and all settings: the steps are the first stops of the full listing, as many as the visit limit
allows, numbered from one; and the flag is set exactly if the listing is longer than that, or a
declaration at the depth limit that is not looped is followed by something. -/
theorem synthesize_listing (g : CallGraph) (settings : JourneySettings) (query : String)
    (entry : Declaration) (hfound : g.resolveTarget query = .ok entry) :
    ∃ j, synthesize g settings query = .ok j ∧
      j.steps = numbered g 1 ((fullListing g settings entry).take settings.limits.maxVisits) ∧
      (j.truncated = true ↔ settings.limits.maxVisits < (fullListing g settings entry).length ∨
        ∃ s ∈ fullListing g settings entry, s.looped = false ∧ s.depth = settings.limits.maxDepth ∧
          ∃ d kind line flags, s.item = .inner d kind line flags ∧ follow g settings d ≠ []) := by
  obtain ⟨hsteps, hraised⟩ := start_ran g settings entry
  refine ⟨start g settings entry, by rw [synthesize, hfound]; rfl, hsteps, hraised.trans ?_⟩
  refine or_congr Iff.rfl (exists_congr fun s => and_congr_right fun hs =>
    and_congr_right fun _ => ?_)
  -- no stop lies below the depth limit
  have hdepth : s.depth ≤ 0 + settings.limits.maxDepth := depth_le_of_mem_listing hs
  exact and_congr ⟨fun hle => by omega, fun heq => Nat.le_of_eq heq.symm⟩ Iff.rfl

/-- The listing of the small graph from `submit`, down to three levels. -/
def sampleListing : List Stop :=
  [⟨.inner (CallGraph.sampleNode "submit") .entry none {}, 0, false⟩,
    ⟨.inner (CallGraph.sampleNode "retry") .call (some 4) {}, 1, false⟩,
    ⟨.inner (CallGraph.sampleNode "save") .call (some 3) {}, 2, false⟩,
    ⟨.inner (CallGraph.sampleNode "save") .call (some 2) {}, 3, true⟩,
    ⟨.inner (CallGraph.sampleNode "submit") .call (some 5) {}, 2, true⟩,
    ⟨.outer ⟨"submit", .database, "db.insert(drafts)", .database "db" .insert (some "drafts"), 4,
      {}, none⟩, 1, false⟩]

/-- The four steps that the visit limit leaves of a listing of six. -/
theorem synthesize_sample :
    (({} : CallGraph).applyAll CallGraph.sample).resolveTarget "submit"
      = .ok (CallGraph.sampleNode "submit") ∧
      fullListing (({} : CallGraph).applyAll CallGraph.sample) { limits := ⟨3, 4⟩ }
        (CallGraph.sampleNode "submit")
        = sampleListing ∧
      ∃ j, synthesize (({} : CallGraph).applyAll CallGraph.sample) { limits := ⟨3, 4⟩ } "submit"
        = .ok j ∧
        j.steps = numbered (({} : CallGraph).applyAll CallGraph.sample) 1 (sampleListing.take 4) ∧
        j.truncated = true := by
  have hfound : (({} : CallGraph).applyAll CallGraph.sample).resolveTarget "submit"
      = .ok (CallGraph.sampleNode "submit") := by rfl
  have hlisting : fullListing (({} : CallGraph).applyAll CallGraph.sample) { limits := ⟨3, 4⟩ }
      (CallGraph.sampleNode "submit") = sampleListing := by cbv
  obtain ⟨j, hj, hsteps, htruncated⟩ := synthesize_listing _ { limits := ⟨3, 4⟩ } "submit" _ hfound
  rw [hlisting] at hsteps htruncated
  exact ⟨hfound, hlisting, j, hj, hsteps, htruncated.mpr (Or.inl (by decide))⟩

end CallAtlas.Journey
