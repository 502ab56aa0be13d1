import CallAtlas.Proofs.ExtractionNesting

/-!
# Proofs.ExtractionLayout — how the declarations of a file lie in it

A declaration names the one that it is nested in and the class that it is a member of. Both are
there before it, the first one has its place around it, the second one is a class. What is nested in
something is not exported.

A new declaration gets both names from a scope, and it is made at a node that the scope fits. So one
move keeps the layout by what `Fits` says. Closing a file exports more declarations, none of them
nested.

* `Settles` — the loop that numbers ids comes to its end.
* `Placed` — where a declaration belongs, said of those before it; `Laid` — all declarations are
  placed.
* `Located` — a declaration knows the path of its file, and its id starts with it.
* `extract_layout` — the layout of everything that is extracted.
-/

namespace CallAtlas

namespace Extraction

open CallAtlas.Tree

/-! ## Numbers -/

/-- The loop that tries `base#n`, `base#(n+1)`, … until an id is free. It has ended, with this
id. -/
inductive Settles (taken : List String) (base : String) : Nat → String → Prop where
  | free {n : Nat} (hfree : base ++ "#" ++ Text.decimal n ∉ taken) :
      Settles taken base n (base ++ "#" ++ Text.decimal n)
  | next {n : Nat} {id : String} (htaken : base ++ "#" ++ Text.decimal n ∈ taken)
      (rest : Settles taken base (n + 1) id) : Settles taken base n id

/-- A bounded search that finds a free id does what the loop does. -/
theorem settles_of_not_mem {taken : List String} {base : String} {fuel n : Nat}
    (h : numberedId taken base fuel n ∉ taken) :
    Settles taken base n (numberedId taken base fuel n) := by
  induction fuel generalizing n with
  | zero => exact .free h
  | succ fuel ih =>
    simp only [numberedId] at h ⊢
    split at h
    · next htaken =>
      rw [if_pos htaken]
      exact .next (by simpa using htaken) (ih h)
    · next hfree =>
      rw [if_neg hfree]
      exact .free h

/-! ## Places -/

variable {root : Cursor} {before before' ds ds' : List Declaration} {d d' : Declaration}

/-- The first declaration is made at a node of the tree, the second one at that node or below. -/
def Around (root : Cursor) (outer inner : Declaration) : Prop :=
  ∃ place below : Cursor, place.Within root ∧ below.Within place ∧ outer.span = place.span ∧
    inner.span = below.span

/-- A declaration around another one covers its lines. -/
theorem Around.lines {outer inner : Declaration} (h : Around root outer inner)
    (hroot : root.node.linesNested = true) :
    outer.span.startLine ≤ inner.span.startLine ∧ inner.span.endLine ≤ outer.span.endLine := by
  obtain ⟨place, below, hplace, hbelow, houter, hinner⟩ := h
  obtain ⟨hstart, hend, -⟩ := hbelow.lines (hplace.lines hroot).2.2
  rw [houter, hinner]
  exact ⟨hstart, hend⟩

/-- What a declaration is nested in and what it is a member of are among those before it. -/
structure Placed (root : Cursor) (before : List Declaration) (d : Declaration) : Prop where
  enclosing : ∀ id, d.enclosing = some id → ∃ e ∈ before, e.id = id ∧ Around root e d
  container : ∀ c, d.container = some c → ∃ e ∈ before, e.name = c ∧ e.kind = .classDecl

/-- A declaration is among those with the same outlines, but for what may have changed. -/
theorem exists_mem_of_outlines (h : before'.map outline = before.map outline) (hd : d ∈ before) :
    ∃ d' ∈ before', outline d' = outline d := by
  have hmem : outline d ∈ before'.map outline := by
    rw [h]
    exact List.mem_map_of_mem hd
  exact List.mem_map.mp hmem

/-- What may change after a declaration is made does not matter for its place. -/
theorem Placed.of_outlines (h : Placed root before d)
    (hbefore : before'.map outline = before.map outline) (hd : outline d' = outline d) :
    Placed root before' d' where
  enclosing id hid := by
    have henclosing : d'.enclosing = d.enclosing := by simpa using congrArg Declaration.enclosing hd
    obtain ⟨e, he, heid, place, below, hplace, hbelow, houter, hinner⟩ :=
      h.enclosing id (henclosing ▸ hid)
    -- the enclosing declaration has a counterpart with the same id and lines
    obtain ⟨e', he', hsame⟩ := exists_mem_of_outlines hbefore he
    have hid' : e'.id = e.id := by simpa using congrArg Declaration.id hsame
    have houter' : e'.span = e.span := by simpa using congrArg Declaration.span hsame
    have hinner' : d'.span = d.span := by simpa using congrArg Declaration.span hd
    exact ⟨e', he', hid'.trans heid, place, below, hplace, hbelow, houter'.trans houter,
      hinner'.trans hinner⟩
  container c hc := by
    have hcontainer : d'.container = d.container := by simpa using congrArg Declaration.container hd
    obtain ⟨e, he, hname, hkind⟩ := h.container c (hcontainer ▸ hc)
    obtain ⟨e', he', hsame⟩ := exists_mem_of_outlines hbefore he
    have hname' : e'.name = e.name := by simpa using congrArg Declaration.name hsame
    have hkind' : e'.kind = e.kind := by simpa using congrArg Declaration.kind hsame
    exact ⟨e', he', hname'.trans hname, hkind'.trans hkind⟩

/-- **A new declaration is placed.** Its scope fits the node where it is made. -/
theorem Fits.placed {scope : Scope} {place : Cursor} (h : Fits root ds scope place)
    (hspan : d.span = place.span)
    (hcontainer : d.container = (scope.classIndex.bind (ds[·]?)).map (·.name))
    (henclosing : d.enclosing = (scope.owner.bind (ds[·]?)).map (·.id)) : Placed root ds d where
  enclosing id hid := by
    obtain ⟨e, he, hid⟩ := Option.map_eq_some_iff.mp (henclosing.symm.trans hid)
    obtain ⟨i, hi, hget⟩ := Option.bind_eq_some_iff.mp he
    obtain ⟨e', outer, hget', houter, hwithin, hbelow⟩ := h.owner i hi
    obtain rfl := Option.some.inj (hget.symm.trans hget')
    exact ⟨e, List.mem_of_getElem? hget, hid, outer, place, hwithin, hbelow, houter, hspan⟩
  container c hc := by
    obtain ⟨e, he, hname⟩ := Option.map_eq_some_iff.mp (hcontainer.symm.trans hc)
    obtain ⟨i, hi, hget⟩ := Option.bind_eq_some_iff.mp he
    obtain ⟨e', hget', hkind⟩ := h.inClass i hi
    obtain rfl := Option.some.inj (hget.symm.trans hget')
    exact ⟨e, List.mem_of_getElem? hget, hname, hkind⟩

/-! ## Layout -/

/-- Every declaration is placed, and none that is nested is exported. -/
structure Laid (root : Cursor) (ds : List Declaration) : Prop where
  placed : ∀ i d, ds[i]? = some d → Placed root (ds.take i) d
  exported : ∀ d ∈ ds, d.exported = true → d.enclosing = none

/-- A layout grows by a declaration that is placed among those before it. -/
theorem Laid.snoc (h : Laid root ds) (hd : Placed root ds d)
    (hexported : d.exported = true → d.enclosing = none) :
    Laid root (ds ++ [d]) where
  placed i e he := by
    -- the index is one of the old ones or the last
    rcases Nat.lt_or_ge i ds.length with hi | hi
    · rw [List.getElem?_append_left hi] at he
      rw [List.take_append_of_le_length (Nat.le_of_lt hi)]
      exact h.placed i e he
    · rw [List.getElem?_append_right hi, List.getElem?_singleton,
        Option.ite_none_right_eq_some] at he
      obtain ⟨hlast, he⟩ := he
      obtain rfl := Option.some.inj he
      obtain rfl : i = ds.length := by omega
      rw [List.take_left]
      exact hd
  exported e he := by
    rcases List.mem_append.mp he with he | he
    · exact h.exported e he
    · obtain rfl := List.mem_singleton.mp he
      exact hexported

/-- A layout depends on the outlines of the declarations, and on which of them are exported. -/
theorem Laid.of_outlines (h : Laid root ds) (houtlines : ds'.map outline = ds.map outline)
    (hexported : ∀ d ∈ ds', d.exported = true → d.enclosing = none) : Laid root ds' where
  placed i d' hd' := by
    obtain ⟨d, hd, hsame⟩ := (Extends.of_outlines houtlines.symm).getElem? hd'
    refine (h.placed i d hd).of_outlines ?_ hsame.symm
    rw [List.map_take, List.map_take, houtlines]
  exported := hexported

/-- Marking errors changes neither what is exported nor what it is nested in. -/
theorem exists_mem_of_mem_markErrors {scope : Scope} {mark : ErrorHandling → ErrorHandling}
    {st : State} (h : d ∈ (st.markErrors scope mark).declarations) :
    ∃ e ∈ st.declarations, d.exported = e.exported ∧ d.enclosing = e.enclosing := by
  unfold State.markErrors at h
  split at h
  · exact ⟨d, h, rfl, rfl⟩
  · next i _ =>
    obtain ⟨j, hj⟩ := List.mem_iff_getElem?.mp h
    rw [List.getElem?_modify] at hj
    obtain ⟨e, he, rfl⟩ := Option.map_eq_some_iff.mp hj
    refine ⟨e, List.mem_of_getElem? he, ?_⟩
    split <;> exact ⟨rfl, rfl⟩

/-- **One move keeps the layout.** -/
theorem Move.laid {path : String} {st st' : State} (h : Move path root st st')
    (hst : Laid root st.declarations) : Laid root st'.declarations := by
  cases h with
  | @declare place scope _ fits callable name kind =>
    obtain ⟨d, hds, -, -, hspan, hexported, hcontainer, henclosing, -⟩ :=
      exists_declare path place callable name kind scope st
    rw [hds]
    refine hst.snoc (fits.placed hspan hcontainer henclosing) fun hd => ?_
    -- an export is made where nothing owns the calls, so there is nothing to be nested in
    rw [hexported, Bool.and_eq_true, Option.isNone_iff_eq_none] at hd
    rw [henclosing, hd.2]
    rfl
  | mark scope mark =>
    refine hst.of_outlines (map_outline_markErrors scope mark st) fun d hd => ?_
    obtain ⟨e, he, hexported, henclosing⟩ := exists_mem_of_mem_markErrors hd
    rw [hexported, henclosing]
    exact hst.exported e he
  | record caller target node via scope =>
    unfold State.record
    split <;> exact hst
  | aside hdeclarations hcalls =>
    rw [hdeclarations]
    exact hst

/-- An export clause marks top-level declarations only. -/
theorem enclosing_of_exportNamed {names : List String} (h : d.exported = true → d.enclosing = none)
    (hexported : (State.exportNamed names d).exported = true) :
    (State.exportNamed names d).enclosing = none := by
  unfold State.exportNamed at hexported ⊢
  split
  · next hnamed =>
    have htop : d.isTopLevel = true := (Bool.and_eq_true_iff.mp hnamed).1
    exact Option.isNone_iff_eq_none.mp (Bool.and_eq_true_iff.mp htop).1
  · next hnamed =>
    rw [if_neg hnamed] at hexported
    exact h hexported

theorem enclosing_of_exportMember {classes : List String}
    (h : d.exported = true → d.enclosing = none)
    (hexported : (State.exportMember classes d).exported = true) :
    (State.exportMember classes d).enclosing = none := by
  unfold State.exportMember at hexported ⊢
  split
  · next hmember => exact Option.isNone_iff_eq_none.mp (Bool.and_eq_true_iff.mp hmember).1
  · next hmember =>
    rw [if_neg hmember] at hexported
    exact h hexported

/-- Closing a file exports declarations that are not nested. -/
theorem Laid.close {st : State} (h : Laid root st.declarations) :
    Laid root st.close.declarations := by
  refine h.of_outlines (map_outline_close st) fun d hd => ?_
  obtain ⟨named, hnamed, rfl⟩ := List.mem_map.mp hd
  obtain ⟨e, he, rfl⟩ := List.mem_map.mp hnamed
  exact enclosing_of_exportMember (enclosing_of_exportNamed (h.exported e he))

theorem extract_laid (ctx : Context) (root : Node) :
    Laid ⟨root, []⟩ (extract ctx root).declarations := by
  have hwalked : Laid ⟨root, []⟩ (walked ctx root).declarations :=
    walked_induction ctx root ⟨by simp, by simp⟩ Move.laid
  rw [extract_eq]
  exact hwalked.close

/-! ## Paths -/

/-- A declaration of the file at a path. -/
structure Located (path : String) (d : Declaration) : Prop where
  filePath : d.filePath = path
  id : ∃ rest, d.id = path ++ ":" ++ rest

theorem Located.of_outline {path : String} (h : Located path d)
    (hd : outline d' = outline d) : Located path d' where
  filePath := by
    have hpath : d'.filePath = d.filePath := by simpa using congrArg Declaration.filePath hd
    exact hpath.trans h.filePath
  id := by
    have hid : d'.id = d.id := by simpa using congrArg Declaration.id hd
    rw [hid]
    exact h.id

/-- A numbered id is the base with something appended. -/
theorem numberedId_eq_append (taken : List String) (base : String) (fuel n : Nat) :
    ∃ tail, numberedId taken base fuel n = base ++ tail := by
  induction fuel generalizing n with
  | zero => exact ⟨"#" ++ Text.decimal n, String.append_assoc⟩
  | succ fuel ih =>
    dsimp only [numberedId]
    split
    · exact ih (n + 1)
    · exact ⟨"#" ++ Text.decimal n, String.append_assoc⟩

/-- What makes an id unique is written behind it. -/
theorem freshId_eq_append (taken : List String) (wish : String) (line : Nat) :
    ∃ tail, freshId taken wish line = wish ++ tail := by
  dsimp only [freshId]
  split
  · split
    · obtain ⟨tail, htail⟩ :=
        numberedId_eq_append taken (wish ++ "@" ++ Text.decimal line) taken.length 2
      exact ⟨"@" ++ Text.decimal line ++ tail, htail.trans (by simp only [String.append_assoc])⟩
    · exact ⟨"@" ++ Text.decimal line, String.append_assoc⟩
  · exact ⟨"", String.append_empty.symm⟩

/-- Every declaration has a counterpart before the move, or it is new. -/
theorem Move.located {path : String} {st st' : State} (h : Move path root st st')
    (hst : ∀ d ∈ st.declarations, Located path d) : ∀ d ∈ st'.declarations, Located path d := by
  intro e he
  -- only a declaring move adds to the list; the others leave paths and ids alone
  cases h with
  | @declare place scope _ fits callable name kind =>
    obtain ⟨d, hds, -, -, -, -, -, -, hpath, rest, hid⟩ :=
      exists_declare path place callable name kind scope st
    rw [hds] at he
    rcases List.mem_append.mp he with he | he
    · exact hst e he
    · obtain rfl := List.mem_singleton.mp he
      obtain ⟨tail, htail⟩ :=
        freshId_eq_append (st.declarations.map (·.id)) (path ++ ":" ++ rest) place.line
      exact ⟨hpath, rest ++ tail, by rw [hid, htail, String.append_assoc]⟩
  | mark scope mark =>
    obtain ⟨d, hd, hsame⟩ := exists_mem_of_outlines (map_outline_markErrors scope mark st).symm he
    exact (hst d hd).of_outline hsame.symm
  | record caller target node via scope =>
    unfold State.record at he
    split at he <;> exact hst e he
  | aside hdeclarations hcalls =>
    rw [hdeclarations] at he
    exact hst e he

/-- Every declaration of a file carries the path of the file, and its id starts with it. -/
theorem extract_located (ctx : Context) (root : Node) :
    ∀ d ∈ (extract ctx root).declarations, Located ctx.path d := by
  intro d hd
  have hwalked : ∀ d ∈ (walked ctx root).declarations, Located ctx.path d :=
    walked_induction ctx root (by simp) Move.located
  rw [extract_eq] at hd
  obtain ⟨e, he, hsame⟩ := exists_mem_of_outlines (map_outline_close (walked ctx root)).symm hd
  exact (hwalked e he).of_outline hsame.symm

/-! ## All of a file -/

/-- **The layout of a file.** In everything that is extracted from a tree with nested lines, of any
shape, ids are distinct, and every call has a declaration as its caller. What a declaration is
nested in comes before it and has its lines around it; what it is a member of comes before it and is
a class; and what is exported is not nested. Whatever ids are taken, the loop that numbers an id
ends. -/
theorem extract_layout (ctx : Context) (root : Node) (hroot : root.linesNested = true) :
    let st := extract ctx root
    (st.declarations.map (·.id)).Nodup ∧
      (∀ s ∈ st.calls, s.callerId ∈ st.declarations.map (·.id)) ∧
      (∀ i d, st.declarations[i]? = some d →
        (∀ id, d.enclosing = some id → ∃ e ∈ st.declarations.take i, e.id = id ∧
          e.span.startLine ≤ d.span.startLine ∧ d.span.endLine ≤ e.span.endLine) ∧
        (∀ c, d.container = some c → ∃ e ∈ st.declarations.take i, e.name = c ∧
          e.kind = .classDecl) ∧
        (d.exported = true → d.enclosing = none)) ∧
      ∀ taken base n, Settles taken base n (numberedId taken base taken.length n) := by
  intro st
  have hrecorded : Recorded st.declarations st.calls := extract_recorded ctx root
  -- ids and callers come from the record, places from the layout
  have hlaid : Laid ⟨root, []⟩ st.declarations := extract_laid ctx root
  refine ⟨hrecorded.nested.nodup, hrecorded.callers, fun i d hd => ⟨fun id hid => ?_, ?_, ?_⟩, ?_⟩
  · obtain ⟨e, he, heid, haround⟩ := (hlaid.placed i d hd).enclosing id hid
    exact ⟨e, he, heid, haround.lines hroot⟩
  · exact (hlaid.placed i d hd).container
  · exact hlaid.exported d (List.mem_of_getElem? hd)
  · exact fun taken base n => settles_of_not_mem (numberedId_not_mem taken base n)

/-! An exported class with a method, in which three functions have one name, two of them on one
line. -/

def shopTree : Node :=
  let name (text field : String) (line : Nat) : Node :=
    .mk { kind := "identifier", text, line, endLine := line, fields := [field] } []
  let pay (line : Nat) : Node :=
    .mk { kind := "function_declaration", line, endLine := line }
      [name "pay" "name" line,
        .mk { kind := "call_expression", line, endLine := line } [name "ping" "function" line]]
  let body : Node :=
    .mk { kind := "statement_block", line := 2, endLine := 5,
          fields := ["body"] } [pay 3, pay 4, pay 4]
  let sell : Node :=
    .mk { kind := "method_definition", line := 2, endLine := 5 } [name "sell" "name" 2, body]
  let members : Node :=
    .mk { kind := "class_body", line := 1, endLine := 6, fields := ["body"] } [sell]
  let shop : Node :=
    .mk { kind := "class_declaration", line := 1, endLine := 6, fields := ["declaration"] }
      [name "Shop" "name" 1, members]
  .mk { kind := "program", line := 1, endLine := 6 }
    [.mk { kind := "export_statement", line := 1, endLine := 6 } [shop]]

/-- The last function has a number in its id and lies in the method, which is exported with its
class. -/
theorem extract_layout_shop :
    shopTree.linesNested = true ∧
      (extract ⟨"shop.ts", {}, 400⟩ shopTree).declarations.map
        (fun d => (d.id, d.enclosing, d.container, d.exported))
        = [("shop.ts:Shop", none, none, true), ("shop.ts:Shop.sell", none, some "Shop", true),
          ("shop.ts:pay", some "shop.ts:Shop.sell", none, false),
          ("shop.ts:pay@4", some "shop.ts:Shop.sell", none, false),
          ("shop.ts:pay@4#2", some "shop.ts:Shop.sell", none, false)] ∧
      ((extract ⟨"shop.ts", {}, 400⟩ shopTree).declarations.map (·.id)).Nodup ∧
      (∃ e ∈ (extract ⟨"shop.ts", {}, 400⟩ shopTree).declarations.take 4,
        e.id = "shop.ts:Shop.sell" ∧ e.span.startLine ≤ 4 ∧ 4 ≤ e.span.endLine) ∧
      Settles ["shop.ts:pay@4"] "shop.ts:pay@4" 2 "shop.ts:pay@4#2" := by
  have hlines : shopTree.linesNested = true := by decide
  obtain ⟨hnodup, -, hplaced, hsettles⟩ := extract_layout ⟨"shop.ts", {}, 400⟩ shopTree hlines
  -- the last declaration is the third `pay`, inside the method
  have hlast : (extract ⟨"shop.ts", {}, 400⟩ shopTree).declarations[4]?.map
      (fun d => (d.enclosing, d.span)) = some (some "shop.ts:Shop.sell", ⟨4, 4⟩) := by
    decide
  obtain ⟨d, hd, hpair⟩ := Option.map_eq_some_iff.mp hlast
  obtain ⟨henclosing, hspan⟩ := Prod.mk.inj hpair
  have hmethod := (hplaced 4 d hd).1 "shop.ts:Shop.sell" henclosing
  rw [hspan] at hmethod
  exact ⟨hlines, by decide, hnodup, hmethod, hsettles ["shop.ts:pay@4"] "shop.ts:pay@4" 2⟩

end Extraction

end CallAtlas
