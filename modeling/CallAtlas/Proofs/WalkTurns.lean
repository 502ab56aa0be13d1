import CallAtlas.Proofs.ExtractionScript
import CallAtlas.Proofs.TreeOrder

/-!
# Proofs.WalkTurns — what a node goes on to

A node does something itself and then has its turns, one after the other. A turn is the visit of a
node below in some scope, or it makes a declaration and visits the nodes inside.

* `Comes` — the turn of one element of a sequence, with the number of declarations before it.
* `Way` — how the walk comes from a node to one below.
* `TurnOf`, `turnOf_of_mem` — all that a turn can be.
-/

namespace CallAtlas.Extraction

open CallAtlas.Tree

/-! ## Sequences, element by element -/

section Sequences

variable {α : Type} {part : α → Nat → List Event} {xs : List α} {x : α} {n m : Nat}

/-- In a sequence that starts with `n` declarations, `x` comes when there are `m`. -/
inductive Comes (part : α → Nat → List Event) : List α → Nat → α → Nat → Prop where
  | here {x : α} {xs : List α} {n : Nat} : Comes part (x :: xs) n x n
  | later {x y : α} {xs : List α} {n m : Nat}
      (rest : Comes part xs (n + (origins (part y n)).length) x m) :
      Comes part (y :: xs) n x m

/-- What comes in a sequence is in the list. -/
theorem Comes.mem (h : Comes part xs n x m) : x ∈ xs := by
  induction h with
  | here => exact List.mem_cons_self
  | later _ ih => exact List.mem_cons_of_mem _ ih

theorem Comes.le (h : Comes part xs n x m) : n ≤ m := by
  induction h with
  | here => exact Nat.le_refl _
  | later _ ih => exact Nat.le_trans (Nat.le_add_right _ _) ih

/-- Every element of the list comes at some number of declarations. -/
theorem exists_comes (part : α → Nat → List Event) (h : x ∈ xs) (n : Nat) :
    ∃ m, Comes part xs n x m := by
  induction xs generalizing n with
  | nil => exact absurd h List.not_mem_nil
  | cons y xs ih =>
    rcases List.mem_cons.mp h with rfl | h
    · exact ⟨n, .here⟩
    · obtain ⟨m, hm⟩ := ih h (n + (origins (part y n)).length)
      exact ⟨m, .later hm⟩

/-- What comes in a sequence is listed in it, with the declarations before it that it is said to
have. -/
theorem Comes.split (h : Comes part xs n x m) :
    ∃ before after, inSequence (xs.map part) n = before ++ (part x m ++ after) ∧
      n + (origins before).length = m := by
  induction h with
  | @here x xs n => exact ⟨[], inSequence (xs.map part) (n + (origins (part x n)).length), rfl, rfl⟩
  | @later x y xs n m _ ih =>
    obtain ⟨before, after, hsplit, hcount⟩ := ih
    refine ⟨part y n ++ before, after, ?_, ?_⟩
    · rw [List.map_cons, inSequence, hsplit, List.append_assoc]
    · rw [origins_append, List.length_append, ← Nat.add_assoc, hcount]

/-- **What is listed in a sequence comes in it.** -/
theorem exists_comes_of_split {e : Event} {before after : List Event}
    (h : inSequence (xs.map part) n = before ++ e :: after) :
    ∃ x m before' after', Comes part xs n x m ∧ part x m = before' ++ e :: after' ∧
      n + (origins before).length = m + (origins before').length := by
  induction xs generalizing n before with
  | nil => simp [inSequence] at h
  | cons y xs ih =>
    rw [List.map_cons, inSequence] at h
    rcases List.append_eq_append_iff.mp h with ⟨rest, rfl, hrest⟩ | ⟨rest, hfirst, hrest⟩
    · -- the event is listed behind the first part
      obtain ⟨x, m, before', after', hcomes, hpart, hcount⟩ := ih hrest
      refine ⟨x, m, before', after', .later hcomes, hpart, ?_⟩
      rw [origins_append, List.length_append, ← Nat.add_assoc]
      exact hcount
    · cases rest with
      | nil =>
        -- the first part ends right before the event
        rw [List.append_nil] at hfirst
        subst hfirst
        have hnil : inSequence (xs.map part) (n + (origins (part y n)).length) = [] ++ e :: after :=
          hrest.symm
        obtain ⟨x, m, before', after', hcomes, hpart, hcount⟩ := ih hnil
        exact ⟨x, m, before', after', .later hcomes, hpart, hcount⟩
      | cons e' rest =>
        obtain ⟨rfl, -⟩ := List.cons.inj hrest
        exact ⟨y, n, before, rest, .here, hfirst, rfl⟩

end Sequences

/-! ## All that a turn can be -/

/-- The kinds of nodes that are the function of a declaration. -/
def functionKinds : List String :=
  ["function_declaration", "generator_function_declaration", "method_definition", "arrow_function",
    "function_expression", "function", "generator_function"]

/-- How the walk comes from a node to one below that it visits next, but for the parts of a `try`
statement. -/
inductive Way (c : Cursor) : Cursor → Prop where
  | child {q : Cursor} (hq : q ∈ c.children) : Way c q
  | exported {value : Cursor} (hvalue : c.field? "value" = some value) : Way c (unwrapped value)
  | initializer {declarator value : Cursor} (hdeclarator : declarator ∈ c.children)
      (hkind : declarator.kind = "variable_declarator")
      (hvalue : value ∈ declarator.children) : Way c value
  | argument {call args q : Cursor} (hcall : call ∈ c.spine Chain.pick)
      (hkind : call.kind = "call_expression")
      (hargs : call.field? "arguments" = some args) (hq : q ∈ args.children) : Way c q

/-- Every way leads down. -/
theorem Way.below {c q : Cursor} (h : Way c q) : q.Below c := by
  cases h with
  | child hq => exact Cursor.below_of_mem_children hq
  | exported hvalue =>
    have hbelow := Cursor.below_of_mem_children (Cursor.mem_children_of_field? hvalue)
    exact (Cursor.follow_within _ _).trans_below hbelow
  -- an initializer is two levels down, an argument may be many
  | initializer hdeclarator hkind hvalue =>
    exact (Cursor.below_of_mem_children hvalue).trans (Cursor.below_of_mem_children hdeclarator)
  | argument hcall hkind hargs hq =>
    have hbelow := Cursor.below_of_mem_children hq
    exact hbelow.trans_within ((Cursor.within_of_field? hargs).trans
      (Cursor.within_of_mem_spine hcall))

/-- The turns of a node in a scope. -/
inductive TurnOf (c : Cursor) (scope : Scope) : Turn → Prop where
  | visit {q : Cursor} {scope' : Scope} (hway : Way c q) (hplain : Construct.of c.node ≠ .tryStmt)
      (howner : scope'.owner = scope.owner) (hguarded : scope'.guarded = scope.guarded) :
      TurnOf c scope (.visit q scope')
  | part {field : String} {part q : Cursor} {scope' : Scope} (htry : Construct.of c.node = .tryStmt)
      (hfield : field = "body" ∨ field = "handler" ∨ field = "finalizer")
      (hpart : c.field? field = some part)
      (hq : q ∈ part.children) (howner : scope'.owner = scope.owner)
      (hguarded : scope'.guarded = (scope.guarded || field == "body" &&
        (c.field? "handler").isSome)) :
      TurnOf c scope (.visit q scope')
  | callable {place f : Cursor} {name : String} {kind : DeclarationKind} {scope' : Scope}
      (hf : f.Within c)
      (hkind : f.kind ∈ functionKinds) :
      TurnOf c scope (.declare ⟨place, some f, name, kind, scope'⟩)
  | classBody {name : String} (hclass : Construct.of c.node = .classDecl) :
      TurnOf c scope (.declare ⟨c, none, name, .classDecl, scope⟩)
  | type {name : String} : TurnOf c scope (.declare ⟨c, none, name, .typeDecl, scope⟩)

section Turns

variable {settings : ExtractionSettings} {c q : Cursor} {scope scope' : Scope}
  {t : Turn} {o : Origin}

/-- A visiting turn goes to a node below. -/
theorem TurnOf.below_of_visit (h : TurnOf c scope (.visit q scope')) : q.Below c := by
  cases h with
  | visit hway => exact hway.below
  | part htry hfield hpart hq =>
    exact (Cursor.below_of_mem_children hq).trans
      (Cursor.below_of_mem_children (Cursor.mem_children_of_field? hpart))

/-- A visiting turn keeps the owner. -/
theorem TurnOf.owner_of_visit (h : TurnOf c scope (.visit q scope')) :
    scope'.owner = scope.owner := by
  cases h with
  | visit hway hplain howner => exact howner
  | part htry hfield hpart hq howner => exact howner

/-- What is inside of a class is in its body. -/
theorem Origin.mem_inner_classDecl {place : Cursor} {name : String}
    (h : q ∈ (⟨place, none, name, .classDecl, scope⟩ : Origin).inner) :
    ∃ body, place.field? "body" = some body ∧ q ∈ body.namedChildren := by
  simp only [Origin.inner] at h
  split at h
  · next body hbody => exact ⟨body, hbody, h⟩
  · exact absurd h List.not_mem_nil

/-- What is inside a declaration of a turn is below the node. -/
theorem TurnOf.below_of_inner (h : TurnOf c scope (.declare o)) (hq : q ∈ o.inner) : q.Below c := by
  cases h with
  | callable hf hkind =>
    have hbelow := Cursor.below_of_mem_children (Cursor.mem_children_of_mem_namedChildren hq)
    exact hbelow.trans_within hf
  | classBody hclass =>
    obtain ⟨body, hbody, hq⟩ := Origin.mem_inner_classDecl hq
    have hbelow := Cursor.below_of_mem_children (Cursor.mem_children_of_mem_namedChildren hq)
    exact hbelow.trans (Cursor.below_of_mem_children (Cursor.mem_children_of_field? hbody))
  | type => exact absurd hq List.not_mem_nil

/-- The kinds of the nodes of a construct. Broken nodes and those of no other construct have any
kind, so nothing is listed for theirs. -/
def Construct.kinds : Construct → List String
  | .importStmt => ["import_statement"]
  | .exportStmt => ["export_statement"]
  | .functionDecl => ["function_declaration", "generator_function_declaration"]
  | .classDecl => ["class_declaration", "abstract_class_declaration"]
  | .methodDecl => ["method_definition"]
  | .fieldDecl => ["public_field_definition", "field_definition"]
  | .variables => ["lexical_declaration", "variable_declaration"]
  | .typeDecl => ["interface_declaration", "type_alias_declaration", "enum_declaration"]
  | .callExpr => ["call_expression"]
  | .element => ["jsx_element", "jsx_self_closing_element"]
  | .elementAttr => ["jsx_attribute"]
  | .branch => ["if_statement", "ternary_expression", "switch_statement"]
  | .tryStmt => ["try_statement"]
  | .throwStmt => ["throw_statement"]
  | .skipped | .other => []

/-- **A construct tells the kind of its nodes**, as long as its kinds are listed. -/
theorem kind_mem_of_construct {n : Node} {k : Construct} {kinds : List String}
    (h : Construct.of n = k) (hkinds : k.kinds ≠ [] ∧ ∀ kind ∈ k.kinds, kind ∈ kinds) :
    n.kind ∈ kinds := by
  refine hkinds.2 n.kind ?_
  have hlisted := hkinds.1
  subst h
  unfold Construct.of at hlisted ⊢
  split
  · next hbroken => simp [hbroken, Construct.kinds] at hlisted
  · next hbroken =>
    rw [if_neg hbroken] at hlisted
    split <;> simp_all [Construct.kinds]

theorem kind_of_tryStmt (h : Construct.of c.node = .tryStmt) : c.kind = "try_statement" :=
  List.mem_singleton.mp (kind_mem_of_construct h (by decide))

theorem kind_of_callExpr (h : Construct.of c.node = .callExpr) : c.kind = "call_expression" :=
  List.mem_singleton.mp (kind_mem_of_construct h (by decide))

/-- A function value is of a function kind. -/
theorem kind_of_functionValue? {value f : Cursor} (h : functionValue? value = some f) :
    f.kind ∈ functionKinds := by
  have hkind := isFunctionKind_of_functionValue? h
  simp only [isFunctionKind, Bool.or_eq_true, beq_iff_eq] at hkind
  rcases hkind with ((h | h) | h) | h <;> simp [functionKinds, h]

/-- A turn into a child is a turn of the node, if the scope keeps owner and guard. -/
theorem turnOf_of_mem_childTurns (h : t ∈ childTurns c scope')
    (hplain : Construct.of c.node ≠ .tryStmt) (howner : scope'.owner = scope.owner)
    (hguarded : scope'.guarded = scope.guarded) : TurnOf c scope t := by
  obtain ⟨q, hq, rfl⟩ := List.mem_map.mp h
  exact .visit (.child (Cursor.mem_children_of_mem_namedChildren hq)) hplain howner hguarded

/-- A turn into a part of a try is one, with the guard that the body has. -/
theorem turnOf_of_mem_partTurns {field : String} (htry : Construct.of c.node = .tryStmt)
    (hfield : field = "body" ∨ field = "handler" ∨ field = "finalizer")
    (h : t ∈ partTurns c field scope')
    (howner : scope'.owner = scope.owner)
    (hguarded : scope'.guarded = (scope.guarded || field == "body" &&
      (c.field? "handler").isSome)) : TurnOf c scope t := by
  unfold partTurns at h
  split at h
  · next part hpart =>
    obtain ⟨q, hq, rfl⟩ := List.mem_map.mp h
    exact .part htry hfield hpart (Cursor.mem_children_of_mem_namedChildren hq) howner hguarded
  · exact absurd h List.not_mem_nil

/-- The turns of an export are turns of the node. -/
theorem turnOf_of_mem_exportTurns (hplain : Construct.of c.node ≠ .tryStmt)
    (h : t ∈ exportTurns c scope) : TurnOf c scope t := by
  unfold exportTurns at h
  -- a re-export has no turn; else the declaration, or the value behind its wrappers
  split at h
  · exact absurd h List.not_mem_nil
  · dsimp only at h
    split at h
    · next hdeclaration =>
      obtain rfl := List.mem_singleton.mp h
      exact .visit (.child (Cursor.mem_children_of_field? hdeclaration)) hplain rfl rfl
    · next value _ hvalue =>
      have hvalue : c.field? "value" = some value := hvalue
      split at h
      · exact absurd h List.not_mem_nil
      · split at h
        · next f hf =>
          obtain rfl := List.mem_singleton.mp h
          have hwithin := (functionValue?_within hf).trans (Cursor.follow_within _ value)
          exact .callable (hwithin.trans (Cursor.within_of_field? hvalue))
            (kind_of_functionValue? hf)
        · obtain rfl := List.mem_singleton.mp h
          exact .visit (.exported hvalue) hplain rfl rfl
    · exact absurd h List.not_mem_nil

/-- The turns of a declarator are turns of the node that has it. -/
theorem turnOf_of_mem_declaratorTurns {declarator : Cursor}
    (hplain : Construct.of c.node ≠ .tryStmt) (hdeclarator : declarator ∈ c.children)
    (h : t ∈ declaratorTurns scope declarator) : TurnOf c scope t := by
  unfold declaratorTurns at h
  split at h
  · next hkind =>
    split at h
    · exact absurd h List.not_mem_nil
    · next value hvalue =>
      split at h
      · next name f _ hf =>
        obtain rfl := List.mem_singleton.mp h
        have hwithin := (functionValue?_within hf).trans (Cursor.within_of_field? hvalue)
        exact .callable (hwithin.trans (Cursor.within_of_mem_children hdeclarator))
          (kind_of_functionValue? hf)
      · obtain rfl := List.mem_singleton.mp h
        exact .visit (.initializer hdeclarator hkind (Cursor.mem_children_of_field? hvalue))
          hplain rfl rfl
  · exact absurd h List.not_mem_nil

theorem turnOf_of_mem_fieldTurns (hplain : Construct.of c.node ≠ .tryStmt)
    (h : t ∈ fieldTurns c scope) : TurnOf c scope t := by
  unfold fieldTurns at h
  split at h
  · next name f _ hf =>
    obtain ⟨value, hvalue, hf⟩ := Option.bind_eq_some_iff.mp hf
    split at h
    · obtain rfl := List.mem_singleton.mp h
      have hwithin := (functionValue?_within hf).trans (Cursor.within_of_field? hvalue)
      exact .callable hwithin (kind_of_functionValue? hf)
    · exact turnOf_of_mem_childTurns h hplain rfl rfl
  · exact turnOf_of_mem_childTurns h hplain rfl rfl

theorem turnOf_of_mem_callTurns (hplain : Construct.of c.node ≠ .tryStmt)
    (h : t ∈ callTurns settings c scope) : TurnOf c scope t := by
  unfold callTurns at h
  split at h
  · next target lists _ hshape =>
    obtain ⟨args, hargs, ht⟩ := List.mem_flatMap.mp h
    obtain ⟨q, hq, rfl⟩ := List.mem_map.mp ht
    rw [CallShape.argumentLists_eq hshape] at hargs
    obtain ⟨call, hcall, hkind, hfield⟩ := exists_call_of_mem_argumentLists hargs
    exact .visit (.argument hcall hkind hfield (Cursor.mem_children_of_mem_namedChildren hq))
      hplain rfl rfl
  · exact turnOf_of_mem_childTurns h hplain rfl rfl

/-- **Every turn is one of these.** -/
theorem turnOf_of_mem (h : t ∈ turns settings c scope) : TurnOf c scope t := by
  unfold turns at h
  cases hc : Construct.of c.node with
  | tryStmt =>
    rw [hc] at h
    -- the handler guards the body, but neither itself nor the finalizer
    rcases List.mem_append.mp h with h | h
    · exact turnOf_of_mem_partTurns hc (.inl rfl) h rfl rfl
    · rcases List.mem_append.mp h with h | h
      · exact turnOf_of_mem_partTurns hc (.inr (.inl rfl)) h rfl (Bool.or_false _).symm
      · exact turnOf_of_mem_partTurns hc (.inr (.inr rfl)) h rfl (Bool.or_false _).symm
  | functionDecl =>
    rw [hc] at h
    dsimp only at h
    split at h
    · obtain rfl := List.mem_singleton.mp h
      exact .callable (.refl c) (kind_mem_of_construct hc (by decide))
    · exact turnOf_of_mem_childTurns h (by simp [hc]) rfl rfl
  | classDecl =>
    rw [hc] at h
    dsimp only at h
    split at h
    · obtain rfl := List.mem_singleton.mp h
      exact .classBody hc
    · exact turnOf_of_mem_childTurns h (by simp [hc]) rfl rfl
  | methodDecl =>
    rw [hc] at h
    dsimp only at h
    split at h
    · split at h
      · obtain rfl := List.mem_singleton.mp h
        exact .callable (.refl c) (kind_mem_of_construct hc (by decide))
      · exact turnOf_of_mem_childTurns h (by simp [hc]) rfl rfl
    · exact turnOf_of_mem_childTurns h (by simp [hc]) rfl rfl
  | typeDecl =>
    rw [hc] at h
    dsimp only at h
    split at h
    · split at h
      · obtain rfl := List.mem_singleton.mp h
        exact .type
      · exact absurd h List.not_mem_nil
    · exact absurd h List.not_mem_nil
  | «variables» =>
    rw [hc] at h
    obtain ⟨declarator, hdeclarator, ht⟩ := List.mem_flatMap.mp h
    exact turnOf_of_mem_declaratorTurns (by simp [hc])
      (Cursor.mem_children_of_mem_namedChildren hdeclarator) ht
  | importStmt | skipped =>
    rw [hc] at h
    exact absurd h List.not_mem_nil
  | exportStmt =>
    rw [hc] at h
    exact turnOf_of_mem_exportTurns (by simp [hc]) h
  | fieldDecl =>
    rw [hc] at h
    exact turnOf_of_mem_fieldTurns (by simp [hc]) h
  | callExpr =>
    rw [hc] at h
    exact turnOf_of_mem_callTurns (by simp [hc]) h
  | branch | element | elementAttr | throwStmt | other =>
    rw [hc] at h
    exact turnOf_of_mem_childTurns h (by simp [hc]) rfl rfl

end Turns

end CallAtlas.Extraction
