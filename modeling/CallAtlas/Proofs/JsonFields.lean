import CallAtlas.Json.Record
import CallAtlas.Proofs.JsonText

/-!
# Proofs.JsonFields — records that are written and read again

A decoder reads the fields of a record one after the other. Two things are followed along this
chain: which value it gives for the members that an encoder wrote, and which whole numbers it can
give at all. Both are said of one field here and put together by `bind`.

* `narrow_of_parse?` — a whole number that is read from a text fits in 64 bits.
* `Gives`, `Ensures` — the value of a chain of fields, and what holds of all its values.
* `Faithful.roundTrips` — an encoder and a decoder that belong together, for values and for texts.
-/

namespace CallAtlas.Json

/-! ## Whole numbers that are read -/

/-- All whole numbers in a value that are not negative fit in 64 bits. -/
inductive Narrow : Json → Prop where
  | null : Narrow .null
  | bool (b : Bool) : Narrow (.bool b)
  | num {x : Number} (h : ∀ n, x = .natural n → n < Nat.pow 2 64) : Narrow (.num x)
  | str (s : String) : Narrow (.str s)
  | arr {items : List Json} (h : ∀ j ∈ items, Narrow j) : Narrow (.arr items)
  | obj {members : List (String × Json)} (h : ∀ m ∈ members, Narrow m.2) : Narrow (.obj members)

/-- A member that is put in place of another one, or behind all others. -/
theorem narrow_putMember {name : String} {value : Json} {done : List (String × Json)}
    (hvalue : Narrow value) (hdone : ∀ m ∈ done, Narrow m.2) :
    ∀ m ∈ putMember name value done, Narrow m.2 := by
  induction done with
  | nil => simpa [putMember] using hvalue
  | cons m done ih =>
    rw [List.forall_mem_cons] at hdone
    rw [putMember]
    split
    · exact List.forall_mem_cons.mpr ⟨hvalue, hdone.2⟩
    · exact List.forall_mem_cons.mpr ⟨hdone.1, ih hdone.2⟩

/-- Members that are read one after the other, where a later one replaces an earlier one of its
name. -/
theorem narrow_ofMembers {members : List (String × Json)} (h : ∀ m ∈ members, Narrow m.2) :
    Narrow (ofMembers members) := by
  have hall : ∀ done : List (String × Json), (∀ m ∈ done, Narrow m.2) →
      ∀ m ∈ members.foldl (fun acc m => putMember m.1 m.2 acc) done, Narrow m.2 := by
    -- the members that are done already have to be general
    induction members with
    | nil => exact fun done hdone => hdone
    | cons m members ih =>
      intro done hdone
      rw [List.forall_mem_cons] at h
      exact ih h.2 _ (narrow_putMember h.1 hdone)
  exact .obj (hall [] (by simp))

namespace Reader

/-- A whole number that is too large becomes a decimal. -/
theorem lt_of_wholeNumber {minus : Bool} {k n : Nat}
    (h : wholeNumber minus k = .natural n) : n < Nat.pow 2 64 := by
  rw [wholeNumber] at h
  split at h
  · split at h <;> cases h
  · split at h
    · next hlt =>
      cases h
      exact hlt
    · cases h

/-- A natural number comes from digits alone, with neither a fraction nor an exponent. -/
theorem lt_of_number {cs rest : List Char} {n : Nat}
    (h : number cs = some (.natural n, rest)) : n < Nat.pow 2 64 := by
  unfold number at h
  split at h
  dsimp only at h
  split at h
  · cases h
  · obtain ⟨⟨frac, afterFraction⟩, -, h⟩ := Option.bind_eq_some_iff.mp h
    obtain ⟨⟨exp, afterExponent⟩, -, h⟩ := Option.bind_eq_some_iff.mp h
    dsimp only at h
    split at h
    · exact lt_of_wholeNumber (congrArg Prod.fst (Option.some.inj h))
    · cases h

/-- Whatever is read within a bound is narrow. -/
structure NarrowWithin (fuel : Nat) : Prop where
  value {cs : List Char} {j : Json} {rest : List Char} :
    Reader.value fuel cs = some (j, rest) → Narrow j
  items {cs : List Char} {js : List Json} {rest : List Char} :
    Reader.items fuel cs = some (js, rest) → ∀ j ∈ js, Narrow j
  members {cs : List Char} {ms : List (String × Json)} {rest : List Char} :
    Reader.members fuel cs = some (ms, rest) → ∀ m ∈ ms, Narrow m.2

namespace NarrowWithin

variable {fuel : Nat} {cs rest : List Char}

/-- One value: the case of the reader tells its form, and the parts were read with less fuel. -/
theorem value_succ (hfuel : NarrowWithin fuel) {j : Json}
    (h : Reader.value (fuel + 1) cs = some (j, rest)) : Narrow j := by
  rw [Reader.value_succ] at h
  split at h
  · cases h
    exact .null
  · cases h
    exact .bool true
  · cases h
    exact .bool false
  · obtain ⟨p, -, hp⟩ := Option.map_eq_some_iff.mp h
    cases hp
    exact .str p.1
  · -- an array, which is empty or has elements
    split at h
    · cases h
      exact .arr (by simp)
    · obtain ⟨p, hp, hj⟩ := Option.map_eq_some_iff.mp h
      cases hj
      exact .arr (hfuel.items hp)
  · -- an object, which is empty or has members
    split at h
    · cases h
      exact .obj (by simp)
    · obtain ⟨p, hp, hj⟩ := Option.map_eq_some_iff.mp h
      cases hj
      exact narrow_ofMembers (hfuel.members hp)
  · -- a number, which is refused if it is too large for any form
    obtain ⟨⟨x, rest'⟩, hx, h⟩ := Option.bind_eq_some_iff.mp h
    dsimp only at h
    split at h
    · cases h
    · cases h
      exact .num fun n hn => lt_of_number (hn ▸ hx)

/-- The elements of an array. -/
theorem items_succ (hfuel : NarrowWithin fuel) {js : List Json}
    (h : Reader.items (fuel + 1) cs = some (js, rest)) : ∀ j ∈ js, Narrow j := by
  rw [Reader.items_succ] at h
  split at h
  · cases h
  · next v rest' hv =>
    -- a comma and more, the closing bracket, or neither
    split at h
    · obtain ⟨p, hp, hjs⟩ := Option.map_eq_some_iff.mp h
      cases hjs
      exact List.forall_mem_cons.mpr ⟨hfuel.value hv, hfuel.items hp⟩
    · cases h
      exact List.forall_mem_singleton.mpr (hfuel.value hv)
    · cases h

/-- The members of an object. -/
theorem members_succ (hfuel : NarrowWithin fuel) {ms : List (String × Json)}
    (h : Reader.members (fuel + 1) cs = some (ms, rest)) : ∀ m ∈ ms, Narrow m.2 := by
  rw [Reader.members_succ] at h
  -- a quoted name, a colon and a value; without one of them nothing is read
  split at h
  · split at h
    · cases h
    · split at h
      · split at h
        · cases h
        · next v rest' hv =>
          split at h
          · obtain ⟨p, hp, hms⟩ := Option.map_eq_some_iff.mp h
            cases hms
            exact List.forall_mem_cons.mpr ⟨hfuel.value hv, hfuel.members hp⟩
          · cases h
            exact List.forall_mem_singleton.mpr (hfuel.value hv)
          · cases h
      · cases h
  · cases h

end NarrowWithin

/-- The induction is on the bound, for values, elements and members at once. -/
theorem narrowWithin (fuel : Nat) : NarrowWithin fuel := by
  induction fuel with
  | zero => exact ⟨nofun, nofun, nofun⟩
  | succ fuel ih => exact ⟨ih.value_succ, ih.items_succ, ih.members_succ⟩

end Reader

/-- **A whole number that is read from a text fits in 64 bits.** There is nothing behind the value
of a text, and its length is fuel enough. -/
theorem narrow_of_parse? {text : String} {j : Json} (h : parse? text = some j) : Narrow j := by
  simp only [parse?] at h
  split at h
  · next v rest hv =>
    split at h
    · cases h
      exact (Reader.narrowWithin _).value hv
    · cases h
  · cases h

/-! ## Encoders and decoders -/

/-- All numbers fit in 64 bits. -/
def Fits (numbers : List Nat) : Prop := ∀ n ∈ numbers, n < Nat.pow 2 64

instance (numbers : List Nat) : Decidable (Fits numbers) :=
  inferInstanceAs (Decidable (∀ n ∈ numbers, _))

@[simp] theorem fits_nil : Fits [] := nofun

@[simp] theorem fits_cons {n : Nat} {numbers : List Nat} :
    Fits (n :: numbers) ↔ n < Nat.pow 2 64 ∧ Fits numbers :=
  List.forall_mem_cons

/-- Values without numbers. -/
theorem fits_flatMap_nil {α : Type} (xs : List α) : Fits (xs.flatMap fun _ => []) := by
  simp [Fits]

@[simp] theorem fits_append {numbers more : List Nat} :
    Fits (numbers ++ more) ↔ Fits numbers ∧ Fits more :=
  List.forall_mem_append

/-- A decoder reads what the encoder writes. `integers` are the numbers in a value: if they fit in
64 bits then the text of the value can be read, and in what is decoded from a text they do. -/
structure Faithful {α : Type} (toJson : α → Json) (ofJson? : Json → Option α)
    (integers : α → List Nat) : Prop where
  decode_encode (x : α) : ofJson? (toJson x) = some x
  plain {x : α} : Fits (integers x) → Plain (toJson x)
  fits {j : Json} {x : α} : Narrow j → ofJson? j = some x → Fits (integers x)

section

variable {α : Type} {toJson : α → Json} {ofJson? : Json → Option α} {integers : α → List Nat}

/-- Texts have no numbers in them. -/
theorem faithful_string : Faithful Json.str string? fun _ => [] where
  decode_encode _ := rfl
  plain _ := .str _
  fits _ _ := fits_nil

theorem faithful_bool : Faithful Json.bool bool? fun _ => [] where
  decode_encode _ := rfl
  plain _ := .bool _
  fits _ _ := fits_nil

/-- A natural number is its own only number. It is read from no other form of number. -/
theorem faithful_nat : Faithful ofNat nat? fun n => [n] where
  decode_encode _ := rfl
  plain h := .natural (h _ List.mem_cons_self)
  fits {j x} hj h := by
    cases hj with
    | @num y hy =>
      cases y with
      | natural n =>
        cases h
        simpa [Fits] using hy _ rfl
      | negative | decimal | double => cases h
    | null | bool | str | arr | obj => cases h

/-- The names of variants without data are read as they are written. -/
theorem faithful_variant {name : α → String} {all : List α}
    (h : ∀ k, (all.map fun k => (name k, k)).lookup (name k) = some k) :
    Faithful (fun k => .str (name k)) (variant? isNull (all.map fun k => (name k, k)))
      fun _ => [] where
  decode_encode k := h k
  plain _ := .str _
  fits _ _ := fits_nil

/-- What is in a list that was decoded comes from an element of the array. -/
theorem exists_of_mem_mapM {items : List Json} {xs : List α} (h : items.mapM ofJson? = some xs)
    {x : α} (hx : x ∈ xs) : ∃ j ∈ items, ofJson? j = some x := by
  induction items generalizing xs with
  | nil =>
    cases h
    cases hx
  | cons j items ih =>
    rw [List.mapM_cons] at h
    obtain ⟨y, hy, h⟩ := Option.bind_eq_some_iff.mp h
    obtain ⟨ys, hys, h⟩ := Option.bind_eq_some_iff.mp h
    cases h
    rcases List.mem_cons.mp hx with rfl | hx
    · exact ⟨j, List.mem_cons_self, hy⟩
    · obtain ⟨j', hj', hjx⟩ := ih hys hx
      exact ⟨j', List.mem_cons_of_mem j hj', hjx⟩

/-- Lists of a faithful type are faithful, and have the numbers of their elements. -/
theorem Faithful.list (h : Faithful toJson ofJson? integers) :
    Faithful (fun xs => .arr (xs.map toJson)) (list? ofJson?) fun xs => xs.flatMap integers where
  decode_encode xs := by
    show (xs.map toJson).mapM ofJson? = some xs
    induction xs with
    | nil => rfl
    | cons x xs ih => simp [h.decode_encode x, ih]
  plain {xs} hxs := by
    refine .arr fun j hj => ?_
    obtain ⟨x, hx, rfl⟩ := List.mem_map.mp hj
    exact h.plain fun n hn => hxs n (List.mem_flatMap.mpr ⟨x, hx, hn⟩)
  fits {j xs} hj hdecode := by
    cases hj with
    | @arr items hitems =>
      intro n hn
      -- a number of the list is one of an element, and that was decoded from an element of the
      -- array
      obtain ⟨x, hx, hn⟩ := List.mem_flatMap.mp hn
      obtain ⟨j, hj, hjx⟩ := exists_of_mem_mapM hdecode hx
      exact h.fits (hitems j hj) hjx n hn
    | null | bool | num | str | obj => cases hdecode

end

/-! ## Fields of what was written -/

namespace Record

section

variable {α β : Type} {members : List (String × Json)} {name : String}

/-- For an object with these members the fields give this value. -/
def Gives (members : List (String × Json)) (fields : Reader α) (a : α) : Prop :=
  fields (.named members) = some (a, .named members)

/-- Fields in sequence. Reading a named field leaves all members in place, so that each of them
finds its own. -/
theorem Gives.bind {fields : Reader α} {more : α → Reader β} {a : α} {b : β}
    (h : Gives members fields a) (hmore : Gives members (more a) b) :
    Gives members (fields >>= more) b := by
  show (fields (.named members)).bind (fun p => more p.1 p.2) = _
  rw [h]
  exact hmore

theorem gives_pure (a : α) : Gives members (pure a) a := rfl

/-- The value of a whole record. -/
theorem Gives.read? {fields : Reader α} {a : α} (h : Gives members fields a) :
    Record.read? fields (.obj members) = some a := by
  show (fields (.named members)).map (·.1) = some a
  rw [h]
  rfl

/-- The members of one name. -/
def pick (name : String) (members : List (String × Json)) : List (String × Json) :=
  members.filter (·.1 == name)

@[simp] theorem pick_nil : pick name [] = [] := rfl

/-- The `pick` lemmas are for `simp`: the members of a record are written out, and each name is
compared. -/
@[simp] theorem pick_cons (m : String × Json) :
    pick name (m :: members) = if m.1 = name then m :: pick name members
      else pick name members := by
  simp [pick, List.filter_cons]

@[simp] theorem pick_append (more : List (String × Json)) :
    pick name (members ++ more) = pick name members ++ pick name more :=
  List.filter_append ..

@[simp] theorem pick_present (other : String) (f : α → Json) (o : Option α) :
    pick name (present other f o) = if other = name then present other f o else [] := by
  cases o <;> simp [present]

@[simp] theorem pick_ite (c : Prop) [Decidable c] (more : List (String × Json)) :
    pick name (if c then members else more) = if c then pick name members else pick name more :=
  apply_ite ..

/-- There is no member of the name. -/
theorem next?_of_pick_nil (item : Json → Option α) (h : pick name members = []) :
    Gives members (next? name item) none := by
  rw [Gives, next?, ← pick, h]

/-- There is one, and it can be decoded. -/
theorem next?_of_pick_singleton {item : Json → Option α} {v : Json} {a : α}
    (h : pick name members = [(name, v)]) (hv : item v = some a) :
    Gives members (next? name item) (some a) := by
  rw [Gives, next?, ← pick, h]
  simp [hv]

/-- A field that has to be there. -/
theorem gives_required {item : Json → Option α} {v : Json} {a : α}
    (h : pick name members = [(name, v)]) (hv : item v = some a) :
    Gives members (required name item) a :=
  (next?_of_pick_singleton h hv).bind (gives_pure a)

/-- A field that may be missing and is not. -/
theorem gives_withDefault {item : Json → Option α} {v : Json} {a default : α}
    (h : pick name members = [(name, v)]) (hv : item v = some a) :
    Gives members (withDefault name default item) a :=
  (next?_of_pick_singleton h hv).bind (gives_pure a)

/-- A field that is missing. -/
theorem gives_default {item : Json → Option α} {default : α} (h : pick name members = []) :
    Gives members (withDefault name default item) default :=
  (next?_of_pick_nil item h).bind (gives_pure default)

/-- What is not `null` is read as a value. -/
theorem option?_of_ne_null {item : Json → Option α} {j : Json} (h : j ≠ .null) :
    option? item j = (item j).map some := by
  cases j with
  | null => exact absurd rfl h
  | bool | num | str | arr | obj => rfl

variable {toJson : α → Json} {item : Json → Option α}

/-- An absent value is left out. -/
theorem gives_optional (hitem : ∀ a, item (toJson a) = some a) (hnull : ∀ a, toJson a ≠ .null)
    {o : Option α} (h : pick name members = present name toJson o) :
    Gives members (optional name item) o := by
  cases o with
  | none => exact gives_default h
  | some a =>
    refine gives_withDefault h ?_
    rw [option?_of_ne_null (hnull a), hitem]
    rfl

/-- An absent value is written as `null`. -/
theorem gives_nullable (hitem : ∀ a, item (toJson a) = some a) (hnull : ∀ a, toJson a ≠ .null)
    {o : Option α} (h : pick name members = [(name, ofOption toJson o)]) :
    Gives members (nullable name item) o := by
  have hvalue : option? item (ofOption toJson o) = some o := by
    cases o with
    | none => rfl
    | some a =>
      rw [ofOption, option?_of_ne_null (hnull a), hitem]
      rfl
  exact gives_withDefault h hvalue

end

/-! ## What can be read -/

section

variable {α β : Type} {name : String} {P : α → Prop} {Q : β → Prop} {item : Json → Option α}

/-- All whole numbers that are left to read fit in 64 bits. -/
def AllNarrow : Record → Prop
  | .named members => ∀ m ∈ members, Narrow m.2
  | .positional items => ∀ j ∈ items, Narrow j

/-- Whatever the fields give has this property, as long as the whole numbers in the record fit in 64
bits. -/
def Ensures (fields : Reader α) (P : α → Prop) : Prop :=
  ∀ r a r', AllNarrow r → fields r = some (a, r') → P a ∧ AllNarrow r'

/-- Fields in sequence: the record that is left after one of them is where the next one reads. -/
theorem Ensures.bind {fields : Reader α} {more : α → Reader β} (h : Ensures fields P)
    (hmore : ∀ a, P a → Ensures (more a) Q) : Ensures (fields >>= more) Q := by
  intro r b r' hr hread
  obtain ⟨⟨a, middle⟩, ha, hb⟩ := Option.bind_eq_some_iff.mp hread
  obtain ⟨hPa, hmiddle⟩ := h r a middle hr ha
  exact hmore a hPa middle b r' hmiddle hb

theorem ensures_pure {a : α} (h : P a) : Ensures (pure a) P := by
  intro r b r' hr hread
  cases hread
  exact ⟨h, hr⟩

/-- One field, by its name or by its place. A record by place gets shorter, one by names stays as it
is. -/
theorem ensures_next? (hitem : ∀ {j a}, Narrow j → item j = some a → P a) :
    Ensures (next? name item) fun o => ∀ a, o = some a → P a := by
  intro r o r' hr hread
  cases r with
  | named members =>
    rw [next?] at hread
    split at hread
    · cases hread
      exact ⟨nofun, hr⟩
    · next k v hpick =>
      obtain ⟨a, ha, hread⟩ := Option.map_eq_some_iff.mp hread
      cases hread
      -- the one member that was picked is a member of the record
      have hmem : (k, v) ∈ members := (List.mem_filter.mp (hpick ▸ List.mem_cons_self)).1
      exact ⟨fun b hb => Option.some.inj hb ▸ hitem (hr _ hmem) ha, hr⟩
    · cases hread
  | positional items =>
    cases items with
    | nil =>
      cases hread
      exact ⟨nofun, hr⟩
    | cons v rest =>
      obtain ⟨a, ha, hread⟩ := Option.map_eq_some_iff.mp hread
      cases hread
      obtain ⟨hv, hrest⟩ := List.forall_mem_cons.mp hr
      exact ⟨fun b hb => Option.some.inj hb ▸ hitem hv ha, hrest⟩

/-- A field that has to be there gives a value that was decoded. -/
theorem ensures_required (hitem : ∀ {j a}, Narrow j → item j = some a → P a) :
    Ensures (required name item) P := by
  refine (ensures_next? hitem).bind fun o ho => ?_
  cases o with
  | some a => exact ensures_pure (ho a rfl)
  | none => exact fun _ _ _ _ hread => nomatch hread

/-- The default needs the property too. -/
theorem ensures_withDefault {default : α} (hdefault : P default)
    (hitem : ∀ {j a}, Narrow j → item j = some a → P a) :
    Ensures (withDefault name default item) P := by
  refine (ensures_next? hitem).bind fun o ho => ensures_pure ?_
  cases o with
  | some a => exact ho a rfl
  | none => exact hdefault

/-- A whole record, which is an object or an array. -/
theorem Ensures.read? {fields : Reader α} (h : Ensures fields P) {j : Json} {a : α} (hj : Narrow j)
    (hread : Record.read? fields j = some a) : P a := by
  cases hj with
  | @obj members hmembers =>
    obtain ⟨⟨b, r⟩, hb, hread⟩ := Option.map_eq_some_iff.mp hread
    cases hread
    exact (h (.named members) b r hmembers hb).1
  | @arr items hitems =>
    rw [Record.read?] at hread
    split at hread
    · next hb =>
      cases hread
      exact (h (.positional items) _ _ hitems hb).1
    · cases hread
  | null | bool | num | str => cases hread

/-! Fields without numbers. -/

theorem skips_required : Ensures (required name item) fun _ => True :=
  ensures_required fun _ _ => trivial

theorem skips_withDefault {default : α} : Ensures (withDefault name default item) fun _ => True :=
  ensures_withDefault trivial fun _ _ => trivial

/-- A record by place has to have this field. -/
theorem skips_nullable : Ensures (nullable name item) fun _ => True := by
  intro r a r' hr hread
  unfold nullable at hread
  split at hread
  · cases hread
  · exact skips_withDefault r a r' hr hread

end

end Record

/-! ## Types that are faithful -/

/-- A type whose values come back: from their exchange form, whatever other form they were decoded
from, and from both texts of it. -/
structure RoundTrips {α : Type} (toJson : α → Json) (ofJson? : Json → Option α)
    (integers : α → List Nat) : Prop where
  decode_encode (x : α) : ofJson? (toJson x) = some x
  /-- The reader has no whole numbers of more than 64 bits. -/
  decode_text (x : α) : Fits (integers x) →
    (parse? (toJson x).compact).bind ofJson? = some x ∧
      (parse? (toJson x).pretty).bind ofJson? = some x
  /-- What was decoded before is written and read without any condition. -/
  decode_again (j : Json) (x : α) : ofJson? j = some x → ofJson? (toJson x) = some x
  decode_text_again (source : String) (x : α) : (parse? source).bind ofJson? = some x →
    (parse? (toJson x).compact).bind ofJson? = some x ∧
      (parse? (toJson x).pretty).bind ofJson? = some x

section

open Record (Gives pick)

variable {α : Type} {members : List (String × Json)} {name : String} {toJson : α → Json}
  {ofJson? : Json → Option α} {integers : α → List Nat}

/-- Both texts of a value can be read, and they are those of its exchange form. -/
theorem Faithful.decode_text (h : Faithful toJson ofJson? integers) {x : α}
    (hx : Fits (integers x)) :
    (parse? (toJson x).compact).bind ofJson? = some x ∧
      (parse? (toJson x).pretty).bind ofJson? = some x := by
  have hplain := h.plain hx
  rw [parse?_compact hplain, parse?_pretty hplain]
  exact ⟨h.decode_encode x, h.decode_encode x⟩

/-- **A faithful type comes back.** Whatever was decoded from a text fits in 64 bits, so that it can
be written and read again. -/
theorem Faithful.roundTrips (h : Faithful toJson ofJson? integers) :
    RoundTrips toJson ofJson? integers where
  decode_encode := h.decode_encode
  decode_text _ := h.decode_text
  decode_again _ x _ := h.decode_encode x
  decode_text_again source x hsource := by
    obtain ⟨j, hj, hx⟩ := Option.bind_eq_some_iff.mp hsource
    exact h.decode_text (h.fits (narrow_of_parse? hj) hx)

/-! ### A field of such a type -/

/-- It is written once under its name. -/
theorem Faithful.required (h : Faithful toJson ofJson? integers) (x : α)
    (hpick : pick name members = [(name, toJson x)]) :
    Gives members (Record.required name ofJson?) x :=
  Record.gives_required hpick (h.decode_encode x)

theorem Faithful.withDefault (h : Faithful toJson ofJson? integers) (x : α) {default : α}
    (hpick : pick name members = [(name, toJson x)]) :
    Gives members (Record.withDefault name default ofJson?) x :=
  Record.gives_withDefault hpick (h.decode_encode x)

/-- The numbers of a field that was read from a text. -/
theorem Faithful.ensures (h : Faithful toJson ofJson? integers) :
    Record.Ensures (Record.required name ofJson?) fun x => Fits (integers x) :=
  Record.ensures_required h.fits

/-- An empty list is left out. -/
theorem Faithful.withoutEmpty (h : Faithful toJson ofJson? integers) (xs : List α)
    (hpick : pick name members = if xs.isEmpty then [] else [(name, .arr (xs.map toJson))]) :
    Gives members (Record.withDefault name [] (list? ofJson?)) xs := by
  cases xs with
  | nil => exact Record.gives_default hpick
  | cons x xs => exact h.list.withDefault (x :: xs) hpick

/-- A text that may be absent. -/
theorem gives_optional_string {o : Option String}
    (hpick : pick name members = present name .str o) :
    Gives members (Record.optional name string?) o :=
  Record.gives_optional faithful_string.decode_encode nofun hpick

@[simp] theorem mem_present {k : String} {v : Json} {o : Option α} :
    (k, v) ∈ present name toJson o ↔ k = name ∧ ∃ a ∈ o, v = toJson a := by
  cases o <;> simp [present]

@[simp] theorem nodup_present (o : Option α) : ((present name toJson o).map (·.1)).Nodup := by
  cases o <;> simp [present]

end

end CallAtlas.Json
