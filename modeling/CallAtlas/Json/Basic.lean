import CallAtlas.Text.Basic

/-!
# Json — values of the exchange format

Whole numbers and decimals are kept apart, because a count must be written as a whole number: `100`
is one and `1e2` is not. The members of an object are in the order in which they are written.
-/

namespace CallAtlas

/-- A number as it was written. -/
inductive Json.Number where
  | natural (n : Nat)
  /-- The negative whole number `-n`. -/
  | negative (n : Nat)
  /-- The number `digits * 10 ^ exponent`, with the opposite sign if `minus` is set. -/
  | decimal (minus : Bool) (digits : Nat) (exponent : Int)
  /-- The bits of a double, for values that no text of this format gives: read from another format
  or computed. -/
  | double (bits : UInt64)
deriving DecidableEq, Repr

inductive Json where
  | null
  | bool (b : Bool)
  | num (n : Json.Number)
  | str (s : String)
  | arr (items : List Json)
  | obj (members : List (String × Json))

namespace Json

def ofNat (n : Nat) : Json := .num (.natural n)

def ofStrings (xs : List String) : Json := .arr (xs.map .str)

/-- Writes `null` for an absent value. -/
def ofOption {α : Type} (f : α → Json) : Option α → Json
  | none => .null
  | some a => f a

/-- A member of an object that is left out when the value is absent. -/
def present {α : Type} (name : String) (f : α → Json) : Option α → List (String × Json)
  | none => []
  | some a => [(name, f a)]

def ofFloat (f : Float) : Json := .num (.double f.toBits)

/-- A later member replaces an earlier one of the same name. -/
def putMember (name : String) (value : Json) : List (String × Json) → List (String × Json)
  | [] => [(name, value)]
  | (k, v) :: rest => if k = name then (k, value) :: rest else (k, v) :: putMember name value rest

def ofMembers (members : List (String × Json)) : Json :=
  .obj (members.foldl (fun acc (k, v) => putMember k v acc) [])

/-- The member of an object with this name. -/
def member? (j : Json) (name : String) : Option Json :=
  match j with
  | .obj members => members.lookup name
  | _ => none

/-- The object with further members after its own. -/
def extend (j : Json) (more : List (String × Json)) : Json :=
  match j with
  | .obj members => .obj (members ++ more)
  | _ => j

/-! ## Numbers as floating point -/

namespace Number

/-- Drops last digits until the number fits in 64 bits, and counts them. -/
def fit64 : Nat → Nat → Nat × Nat
  | 0, n => (n, 0)
  | fuel + 1, n =>
    if n < Nat.pow 2 64 then (n, 0)
    else
      let (m, k) := fit64 fuel (n / 10)
      (m, k + 1)

/-- One multiplication or division by a power of ten; below `1e-308` the division is done in two or
more steps. -/
def scale : Nat → Float → Int → Float
  | 0, f, _ => f
  | fuel + 1, f, e =>
    if 0 ≤ e then f * Float.ofScientific 1 false e.toNat
    else if -e ≤ 308 then f / Float.ofScientific 1 false (-e).toNat
    else scale fuel (f / Float.ofScientific 1 false 308) (e + 308)

/-- The double nearest to the leading digits, scaled by a power of ten. -/
def toFloat : Number → Float
  | natural n => Float.ofScientific n false 0
  | negative n => -Float.ofScientific n false 0
  | decimal minus digits exponent =>
    let (m, dropped) := fit64 digits digits
    let f := if m = 0 then 0.0 else scale 8 (Float.ofScientific m false 0) (exponent + dropped)
    if minus then -f else f
  | double bits => Float.ofBits bits

/-- Whether a decimal is beyond the largest double. -/
def isTooLarge (n : Number) : Bool :=
  match n with
  | decimal _ digits exponent =>
    let (m, dropped) := fit64 digits digits
    m != 0 && (308 < exponent + dropped || n.toFloat.isInf)
  | natural _ | negative _ | double _ => false

end Number

end Json

end CallAtlas
