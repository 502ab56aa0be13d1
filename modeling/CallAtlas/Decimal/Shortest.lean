import CallAtlas.Text.Basic

/-!
# Decimal.Shortest — decimal digits of a double

A finite double is `mantissa * 2 ^ exponent`, and all that follows is exact arithmetic on that pair.
`Binary.shortest` gives the fewest digits that read back as the same double and, among those, the
ones nearest to it; `fixed` rounds to a number of places, and a half goes to the even neighbour.
-/

namespace CallAtlas.Decimal

/-- A finite, non-negative double. -/
structure Binary where
  mantissa : Nat
  exponent : Int
  /-- The next smaller double is only half as far away as the next larger one. -/
  narrowBelow : Bool
deriving DecidableEq, Repr

/-- Answers `none` for infinities and values that are not numbers. -/
def Binary.ofBits? (bits : Nat) : Option Binary :=
  let expo : Nat := bits / Nat.pow 2 52 % Nat.pow 2 11
  let frac : Nat := bits % Nat.pow 2 52
  if expo = 2047 then none
  else if expo = 0 then some ⟨frac, -1074, false⟩
  else some ⟨frac + Nat.pow 2 52, (expo : Int) - 1075, frac = 0 && expo > 1⟩

/-- The value `num / den * 2 ^ e` as a quotient. -/
def timesTwoPow (num den : Nat) (e : Int) : Nat × Nat :=
  if 0 ≤ e then (num * Nat.pow 2 e.toNat, den) else (num, den * Nat.pow 2 (-e).toNat)

/-- The value `num / den * 10 ^ e` as a quotient. -/
def timesTenPow (num den : Nat) (e : Int) : Nat × Nat :=
  if 0 ≤ e then (num * Nat.pow 10 e.toNat, den) else (num, den * Nat.pow 10 (-e).toNat)

/-- Position of the leading digit of `num / den`: the largest `e` with `10 ^ e ≤ num / den`. -/
def leading (num den : Nat) : Int :=
  ((Nat.toDigits 10 (num * Nat.pow 10 400 / den)).length : Int) - 401

/-- Whether `d * 10 ^ k` reads back as `b`: it lies between the midpoints to the two neighbours,
which belong to the interval when the mantissa is even. -/
def Binary.readsBack (b : Binary) (d : Nat) (k : Int) : Bool :=
  -- in units of a quarter of the last binary place
  let (dn, dd) := timesTenPow d 1 k
  let (dn, dd) := timesTwoPow dn dd (2 - b.exponent)
  let mid := 4 * b.mantissa
  let lo := mid - (if b.narrowBelow then 1 else 2)
  let hi := mid + 2
  if b.mantissa % 2 = 0 then lo * dd ≤ dn && dn ≤ hi * dd else lo * dd < dn && dn < hi * dd

/-- The neighbour of `b` on the grid `10 ^ k` that reads back and is nearest, the lower one at equal
distance. -/
def Binary.onGrid? (b : Binary) (k : Int) : Option Nat :=
  let (num, den) := timesTwoPow b.mantissa 1 b.exponent
  let (num, den) := timesTenPow num den (-k)
  let d := num / den
  let below := b.readsBack d k
  let above := b.readsBack (d + 1) k
  if below && above then
    some (if 2 * (num % den) ≤ den then d else d + 1)
  else if below then some d
  else if above then some (d + 1)
  else none

/-- The first grid with a hit, from coarse to fine. -/
def Binary.search (b : Binary) (lead : Int) : Nat → Nat → Option (Nat × Int)
  | 0, _ => none
  | fuel + 1, digits =>
    let k := lead - digits
    match b.onGrid? k with
    | some d => some (d, k)
    | none => search b lead fuel (digits + 1)

/-- Drops zeros at the end of the digits. -/
def normalize : Nat → Nat → Int → Nat × Int
  | 0, d, k => (d, k)
  | fuel + 1, d, k => if d ≠ 0 ∧ d % 10 = 0 then normalize fuel (d / 10) (k + 1) else (d, k)

/-- Digits `d` and exponent `k` such that `d * 10 ^ k` is the shortest decimal that reads back. -/
def Binary.shortest (b : Binary) : Nat × Int :=
  if b.mantissa = 0 then (0, 0)
  else
    let (num, den) := timesTwoPow b.mantissa 1 b.exponent
    match b.search (leading num den) 18 0 with
    | some (d, k) => normalize 20 d k
    | none => (0, 0)

/-- The value times `10 ^ places`, rounded to the nearest whole number, a half to the even one. -/
def Binary.rounded (b : Binary) (places : Nat) : Nat :=
  let (num, den) := timesTwoPow b.mantissa 1 b.exponent
  let num := num * Nat.pow 10 places
  let q := num / den
  let r := num % den
  if 2 * r < den then q
  else if den < 2 * r then q + 1
  else if q % 2 = 0 then q
  else q + 1

/-- A whole number of units of `10 ^ -places` in positional notation. -/
def positional (places units : Nat) : String :=
  let whole := Text.decimal (units / Nat.pow 10 places)
  if places = 0 then whole
  else
    let frac := Nat.toDigits 10 (units % Nat.pow 10 places)
    whole ++ "." ++ .ofList (List.replicate (places - frac.length) '0' ++ frac)

/-- A double with a fixed number of places. -/
def fixed (places : Nat) (f : Float) : String :=
  let bits := f.toBits.toNat
  let sign := if bits / Nat.pow 2 63 = 1 then "-" else ""
  match Binary.ofBits? bits with
  | some b => sign ++ positional places (b.rounded places)
  | none => if bits % Nat.pow 2 52 = 0 then sign ++ "inf" else "NaN"

/-- The sixteen hexadecimal digits of a double's bits. What is no number has the sign bit set, as
the sum of opposite infinities has. -/
def bitsHex (f : Float) : String :=
  let digits := Nat.toDigits 16 (if f.isNaN then 0xfff8000000000000 else f.toBits.toNat)
  .ofList (List.replicate (16 - digits.length) '0' ++ digits)

end CallAtlas.Decimal
