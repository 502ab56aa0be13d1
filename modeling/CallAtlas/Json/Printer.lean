import CallAtlas.Json.Basic
import CallAtlas.Decimal.Shortest

/-!
# Json.Printer — writing the text form

`compact` writes without blanks, `pretty` one member or element a line with two blanks a level. Only
quotes, backslashes and control characters are escaped in strings.
-/

namespace CallAtlas.Json

namespace Printer

def hexDigit (n : Nat) : Char := if n < 10 then Char.ofNat (48 + n) else Char.ofNat (87 + n)

def escapeChar (c : Char) : List Char :=
  if c = '"' then ['\\', '"']
  else if c = '\\' then ['\\', '\\']
  else if c = '\n' then ['\\', 'n']
  else if c = '\r' then ['\\', 'r']
  else if c = '\t' then ['\\', 't']
  else if c = '\x08' then ['\\', 'b']
  else if c = '\x0c' then ['\\', 'f']
  else if c.toNat < 32 then ['\\', 'u', '0', '0', hexDigit (c.toNat / 16), hexDigit (c.toNat % 16)]
  else [c]

def quote (s : String) : String :=
  .ofList ('"' :: s.toList.flatMap escapeChar ++ ['"'])

/-- Where a decimal is written positionally: the point stands after at most `maxWhole` digits, or
the number is below one with fewer than `maxZeros` zeros after the point. -/
structure DecimalLayout where
  maxWhole : Int
  maxZeros : Int

/-- Positional up to sixteen whole digits and down to `0.00001`, with at least one place. -/
def layout : DecimalLayout := ⟨16, 5⟩

def decimal (minus : Bool) (digits : Nat) (exponent : Int) : String :=
  let sign := if minus then "-" else ""
  let ds := Nat.toDigits 10 digits
  let n : Int := ds.length
  let point := n + exponent
  let body :=
    if digits = 0 then "0.0"
    else if 0 ≤ exponent ∧ point ≤ layout.maxWhole then
      .ofList (ds ++ List.replicate exponent.toNat '0') ++ ".0"
    else if 0 < point ∧ point ≤ layout.maxWhole then
      .ofList (ds.take point.toNat) ++ "." ++ .ofList (ds.drop point.toNat)
    else if -layout.maxZeros < point ∧ point ≤ 0 then
      "0." ++ .ofList (List.replicate (-point).toNat '0' ++ ds)
    else
      let e := point - 1
      let mantissa : String :=
        match ds with
        | [d] => .ofList [d]
        | d :: rest => .ofList (d :: '.' :: rest)
        | [] => "0"
      mantissa ++ "e" ++ (if e < 0 then "-" else "") ++ Text.decimal e.natAbs
  sign ++ body

/-- A double in its shortest decimal form; `null` when it is not finite. -/
def double (bits : Nat) : String :=
  match Decimal.Binary.ofBits? bits with
  | some b =>
    let (digits, exponent) := b.shortest
    decimal (bits / Nat.pow 2 63 = 1) digits exponent
  | none => "null"

def number : Number → String
  | .natural n => Text.decimal n
  | .negative n => "-" ++ Text.decimal n
  | .decimal minus digits exponent => decimal minus digits exponent
  | .double bits => double bits.toNat

def indent (level : Nat) : String := .ofList (List.replicate (2 * level) ' ')

mutual

def compact : Json → String
  | .null => "null"
  | .bool b => if b then "true" else "false"
  | .num n => number n
  | .str s => quote s
  | .arr items => "[" ++ ",".intercalate (compactItems items) ++ "]"
  | .obj members => "\x7b" ++ ",".intercalate (compactMembers members) ++ "\x7d"

def compactItems : List Json → List String
  | [] => []
  | j :: rest => compact j :: compactItems rest

def compactMembers : List (String × Json) → List String
  | [] => []
  | (k, v) :: rest => (quote k ++ ":" ++ compact v) :: compactMembers rest

end

mutual

/-- The text of a value whose first line is already indented by `level`. -/
def pretty (level : Nat) : Json → String
  | .null => "null"
  | .bool b => if b then "true" else "false"
  | .num n => number n
  | .str s => quote s
  | .arr [] => "[]"
  | .arr items =>
    "[\n" ++ ",\n".intercalate (prettyItems (level + 1) items) ++ "\n" ++ indent level ++ "]"
  | .obj [] => "\x7b\x7d"
  | .obj members =>
    "\x7b\n" ++ ",\n".intercalate (prettyMembers (level + 1) members) ++ "\n" ++
      indent level ++ "\x7d"

def prettyItems (level : Nat) : List Json → List String
  | [] => []
  | j :: rest => (indent level ++ pretty level j) :: prettyItems level rest

def prettyMembers (level : Nat) : List (String × Json) → List String
  | [] => []
  | (k, v) :: rest =>
    (indent level ++ quote k ++ ": " ++ pretty level v) :: prettyMembers level rest

end

end Printer

def compact (j : Json) : String := Printer.compact j

def pretty (j : Json) : String := Printer.pretty 0 j

end CallAtlas.Json
