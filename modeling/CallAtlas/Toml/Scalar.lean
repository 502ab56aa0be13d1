import CallAtlas.Text.Basic
import CallAtlas.Toml.Value

/-!
# Toml.Scalar — keys, strings, numbers and dates

All functions take the characters that are left and give the rest after what they read. Line breaks
are single line feeds here.
-/

namespace CallAtlas.Toml

open Text (isDigit)

def isBlank (c : Char) : Bool := c == ' ' || c == '\t'

def dropBlanks (cs : List Char) : List Char := cs.dropWhile isBlank

/-- Characters of bare keys, and of numbers and dates. -/
def isBare (c : Char) : Bool :=
  Text.isUpper c || Text.isLower c || isDigit c || c == '-' || c == '_'

/-- The longest run of bare characters, which must not be empty. -/
def bare? (cs : List Char) : Option (List Char × List Char) :=
  match cs.takeWhile isBare with
  | [] => none
  | run => some (run, cs.dropWhile isBare)

/-! ## Strings -/

/-- Control characters other than the tabulator do not stand in strings. -/
def isTextChar (c : Char) : Bool := c == '\t' || (32 ≤ c.toNat && c.toNat != 127)

def hexDigit? (c : Char) : Option Nat :=
  if isDigit c then some (c.toNat - 48)
  else if 'a' ≤ c && c ≤ 'f' then some (c.toNat - 87)
  else if 'A' ≤ c && c ≤ 'F' then some (c.toNat - 55)
  else none

/-- The character of a code point in hexadecimal digits; surrogates have none. -/
def codePoint? (digits : List Char) : Option Char := do
  let n := (← digits.mapM hexDigit?).foldl (fun n d => 16 * n + d) 0
  if n < 0xD800 ∨ (0xDFFF < n ∧ n < 0x110000) then some (Char.ofNat n) else none

/-- The character of an escape, after its backslash. -/
def escape? : List Char → Option (Char × List Char)
  | '"' :: rest => some ('"', rest)
  | '\\' :: rest => some ('\\', rest)
  | 'b' :: rest => some ('\x08', rest)
  | 'f' :: rest => some ('\x0c', rest)
  | 'n' :: rest => some ('\n', rest)
  | 'r' :: rest => some ('\r', rest)
  | 't' :: rest => some ('\t', rest)
  | 'u' :: rest => if rest.length < 4 then none else (codePoint? (rest.take 4)).map (·, rest.drop 4)
  | 'U' :: rest => if rest.length < 8 then none else (codePoint? (rest.take 8)).map (·, rest.drop 8)
  | _ => none

/-- What a backslash before the end of a line skips: blanks up to the line break, and then all blank
lines. -/
def lineJoin? (cs : List Char) : Option (List Char) :=
  let isGap (c : Char) : Bool := isBlank c || c == '\n'
  match cs with
  | '\n' :: rest => some (rest.dropWhile isGap)
  | ' ' :: rest | '\t' :: rest =>
    match dropBlanks rest with
    | '\n' :: rest => some (rest.dropWhile isGap)
    | [] => some []
    | _ => none
  | _ => none

/-- How a string is delimited. -/
structure Quoting where
  quote : Char
  escapes : Bool
  multiline : Bool

/-- The rest of a string after its opening quotes; `acc` holds what was read, last character first.
Up to two quotes right before the closing ones belong to the string. -/
def stringBody (q : Quoting) : Nat → List Char → List Char → Option (String × List Char)
  | 0, _, _ => none
  | _ + 1, _, [] => none
  | fuel + 1, acc, c :: rest =>
    if c = q.quote then
      if q.multiline then
        let run := (c :: rest).takeWhile (· == q.quote)
        if run.length < 3 then stringBody q fuel (run ++ acc) ((c :: rest).drop run.length)
        else
          let extra := min (run.length - 3) 2
          some (.ofList (acc.reverse ++ run.take extra), (c :: rest).drop (3 + extra))
      else some (.ofList acc.reverse, rest)
    else if c = '\\' ∧ q.escapes then
      match escape? rest with
      | some (d, rest) => stringBody q fuel (d :: acc) rest
      | none =>
        if q.multiline then
          match lineJoin? rest with
          | some rest => stringBody q fuel acc rest
          | none => none
        else none
    else if c = '\n' ∧ q.multiline then stringBody q fuel (c :: acc) rest
    else if isTextChar c then stringBody q fuel (c :: acc) rest
    else none

/-- A string at its opening quote; answers also whether it is of the multi-line form, whose first
line break is not part of it. -/
def string? (cs : List Char) : Option (String × Bool × List Char) :=
  match cs with
  | [] => none
  | c :: rest =>
    if c = '"' ∨ c = '\'' then
      let single : Option (String × Bool × List Char) :=
        (stringBody ⟨c, c == '"', false⟩ (rest.length + 1) [] rest).map fun (s, rest) =>
          (s, false, rest)
      match rest with
      | d :: e :: more =>
        if d = c ∧ e = c then
          let more := (Text.dropLead? ['\n'] more).getD more
          (stringBody ⟨c, c == '"', true⟩ (more.length + 1) [] more).map fun (s, rest) =>
            (s, true, rest)
        else single
      | _ => single
    else none

/-! ## Keys -/

def keyPart? (cs : List Char) : Option (String × List Char) :=
  match string? cs with
  | some (s, false, rest) => some (s, rest)
  | some (_, true, _) => none
  | none => (bare? cs).map fun (run, rest) => (.ofList run, rest)

/-- Parts of a key between dots, with blanks around them. -/
def key? : Nat → List Char → Option (List String × List Char)
  | 0, _ => none
  | fuel + 1, cs => do
    let (part, rest) ← keyPart? (dropBlanks cs)
    match dropBlanks rest with
    | '.' :: rest => (key? fuel rest).map fun (parts, rest) => (part :: parts, rest)
    | rest => some ([part], rest)

/-! ## Numbers -/

def digitValue? (radix : Nat) (c : Char) : Option Nat := (hexDigit? c).filter (· < radix)

/-- Digits with single underscores between them, and what follows. Without `zeros` a leading zero
stands alone. -/
def digits? (radix : Nat) (zeros : Bool) (first firstZero underscore : Bool) :
    List Char → Option (List Char × List Char)
  | [] => if first || underscore then none else some ([], [])
  | c :: cs =>
    if c = '0' && first then
      (digits? radix zeros false true underscore cs).map fun (ds, rest) => (c :: ds, rest)
    else if (digitValue? radix c).isSome then
      if !first && firstZero && !zeros then none
      else (digits? radix zeros false firstZero false cs).map fun (ds, rest) => (c :: ds, rest)
    else if c = '_' then
      if first || underscore then none else digits? radix zeros false firstZero true cs
    else if first || underscore then none
    else some ([], c :: cs)

/-- Digits with an optional minus sign. -/
def signedDigits? (zeros : Bool) (cs : List Char) : Option (Bool × List Char × List Char) :=
  match cs with
  | '-' :: rest => (digits? 10 zeros true false false rest).map fun (ds, rest) => (true, ds, rest)
  | _ => (digits? 10 zeros true false false cs).map fun (ds, rest) => (false, ds, rest)

def plainDigits? (zeros : Bool) (cs : List Char) : Option (List Char × List Char) :=
  digits? 10 zeros true false false cs

def natOf (radix : Nat) (ds : List Char) : Nat :=
  ds.foldl (fun n d => radix * n + (digitValue? radix d).getD 0) 0

/-- A whole number of 64 bits with sign. -/
def integer? (minus : Bool) (n : Nat) : Option Value :=
  if minus then if n ≤ Nat.pow 2 63 then some (.int (-n)) else none
  else if n < Nat.pow 2 63 then some (.int n) else none

/-- The whole number that all of a run denotes. -/
def wholeRun? (run : List Char) : Option Value :=
  let based (radix : Nat) (cs : List Char) : Option Value :=
    match digits? radix true true false false cs with
    | some (ds, []) => integer? false (natOf radix ds)
    | _ => none
  match run with
  | '0' :: 'x' :: cs => based 16 cs
  | '0' :: 'o' :: cs => based 8 cs
  | '0' :: 'b' :: cs => based 2 cs
  | _ =>
    match signedDigits? false run with
    | some (minus, ds, []) => integer? minus (natOf 10 ds)
    | _ => none

/-- The double nearest to a decimal; there is none if it is too large. -/
def float? (minus : Bool) (whole frac : List Char) (expMinus : Bool)
    (exp : List Char) : Option Value :=
  let mantissa := natOf 10 (whole ++ frac)
  -- A larger exponent than this gives zero or no number, whatever the digits.
  let bound := 400 + whole.length + frac.length
  let size := min (natOf 10 exp) bound
  let e : Int := (if expMinus then -(size : Int) else size) - frac.length
  let f := if e < 0 then Float.ofScientific mantissa true e.natAbs
  else Float.ofScientific mantissa false e.natAbs
  let f := if minus then -f else f
  if f.isFinite then some (.float f) else none

/-- The exponent after `e`; its plus sign is a separate character after the run. -/
def exponent? (suffix rest : List Char) : Option (Bool × List Char × List Char) :=
  match suffix with
  | [] => some (false, [], rest)
  | e :: [] =>
    if e = 'e' ∨ e = 'E' then do
      let (run, rest) ← bare? ((Text.dropLead? ['+'] rest).getD rest)
      match ← plainDigits? true run with
      | (ds, []) => some (false, ds, rest)
      | _ => none
    else none
  | e :: more =>
    if e = 'e' ∨ e = 'E' then do
      match ← signedDigits? true more with
      | (minus, ds, []) => some (minus, ds, rest)
      | _ => none
    else none

def isInfinity (run : List Char) : Bool := run == "inf".toList || run == "-inf".toList

def isNaN (run : List Char) : Bool := run == "nan".toList || run == "-nan".toList

/-- A number that starts with a run; `rest` follows the run. -/
def number? (run rest : List Char) : Option (Value × List Char) :=
  let isBased := match run with
    | '0' :: c :: _ => c == 'x' || c == 'o' || c == 'b'
    | _ => false
  if !isBased && (run.contains 'e' || run.contains 'E') then do
    let (minus, whole, suffix) ← signedDigits? false run
    let (expMinus, exp, rest) ← exponent? suffix rest
    return (← float? minus whole [] expMinus exp, rest)
  else
    match isBased, rest with
    | false, '.' :: more => do
      let (after, rest) ← bare? more
      match ← signedDigits? false run with
      | (minus, whole, []) =>
        let (frac, suffix) ← plainDigits? true after
        let (expMinus, exp, rest) ← exponent? suffix rest
        return (← float? minus whole frac expMinus exp, rest)
      | _ => none
    | _, _ =>
      if isInfinity run then
        some (.float (if run.head? = some '-' then -(1.0 / 0.0) else 1.0 / 0.0), rest)
      else if isNaN run then some (.float (0.0 / 0.0), rest)
      else (wholeRun? run).map (·, rest)

/-! ## Dates and times -/

/-- A bare run right at the front. -/
def skipBare? (cs : List Char) : Option (List Char) := (bare? cs).map (·.2)

/-- What follows the hour of a time: minutes, seconds, and optionally a fraction and an offset. -/
def timeRest? (cs : List Char) : Option (List Char) := do
  let rest ← skipBare? cs
  let rest ← (← Text.dropLead? [':'] rest) |> skipBare?
  let optional (mark : Char) (cs : List Char) : Option (List Char) :=
    match Text.dropLead? [mark] cs with
    | some more => skipBare? more
    | none => some cs
  let rest ← optional '.' rest
  let rest ← optional '+' rest
  optional ':' rest

/-- The rest of a date after its first run; a single space and an hour may follow it. -/
def dateRest? (colonRead : Bool) (cs : List Char) : Option (List Char) :=
  let cs :=
    match cs with
    | ' ' :: more => if more.head?.any isBare then more.dropWhile isBare else cs
    | _ => cs
  if colonRead then timeRest? cs
  else
    match cs with
    | ':' :: rest => timeRest? rest
    | _ => some cs

/-- A run with a `T`, or with a hyphen that is neither its first character nor part of an exponent,
is a date. -/
def isDate (run : List Char) : Bool :=
  run.contains 'T' || run.contains 't' ||
    (run.tail.contains '-' && !Text.occursIn ['e', '-'] run && !Text.occursIn ['E', '-'] run)

/-- A number or date that starts with a run. -/
def numberOrDate? (run rest : List Char) : Option (Value × List Char) :=
  if isDate run then (dateRest? false rest).map (.date, ·)
  else
    match rest with
    | ':' :: more => (dateRest? true more).map (.date, ·)
    | _ => number? run rest

/-- A value that is written without quotes or brackets. -/
def plain? (cs : List Char) : Option (Value × List Char) :=
  match cs with
  | '+' :: more => do
    let (run, rest) ← bare? more
    number? run rest
  | _ => do
    let (run, rest) ← bare? cs
    match String.ofList run with
    | "true" => some (.bool true, rest)
    | "false" => some (.bool false, rest)
    | "inf" | "nan" => numberOrDate? run rest
    | _ => if run.head?.any fun c => c == '-' || isDigit c then numberOrDate? run rest else none

end CallAtlas.Toml
