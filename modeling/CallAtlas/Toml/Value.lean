import CallAtlas.Json.Basic

/-!
# Toml.Value — values of a settings file

A key may be written twice in a table; whoever reads the table decides what to make of that.
-/

namespace CallAtlas.Toml

inductive Value where
  | str (s : String)
  | int (i : Int)
  | float (f : Float)
  | bool (b : Bool)
  /-- Dates and times are not interpreted. -/
  | date
  | array (items : List Value)
  | table (entries : List (String × Value))
  /-- A table that came about through a dotted key; further dotted keys extend it. -/
  | dotted (entries : List (String × Value))

namespace Value

mutual

/-- The value in the exchange format, with repeated members kept. A date is an object without
members that anyone asks for. -/
def toJson : Value → Json
  | str s => .str s
  | int i => if i < 0 then .num (.negative i.natAbs) else .ofNat i.natAbs
  | float f => .ofFloat f
  | bool b => .bool b
  | date => .obj []
  | array items => .arr (itemsToJson items)
  | table entries => .obj (entriesToJson entries)
  | dotted entries => .obj (entriesToJson entries)

def itemsToJson : List Value → List Json
  | [] => []
  | v :: rest => v.toJson :: itemsToJson rest

def entriesToJson : List (String × Value) → List (String × Json)
  | [] => []
  | (k, v) :: rest => (k, v.toJson) :: entriesToJson rest

end

/-- Adds a value under a dotted key. A part of the key may only lead through tables that dotted keys
made. -/
def insert (value : Value) : List String → List (String × Value) → Option (List (String × Value))
  | [], entries => some entries
  | [key], entries => some (entries ++ [(key, value)])
  | key :: k :: keys, entries =>
    match entries.lookup key with
    | none => do
      let below ← insert value (k :: keys) []
      return entries ++ [(key, .dotted below)]
    | some (.dotted below) => do
      let below ← insert value (k :: keys) below
      return replaceFirst key (.dotted below) entries
    | some _ => none
where
  /-- The first entry with the key gets another value. -/
  replaceFirst (key : String) (v : Value) : List (String × Value) → List (String × Value)
    | [] => []
    | (k, w) :: rest => if k = key then (k, v) :: rest else (k, w) :: replaceFirst key v rest

end Value

end CallAtlas.Toml
