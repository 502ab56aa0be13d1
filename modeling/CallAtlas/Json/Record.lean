import CallAtlas.Json.Basic

/-!
# Json.Record — reading values of the data model

A record is written as an object or, with its fields in order, as an array. A field may be required,
may be absent, or may have a default. Members that no field asks for are ignored, while a field must
not be written twice and an array must not have elements left over. A variant without data is
written as its name, or as an object whose only member has that name and an empty value.
-/

namespace CallAtlas.Json

/-! ## Plain values -/

def bool? : Json → Option Bool
  | .bool b => some b
  | _ => none

def string? : Json → Option String
  | .str s => some s
  | _ => none

/-- A whole number of at most 64 bits. -/
def nat? : Json → Option Nat
  | .num (.natural n) => some n
  | _ => none

def float? : Json → Option Float
  | .num n => some n.toFloat
  | _ => none

def list? {α : Type} (item : Json → Option α) : Json → Option (List α)
  | .arr xs => xs.mapM item
  | _ => none

/-- The value `null` is the absent value. -/
def option? {α : Type} (item : Json → Option α) : Json → Option (Option α)
  | .null => some none
  | j => (item j).map some

/-- A variant without data, by its name. -/
def variant? {α : Type} (isEmpty : Json → Bool) (names : List (String × α)) : Json → Option α
  | .str s => names.lookup s
  | .obj [(s, v)] => if isEmpty v then names.lookup s else none
  | _ => none

def isNull : Json → Bool
  | .null => true
  | _ => false

/-! ## Records -/

/-- What is left to read of a record. -/
inductive Record where
  | named (members : List (String × Json))
  | positional (items : List Json)

namespace Record

/-- Reads fields one after the other. -/
abbrev Reader (α : Type) := StateT Record Option α

/-- The next field: `some none` when it is not written, `none` when it is written and cannot be
read. -/
def next? {α : Type} (name : String) (item : Json → Option α) : Reader (Option α)
  | .named members =>
    match members.filter (·.1 == name) with
    | [] => some (none, .named members)
    | [(_, v)] => (item v).map fun a => (some a, .named members)
    | _ => none
  | .positional [] => some (none, .positional [])
  | .positional (v :: rest) => (item v).map fun a => (some a, .positional rest)

/-- A field that must be written. -/
def required {α : Type} (name : String) (item : Json → Option α) : Reader α := do
  match ← next? name item with
  | some a => pure a
  | none => failure

/-- A field with a default. -/
def withDefault {α : Type} (name : String) (default : α) (item : Json → Option α) : Reader α := do
  return (← next? name item).getD default

/-- A field that may be absent or `null`. -/
def optional {α : Type} (name : String) (item : Json → Option α) : Reader (Option α) :=
  withDefault name none (option? item)

/-- A field that may be absent or `null` in an object, and is always written in an array. -/
def nullable {α : Type} (name : String) (item : Json → Option α) : Reader (Option α) := fun r =>
  match r with
  | .positional [] => none
  | r => optional name item r

/-- Reads a whole record. -/
def read? {α : Type} (fields : Reader α) : Json → Option α
  | .obj members => (fields (.named members)).map (·.1)
  | .arr items =>
    match fields (.positional items) with
    | some (a, .positional []) => some a
    | _ => none
  | _ => none

end Record

end CallAtlas.Json
