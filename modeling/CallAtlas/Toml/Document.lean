import CallAtlas.Toml.Scalar

/-!
# Toml.Document — reading a settings file

A document is a list of sections: a header and the entries below it. `Document.toTable?` joins the
sections into one table. A header may be written once, unless it starts one more element of an array
of tables.
-/

namespace CallAtlas.Toml

/-! ## Lines -/

/-- Skips blanks, line breaks and comments. A comment holds no control characters. -/
def skipGap? (inComment : Bool) : List Char → Option (List Char)
  | [] => some []
  | c :: cs =>
    if inComment then
      if c = '\n' then skipGap? false cs
      else if c = '\t' ∨ 32 ≤ c.toNat then skipGap? true cs
      else none
    else if isBlank c ∨ c = '\n' then skipGap? false cs
    else if c = '#' then skipGap? true cs
    else some (c :: cs)

/-- The end of a line after blanks and a comment. -/
def lineEnd? (cs : List Char) : Option (List Char) :=
  let cs := dropBlanks cs
  let cs := match cs with
    | '#' :: rest => rest.dropWhile fun c => c == '\t' || 32 ≤ c.toNat
    | _ => cs
  match cs with
  | [] => some []
  | '\n' :: rest => some rest
  | _ => none

/-! ## Values -/

mutual

def value? : Nat → List Char → Option (Value × List Char)
  | 0, _ => none
  | fuel + 1, cs =>
    match cs with
    | '[' :: rest => (array? fuel rest).map fun (items, rest) => (.array items, rest)
    | '\x7b' :: rest =>
      match dropBlanks rest with
      | '\x7d' :: rest => some (.table [], rest)
      | rest => (inline? fuel [] rest).map fun (entries, rest) => (.table entries, rest)
    | '"' :: _ | '\'' :: _ => (string? cs).map fun (s, _, rest) => (.str s, rest)
    | _ => plain? cs

/-- The elements of an array after its opening bracket or a comma. -/
def array? : Nat → List Char → Option (List Value × List Char)
  | 0, _ => none
  | fuel + 1, cs =>
    match skipGap? false cs with
    | none => none
    | some (']' :: rest) => some ([], rest)
    | some cs =>
      match value? fuel cs with
      | none => none
      | some (v, rest) =>
        match skipGap? false rest with
        | some (',' :: rest) => (array? fuel rest).map fun (vs, rest) => (v :: vs, rest)
        | some (']' :: rest) => some ([v], rest)
        | _ => none

/-- The entries of an inline table, of which there is at least one more. -/
def inline? : Nat → List (String × Value) → List Char → Option (List (String × Value) × List Char)
  | 0, _, _ => none
  | fuel + 1, entries, cs =>
    match key? (cs.length + 1) cs with
    | some (key, '=' :: rest) =>
      match value? fuel (dropBlanks rest) with
      | none => none
      | some (v, rest) =>
        match Value.insert v key entries, dropBlanks rest with
        | some entries, '\x7d' :: rest => some (entries, rest)
        | some entries, ',' :: rest => inline? fuel entries (dropBlanks rest)
        | _, _ => none
    | _ => none

end

/-! ## Sections -/

structure Section where
  header : List String := []
  /-- The header is in double brackets. -/
  isArray : Bool := false
  entries : List (String × Value) := []

abbrev Document := List Section

/-- A header after its first bracket. -/
def header? (cs : List Char) : Option (Section × List Char) := do
  let (isArray, cs) := match cs with
    | '[' :: rest => (true, rest)
    | _ => (false, cs)
  let (header, rest) ← key? (cs.length + 1) cs
  let rest ← Text.dropLead? (if isArray then [']', ']'] else [']']) rest
  return ({ header, isArray }, ← lineEnd? rest)

/-- An entry with the rest after its line. -/
def entry? (cs : List Char) : Option (List String × Value × List Char) := do
  let (key, rest) ← key? (cs.length + 1) cs
  let rest ← Text.dropLead? ['='] rest
  let rest := dropBlanks rest
  let (v, rest) ← value? (rest.length + 1) rest
  return (key, v, ← lineEnd? rest)

/-- Reads lines into the section that is open, if one is. -/
def sections? : Nat → Option Section → List Char → Option Document
  | 0, _, _ => none
  | fuel + 1, current, cs =>
    match skipGap? false cs with
    | none => none
    | some [] => some current.toList
    | some ('[' :: rest) =>
      match header? rest with
      | none => none
      | some (next, rest) => (sections? fuel (some next) rest).map (current.toList ++ ·)
    | some cs =>
      match entry? cs with
      | none => none
      | some (key, v, rest) =>
        let open_ := current.getD {}
        match Value.insert v key open_.entries with
        | none => none
        | some entries => sections? fuel (some { open_ with entries }) rest

/-- Line breaks become single line feeds, and a byte order mark at the front is dropped. -/
def normalize (text : String) : List Char :=
  let rec fold : List Char → List Char
    | '\r' :: '\n' :: cs => '\n' :: fold cs
    | c :: cs => c :: fold cs
    | [] => []
  let cs := fold text.toList
  (Text.dropLead? [Char.ofNat 0xFEFF] cs).getD cs

namespace Document

def parse? (text : String) : Option Document :=
  let cs := normalize text
  sections? (cs.length + 1) none cs

/-! ## Joining sections -/

/-- The first section from `first` on and before `last` that is not yet used and has the lead of a
header. -/
def next? (doc : Array Section) (lead : List String) (used : List Nat)
    (first last : Nat) : Option Nat :=
  (List.range last).find? fun i =>
    first ≤ i && !used.contains i && doc[i]?.any fun s => s.header.take lead.length == lead

/-- The next section with the same header in double brackets, or else `last`. -/
def nextElement (doc : Array Section) (i last : Nat) : Nat :=
  let same := (List.range last).find? fun j =>
    i < j && doc[j]?.any fun s => s.isArray && doc[i]?.any (·.header == s.header)
  same.getD last

mutual

/-- The entries of the table at the first `depth` parts of the header of section `parent`, with the
sections that are used up. Sections before `last` count. -/
def tableAt (doc : Array Section) :
    Nat → (depth parent first last : Nat) → List Nat → List (String × Value) →
      Option (List (String × Value) × List Nat)
  | 0, _, _, _, _, _, _ => none
  | fuel + 1, depth, parent, first, last, used, entries =>
    if parent = last ∨ first = last then some (entries, used)
    else
      let parentHeader := (doc[parent]?.map (·.header)).getD []
      match next? doc (parentHeader.take depth) used first last with
      | none => some (entries, used)
      | some i =>
        let s := doc[i]?.getD {}
        if parent ≠ i ∧ parentHeader = s.header then none
        else
          let parent := if parent ≠ i ∧ s.header.length < parentHeader.length then i else parent
          match s.header.drop depth with
          | [] =>
            if s.isArray then none
            else tableAt doc fuel depth parent i last (i :: used) (entries ++ s.entries)
          | key :: deeper =>
            if s.isArray && deeper.isEmpty then
              match arrayAt doc fuel depth i last used [] with
              | none => none
              | some (items, used) =>
                tableAt doc fuel depth parent (i + 1) last used (entries ++ [(key, .array items)])
            else
              match tableAt doc fuel (depth + 1) i 0 last used [] with
              | none => none
              | some (below, used) =>
                tableAt doc fuel depth parent (i + 1) last used (entries ++ [(key, .table below)])

/-- The elements of an array of tables from section `parent` on. -/
def arrayAt (doc : Array Section) :
    Nat → (depth parent last : Nat) → List Nat → List Value → Option (List Value × List Nat)
  | 0, _, _, _, _, _ => none
  | fuel + 1, depth, parent, last, used, items =>
    if parent = last then some (items, used)
    else
      let next := nextElement doc parent last
      let own := (doc[parent]?.map (·.entries)).getD []
      match tableAt doc fuel (depth + 1) parent 0 next (parent :: used) own with
      | none => none
      | some (below, used) => arrayAt doc fuel depth next last used (items ++ [.table below])

end

/-- All sections as one table. Each step uses up a section or goes one part deeper into a header. -/
def toTable? (doc : Document) : Option (List (String × Value)) :=
  let fuel := doc.foldl (fun n s => n + (2 * s.header.length + 3)) 2
  (tableAt doc.toArray fuel 0 0 0 doc.length [] []).map (·.1)

end Document

/-- The table of a settings file, none if it is not well-formed. -/
def parse? (text : String) : Option Value :=
  ((Document.parse? text).bind Document.toTable?).map .table

end CallAtlas.Toml
