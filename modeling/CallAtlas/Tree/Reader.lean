import CallAtlas.Text.Basic
import CallAtlas.Tree.Node

/-!
# Tree.Reader — trees from their line listing

A listing has one node a line, in pre-order: depth, kind, start and end offset, then `:field` for
each field that leads to the node, `!` if it is not named and `?` if it was supplied by error
recovery. Offsets count the bytes of the source text.
-/

namespace CallAtlas.Tree

/-- A source text with what is needed to look up offsets. -/
structure SourceText where
  bytes : ByteArray
  /-- Number of line feeds before each offset. -/
  rows : Array Nat

namespace SourceText

def ofString (s : String) : SourceText :=
  let bytes := s.toUTF8
  let rows := bytes.foldl (fun (rows : Array Nat) b =>
    let row := rows.back?.getD 0
    rows.push (if b = 10 then row + 1 else row)) #[0]
  ⟨bytes, rows⟩

/-- The characters between two offsets, none if the cut splits a character. -/
def slice (t : SourceText) (start stop : Nat) : String :=
  (String.fromUTF8? (t.bytes.extract start stop)).getD ""

/-- The line of an offset, counted from one. -/
def lineAt (t : SourceText) (offset : Nat) : Nat := t.rows.getD offset 0 + 1

end SourceText

/-- The mark at the end of a listing line. -/
def Label.mark (l : Label) (word : String) : Label :=
  match word.toList with
  | ':' :: field => { l with fields := l.fields ++ [.ofList field] }
  | ['!'] => { l with named := false }
  | ['?'] => { l with missing := true }
  | _ => l

/-- Depth and label of one line of a listing. -/
def Label.ofLine? (source : SourceText) (line : String) : Option (Nat × Label) :=
  match Text.split ' ' line with
  | depth :: kind :: start :: stop :: marks => do
    let depth ← depth.toNat?
    let start ← start.toNat?
    let stop ← stop.toNat?
    let label : Label :=
      { kind, start, stop, text := source.slice start stop, line := source.lineAt start,
        endLine := source.lineAt stop }
    some (depth, marks.foldl Label.mark label)
  | _ => none

/-- Puts a line before a forest that is already built: the trees one level deeper that follow it
directly are its children. -/
def graft (line : Nat × Label) (forest : List (Nat × Node)) : List (Nat × Node) :=
  let isChild := fun (t : Nat × Node) => t.1 == line.1 + 1
  (line.1, .mk line.2 ((forest.takeWhile isChild).map (·.2))) :: forest.dropWhile isChild

/-- The tree that a listing describes, over its source text. -/
def Node.ofListing? (source listing : String) : Option Node := do
  let source := SourceText.ofString source
  let lines ← (Text.split '\n' listing).mapM (Label.ofLine? source)
  (lines.foldr graft []).head?.map (·.2)

end CallAtlas.Tree
