import CallAtlas.Json.Record
import CallAtlas.Source
import CallAtlas.Tree.Reader

/-!
# Source.Codec — the exchange form of source files

A file is an object with its `path`, its `content` and the listing of its syntax tree, which is left
out for a file that is in no known language.
-/

namespace CallAtlas.SourceFile

def ofJson? (j : Json) : Option SourceFile := do
  let path ← (← j.member? "path").string?
  let content ← (← j.member? "content").string?
  let listing ← match j.member? "tree" with
    | none | some .null => some ""
    | some v => v.string?
  return { path, content,
           tree := (Tree.Node.ofListing? content listing).getD (.mk { kind := "program" } []) }

end CallAtlas.SourceFile
