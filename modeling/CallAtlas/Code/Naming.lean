import CallAtlas.Code.Declaration
import CallAtlas.Code.Call

/-!
# Code.Naming — what a name tells about a declaration

These conventions concern ASCII letters only: a name that starts with another letter follows none of
them.
-/

namespace CallAtlas.Naming

/-- The word `use` followed by a capital letter or a digit. -/
def isHook (name : String) : Bool :=
  match name.toList with
  | 'u' :: 's' :: 'e' :: c :: _ => Text.isUpper c || Text.isDigit c
  | _ => false

/-- A capital first letter and some small letter. -/
def isPascalCase (name : String) : Bool :=
  (name.toList.head?).any Text.isUpper && name.toList.any Text.isLower

/-- A callable whose name is that of a request method, in capitals. -/
def isMethodHandler (d : Declaration) : Bool :=
  d.kind.isCallable && (HttpMethod.parse? d.name).any fun m => m.name == d.name

end CallAtlas.Naming
