import CallAtlas.Text.Basic
import CallAtlas.Code.Call

/-!
# Route.Pattern — route files and the requests they serve

The file `app/api/users/[id]/route.ts` serves `/api/users/<anything>`. Route groups such as
`(admin)` are not part of the address. Both sides are compared from their first `api` segment on.
-/

namespace CallAtlas

inductive RouteSegment where
  | literal (text : String)
  /-- Written `[id]`: any one segment. -/
  | param
  /-- Written `[...slug]`: one or more segments, or none too if it is optional (`[[...slug]]`). -/
  | catchAll (isOptional : Bool)
deriving DecidableEq, Repr

namespace RouteSegment

/-- The segment that a directory name stands for. -/
def ofDirectory (dir : String) : RouteSegment :=
  if Text.startsWith dir "[[..." && Text.endsWith dir "]]" then .catchAll true
  else if Text.startsWith dir "[..." && Text.endsWith dir "]" then .catchAll false
  else if Text.startsWith dir "[" && Text.endsWith dir "]" then .param
  else .literal dir

def isDynamic : RouteSegment → Bool
  | .literal _ => false
  | .param | .catchAll _ => true

/-- The segment as it is shown. -/
def render : RouteSegment → String
  | .literal text => "/" ++ text
  | .param => "/[param]"
  | .catchAll false => "/[...rest]"
  | .catchAll true => "/[[...rest]]"

end RouteSegment

structure RoutePattern where
  segments : List RouteSegment
deriving DecidableEq, Repr

namespace RoutePattern

def extensions : List String := ["ts", "tsx", "js", "jsx", "mjs"]

/-- A directory in parentheses groups routes and is not part of the address. -/
def isGroup (dir : String) : Bool := Text.startsWith dir "(" && Text.endsWith dir ")"

/-- The pattern of a route file. -/
def ofFile? (path : String) : Option RoutePattern := do
  let parts := Text.split '/' path
  let (stem, ext) ← Text.splitLast? '.' (← parts.getLast?)
  if stem = "route" ∧ ext ∈ extensions then
    match parts.dropLast.dropWhile (· != "api") with
    | [] => none
    | dirs => some ⟨(dirs.filter (!isGroup ·)).map RouteSegment.ofDirectory⟩
  else none

/-- How many segments of a request are left at a position; none if the position lies behind the
end. -/
def left? (request : List String) (position : Nat) : Option Nat :=
  if position ≤ request.length then some (request.length - position) else none

/-- Whether segments serve a request from a position on. A catch-all counts only at the end. There
is no answer if one is met where nothing can be left. -/
def servesFrom? (request : List String) : List RouteSegment → Nat → Option Bool
  | [], i => some (i == request.length)
  | .literal text :: rest, i =>
    if request[i]? = some text then servesFrom? request rest (i + 1) else some false
  | .param :: rest, i => if i < request.length then servesFrom? request rest (i + 1) else some false
  | .catchAll isOptional :: rest, i =>
    (left? request i).map fun left => rest.isEmpty && (decide (0 < left) || isOptional)

def serves (p : RoutePattern) (request : List String) : Bool :=
  (servesFrom? request p.segments 0).getD false

def dynamicSegments (p : RoutePattern) : Nat := p.segments.countP (·.isDynamic)

def render (p : RoutePattern) : String := p.segments.foldl (fun s seg => s ++ seg.render) ""

end RoutePattern

/-! ## Requests -/

namespace Request

/-- What follows the first `://`, if there is one. -/
def afterScheme? : List Char → Option (List Char)
  | [] => none
  | ':' :: '/' :: '/' :: rest => some rest
  | _ :: cs => afterScheme? cs

/-- The address without scheme and host. -/
def withoutOrigin (url : List Char) : List Char :=
  match afterScheme? url with
  | none => url
  | some rest => rest.dropWhile (· != '/')

/-- The address without query and fragment. -/
def pathPart (url : List Char) : List Char :=
  (withoutOrigin url).takeWhile fun c => c != '?' && c != '#'

/-- The segments of an address from the first `api` on; none if the address is dynamic or has no
such segment. -/
def segments? (url : String) : Option (List String) :=
  if url = CallTarget.dynamicPath then none
  else
    let parts := ((pathPart url.toList).splitOn '/').filter (!·.isEmpty)
    match (parts.map String.ofList).dropWhile (· != "api") with
    | [] => none
    | found => some found

end Request

end CallAtlas
