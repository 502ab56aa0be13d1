import CallAtlas.Registry.Basic

/-!
# Registry.Resolve — what a module specifier and a called name refer to

A plain name is looked for in the scopes around the caller, then among the imports of the file, then
among the exports of all files. A member call goes through the class of `this`, an import, or a
class.
-/

namespace CallAtlas

/-- Where an import specifier points. -/
inductive ModuleRef where
  /-- A file of the set. -/
  | file (path : String)
  /-- A relative or aliased path without a file behind it. -/
  | missing
  | package
deriving DecidableEq, Repr

namespace Registry

/-! ## Modules -/

/-- The directories of a path, without its last part. -/
def directories (path : String) : List String := (Text.split '/' path).dropLast

/-- Follows a relative path from a directory; `..` at the top is dropped. -/
def joinPath (dir relative : String) : String :=
  let start := (Text.split '/' dir).filter (· != "")
  Text.join "/" <| (Text.split '/' relative).foldl (fun parts part =>
    if part = "" || part = "." then parts
    else if part = ".." then parts.dropLast
    else parts ++ [part]) start

def isRelative (specifier : String) : Bool :=
  specifier == "." || specifier == ".." || Text.startsWith specifier "./" ||
    Text.startsWith specifier "../"

/-- Specifiers that start at the source root. -/
def aliasTarget? (specifier : String) : Option String :=
  Text.stripLead? "@/" specifier <|> Text.stripLead? "~/" specifier

/-- The path of a file without its last part. -/
def directoryOf (file : String) : String := ((Text.splitLast? '/' file).map (·.1)).getD ""

/-- The path that a specifier asks for, none for a package. -/
def requestedPath? (fromFile specifier : String) : Option String :=
  if isRelative specifier then some (joinPath (directoryOf fromFile) specifier)
  else aliasTarget? specifier

/-- The path without its module extension, if it has one. -/
def withoutExtension (path : String) : String := (moduleStem? path).getD path

/-- The shorter of two paths, the smaller one at equal length. -/
def shorter (a b : String) : String :=
  if b.utf8ByteSize < a.utf8ByteSize || (b.utf8ByteSize = a.utf8ByteSize && b < a) then b else a

/-- A module with exactly the requested name, else the shortest file whose module name ends with
it. -/
def resolveModule (r : Registry) (fromFile specifier : String) : ModuleRef :=
  match requestedPath? fromFile specifier with
  | none => .package
  | some base =>
    let stem := withoutExtension base
    let modules := r.modulesByName
    match modules.lookup stem with
    | some path => .file path
    | none =>
      match (modules.filter fun m => Text.endsWith m.1 ("/" ++ stem)).map (·.2) with
      | [] => .missing
      | first :: rest => .file (rest.foldl shorter first)

/-! ## Scopes -/

/-- The declaration around another one. -/
def outer? (r : Registry) (d : Declaration) : Option Declaration := d.enclosing.bind r.declaration?

/-- The declaration and those around it, from the inside out. -/
def scopeChain (r : Registry) : Nat → Declaration → List Declaration
  | 0, _ => []
  | fuel + 1, d =>
    d ::
      match r.outer? d with
      | none => []
      | some outer => scopeChain r fuel outer

/-- The scopes around a caller. No chain without repetition is longer than the bound. -/
def scopesOf (r : Registry) (caller : Declaration) : List Declaration :=
  r.scopeChain (r.declarations.length + 1) caller

/-- The class that `this` inside a caller refers to. -/
def owningClass? (r : Registry) (caller : Declaration) : Option String :=
  (r.scopesOf caller).findSome? (·.container)

/-- Among candidates, one nested in the first of the scopes that holds any, else a top-level one. -/
def closest (scopes candidates : List Declaration) : Option Declaration :=
  (scopes.findSome? fun s => candidates.find? (·.enclosing = some s.id))
    <|> candidates.find? (·.isTopLevel)

/-- Among candidates of the same file, the closest one as the scopes around the caller go. -/
def closestScope? (r : Registry) (caller : Declaration)
    (candidates : List Declaration) : Option Declaration :=
  closest (r.scopesOf caller) candidates

/-- Number of leading directories that two files share. -/
def sharedDirs (a b : String) : Nat :=
  (((directories a).zip (directories b)).takeWhile fun (x, y) => x == y).length

/-- The nearer of two candidates; at equal distance the smaller id. -/
def nearer (fromFile : String) (a b : Declaration) : Declaration :=
  let sa := sharedDirs fromFile a.filePath
  let sb := sharedDirs fromFile b.filePath
  if sb < sa || (sb = sa && a.id < b.id) then a else b

/-- The exported top-level declaration of any file that is nearest by path. -/
def closestGlobal? (r : Registry) (fromFile name : String) : Option Declaration :=
  match (r.named name).filter fun d => d.exported && d.kind != .typeDecl with
  | [] => none
  | first :: rest => some (rest.foldl (nearer fromFile) first)

/-! ## Calls -/

/-- The binding of a local name in the import of a module. -/
def importedBinding? (f : FileAnalysis) (module? : Option String) (localName : String) :
    Option ImportBinding := do
  let module ← module?
  (f.imports.filter fun i => i.source = module && !i.typeOnly).findSome? (·.binding? localName)

/-- A plain name that no scope around the caller holds: an import of the file, else an export of any
file. -/
def resolveFree? (r : Registry) (f : FileAnalysis) (name : String)
    (module? : Option String) : Option Declaration :=
  match module?, importedBinding? f module? name with
  | some module, some binding =>
    if binding.namespaced then none
    else
      match r.resolveModule f.filePath module with
      | .file target =>
        if binding.imported = "default" then r.defaultExportOf? target name
        else r.exportOf? target binding.imported
      | .package => none
      | .missing => r.closestGlobal? f.filePath name
  | _, _ => r.closestGlobal? f.filePath name

def resolvePlain? (r : Registry) (caller : Declaration) (f : FileAnalysis) (name : String)
    (module? : Option String) : Option Declaration :=
  match r.closestScope? caller (r.qualified f.filePath name) with
  | some d => some d
  | none => r.resolveFree? f name module?

/-- A static call on a class of the file, or on the only exported class with that name. -/
def resolveStatic? (r : Registry) (f : FileAnalysis)
    (receiver name : String) : Option Declaration :=
  let member := receiver ++ "." ++ name
  match (r.qualified f.filePath member).head? with
  | some d => some d
  | none =>
    match (r.named receiver).filter fun d => d.kind = .classDecl && d.exported with
    | [c] => (r.qualified c.filePath member).head?
    | _ => none

/-- A member of an import, or of a class. -/
def resolveReceiver? (r : Registry) (f : FileAnalysis) (receiver name : String)
    (module? : Option String) : Option Declaration :=
  if receiver.toList.contains '.' then none
  else
    match module?, importedBinding? f module? receiver with
    | some module, some binding =>
      match r.resolveModule f.filePath module with
      | .file target =>
        if binding.namespaced then r.exportOf? target name
        else
          let className := if binding.imported = "default" then receiver else binding.imported
          (r.qualified target (className ++ "." ++ name)).head? <|> r.exportOf? target name
      | .missing | .package => none
    | _, _ => r.resolveStatic? f receiver name

def resolveMember? (r : Registry) (caller : Declaration) (f : FileAnalysis) (receiver name : String)
    (module? : Option String) : Option Declaration :=
  if receiver = "this" then
    (r.owningClass? caller).bind fun c => (r.qualified f.filePath (c ++ "." ++ name)).head?
  else r.resolveReceiver? f receiver name module?

/-- The declaration that a call refers to; requests and database calls refer to none. -/
def resolveCall? (r : Registry) (caller : Declaration) (target : CallTarget)
    (module? : Option String) : Option Declaration :=
  match target with
  | .named name receiver => do
    let f ← r.file? caller.filePath
    match receiver with
    | none => r.resolvePlain? caller f name module?
    | some receiver => r.resolveMember? caller f receiver name module?
  | .http .. | .database .. => none

end Registry

end CallAtlas
