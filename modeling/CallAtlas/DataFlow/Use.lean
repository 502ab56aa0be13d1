import CallAtlas.DataFlow.Basic
import CallAtlas.Extraction.Chain
import CallAtlas.Text.Blank

/-!
# DataFlow.Use — how an expression produces or consumes a value

The kind of a source is read off the expression that gives the value. The kind of a destination is
found on the way up from a use to the nearest construct that consumes it.
-/

namespace CallAtlas.DataFlow

open CallAtlas.Tree Extraction

/-- The first line of an expression, shortened. -/
def detail (c : Cursor) : String := Text.shorten 80 80 "…" (Text.trim (Text.firstLine c.text))

/-- Expressions that pass the value of their first part on. -/
def passesOn (kind : String) : Bool :=
  kind == "await_expression" || kind == "parenthesized_expression" || kind == "non_null_expression"
    || kind == "as_expression" || kind == "satisfies_expression"

/-- Number of wrapping expressions, or levels of a pattern, that are looked through. -/
def maxUnwrap : Nat := 8

/-- The expression inside awaits, parentheses and assertions. -/
def unwrapValue (c : Cursor) : Cursor :=
  let spine := c.spine fun n => if passesOn n.kind then some .firstNamed else none
  (spine.take (maxUnwrap + 1)).getLastD c

/-! ## Occurrences -/

/-- Kinds of the nodes that name a variable. -/
def isVariable (kind : String) : Bool :=
  kind == "identifier" || kind == "shorthand_property_identifier" ||
    kind == "shorthand_property_identifier_pattern"

def isOccurrence (identifier : String) (n : Node) : Bool :=
  isVariable n.kind && n.text == identifier

/-- Whether a pattern or parameter binds the identifier. -/
def binds (identifier : String) : Nat → Node → Bool
  | 0, _ => false
  | depth + 1, n =>
    let part (field : String) : Bool :=
      (n.children.find? (·.fills field)).any (binds identifier depth)
    match n.kind with
    | "identifier" | "shorthand_property_identifier_pattern" => isOccurrence identifier n
    | "required_parameter" | "optional_parameter" => part "pattern"
    | "assignment_pattern" | "object_assignment_pattern" => part "left"
    | "pair_pattern" => part "value"
    | "object_pattern" | "array_pattern" | "rest_pattern" =>
      (n.children.filter (·.isNamed)).any (binds identifier depth)
    | _ => false

/-- Whether an occurrence introduces the variable instead of reading it. -/
def isBindingSite (c : Cursor) : Bool :=
  c.kind == "shorthand_property_identifier_pattern" ||
    match c.parentKind? with
    | none => false
    | some parent =>
      match parent with
      | "variable_declarator" => c.node.fills "name"
      | "required_parameter" | "optional_parameter" => c.node.fills "pattern"
      | "assignment_pattern" | "object_assignment_pattern" | "assignment_expression"
      | "augmented_assignment_expression" => c.node.fills "left"
      | "pair_pattern" => c.node.fills "value"
      | "arrow_function" => c.node.fills "parameter"
      | "formal_parameters" | "array_pattern" | "rest_pattern" | "function_declaration"
      | "class_declaration" | "import_specifier" | "import_clause" | "namespace_import" => true
      | _ => false

/-! ## Sources -/

def stateHooks : List String := ["useState", "useReducer", "useContext", "useStore"]

def urlHooks : List String := ["useParams", "useSearchParams", "useRouter", "useLocation"]

def storages : List String := ["localStorage", "sessionStorage"]

/-- The kind of a call of a name; where nothing is known of the name it is to be linked. -/
def namedCallSource (name : String) (receiver : Option String) : SourceKind × Option String :=
  if stateHooks.contains name then (.state, none)
  else if urlHooks.contains name then (.urlParam, none)
  else if receiver.any storages.contains then (.localStorage, none)
  else if name == "json" && receiver.isSome then (.apiResponse, none)
  else (.computed, some name)

def callSource (settings : ExtractionSettings) (call : Cursor) : SourceKind × Option String :=
  match CallShape.of settings call with
  | .plain (.http ..) => (.apiResponse, none)
  | .plain (.database ..) | .chain (.database ..) _ => (.database, none)
  | .plain (.named name receiver) => namedCallSource name receiver
  | .chain .. | .unrecorded => (.computed, none)

def memberSource (text : String) : SourceKind :=
  if Text.contains text "target.value" || Text.contains text "target.checked" then .userInput
  else if Text.contains text "searchParams" || Text.contains text "query" ||
    Text.startsWith text "params" then
    .urlParam
  else if Text.startsWith text "props." then .parameter
  else .computed

/-- The kind of a value and, for a call of a name, that name. -/
def sourceKind (settings : ExtractionSettings) (value : Cursor) : SourceKind × Option String :=
  match value.kind with
  | "call_expression" => callSource settings value
  | "member_expression" | "subscript_expression" => (memberSource value.text, none)
  | "string" | "number" | "true" | "false" | "null" | "undefined" | "regex" => (.constant, none)
  | "template_string" =>
    (if value.namedChildren.any (·.kind == "template_substitution") then
      .computed else .constant, none)
  | "identifier" => (.alias, none)
  | _ => (.computed, none)

/-! ## Destinations -/

/-- What consumes a value, where, and the called name for an argument. -/
structure Sink where
  kind : DestinationKind
  site : Cursor
  callee : Option String := none

/-- A call on the way up: a sink of its own, a call of a name, or nothing. -/
inductive CallUse where
  | sink (kind : DestinationKind)
  | argumentOf (name : String)
  | other

/-- The word `set` followed by a capital letter. -/
def isStateSetter (name : String) : Bool :=
  match name.toList with
  | 's' :: 'e' :: 't' :: c :: _ => Text.isUpper c
  | _ => false

def callUse (settings : ExtractionSettings) (call : Cursor) : CallUse :=
  match CallShape.of settings call with
  | .plain (.http ..) => .sink .apiRequest
  | .plain (.database ..) | .chain (.database ..) _ => .sink .database
  | .plain (.named name receiver) =>
    if receiver.any storages.contains && name == "setItem" then .sink .localStorage
    else if receiver == some "console" then .sink .log
    else if receiver.isNone && isStateSetter name then .sink .stateUpdate
    else .argumentOf name
  | .chain .. | .unrecorded => .other

/-- Constructs above which a value is not followed. -/
def isBarrier (kind : String) : Bool :=
  ["expression_statement", "lexical_declaration", "variable_declaration", "statement_block",
    "if_statement", "for_statement", "while_statement", "arrow_function", "function_declaration",
      "program"].contains kind

def argumentSink : Cursor × String → Sink
  | (call, name) => ⟨.argument, call, some name⟩

/-- Goes up from a node, with the innermost call of a name seen so far. Any other sink outranks that
call, so the body of a request is a request also when it is built by a call. -/
def sinkAbove (settings : ExtractionSettings) :
    Nat → Cursor → Option (Cursor × String) → Option Sink
  | 0, _, argument => argument.map argumentSink
  | fuel + 1, c, argument =>
    match c.parent? with
    | none => none
    | some p =>
      if p.kind == "jsx_expression" then some ⟨.uiDisplay, p, none⟩
      else if p.kind == "call_expression" && c.node.fills "arguments" then
        match callUse settings p with
        | .sink kind => some ⟨kind, p, none⟩
        | .argumentOf name => sinkAbove settings fuel p (argument <|> some (p, name))
        | .other => sinkAbove settings fuel p argument
      else if p.kind == "return_statement" then
        some ((argument.map argumentSink).getD ⟨.returned, p, none⟩)
      else if (p.kind == "variable_declarator" || p.kind == "assignment_expression") &&
        argument.isNone
          && !c.node.fills "name" && !c.node.fills "left" then
        some ⟨.derived, p, none⟩
      else if isBarrier p.kind then argument.map argumentSink
      else sinkAbove settings fuel p argument

/-- What consumes the value of an occurrence, at most sixteen levels above it. -/
def sinkOf (settings : ExtractionSettings) (c : Cursor) : Option Sink :=
  sinkAbove settings 16 c none

end CallAtlas.DataFlow
