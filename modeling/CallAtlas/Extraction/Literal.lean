import CallAtlas.Code.Call
import CallAtlas.Tree.Node

/-!
# Extraction.Literal — strings and addresses written in the source

A template literal is read with each `${...}` as `:param`. An address is a literal or a
concatenation; parts that are not literals count as `:param`, and an address without any literal
part is dynamic.
-/

namespace CallAtlas.Extraction

open CallAtlas.Tree

/-- The text without the quotes around it. -/
def unquote (s : String) : String :=
  Text.trimChars (fun c => c == '"' || c == '\'' || c == '\x60') s

/-- Copies a template; `skipping` is set inside a substitution, which ends at the first closing
brace. -/
def paramsFrom (skipping : Bool) : List Char → List Char
  | [] => []
  | c :: cs =>
    if skipping then paramsFrom (c != '}') cs
    else if c = '$' && cs.head? == some '{' && cs.contains '}' then
      ":param".toList ++ paramsFrom true cs
    else c :: paramsFrom false cs

/-- The template with its substitutions as `:param`. -/
def withParams (s : String) : String := .ofList (paramsFrom false s.toList)

/-- The text of a string or template literal. -/
def literalText? (n : Node) : Option String :=
  match n.kind with
  | "string" => some (unquote n.text)
  | "template_string" => some (withParams (unquote n.text))
  | _ => none

mutual

/-- The text of an address and whether some part of it is literal. -/
def addressParts : Node → String × Bool
  | .mk label children =>
    match literalText? (.mk label children) with
    | some text => (text, true)
    | none =>
      if label.kind = "binary_expression" then
        match operandParts "left" children, operandParts "right" children with
        | some (l, lit), some (r, rit) => (l ++ r, lit || rit)
        | _, _ => (":param", false)
      else (":param", false)

/-- The parts of the operand that fills a field. -/
def operandParts (field : String) : List Node → Option (String × Bool)
  | [] => none
  | n :: rest => if n.fills field then some (addressParts n) else operandParts field rest

end

/-- The address that an expression denotes. -/
def addressOf (n : Node) : String :=
  match addressParts n with
  | (url, true) => url
  | (_, false) => CallTarget.dynamicPath

end CallAtlas.Extraction
