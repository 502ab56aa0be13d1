import CallAtlas.Code.Declaration
import CallAtlas.Error
import CallAtlas.Feature.Basic
import CallAtlas.Regex.Limit

/-!
# Feature.Rule — from identifiers to features

Rules form an ordered table. Every rule that matches contributes its features, so one file can serve
several of them; the order of the table is the order of the result.
-/

namespace CallAtlas

/-- A path or a name that is mapped to features. -/
inductive Identifier where
  | path (text : String)
  | name (text : String)
deriving DecidableEq, Repr

namespace Identifier

def text : Identifier → String
  | path t => t
  | name t => t

/-- Whether rules of this scope look at the identifier. -/
def isIn (i : Identifier) (scope : MatchScope) : Bool :=
  match scope, i with
  | .any, _ | .path, .path _ | .name, .name _ => true
  | .path, .name _ | .name, .path _ => false

end Identifier

structure FeatureRule where
  /-- The pattern as written. -/
  pattern : String
  regex : Regex
  features : List String
  scope : MatchScope
deriving DecidableEq, Repr

namespace FeatureRule

/-- A rule from its text; letters match in either case. -/
def compile (t : FeatureRuleText) : Except AnalysisError FeatureRule :=
  match Regex.compile? { ignoreCase := true } t.pattern with
  | some regex => .ok ⟨t.pattern, regex, t.features, t.scope⟩
  | none => .error (.badPattern t.pattern)

def applies (r : FeatureRule) (i : Identifier) : Bool := i.isIn r.scope && r.regex.isMatch i.text

/-- The features of a rule, each found by its pattern. -/
def found (r : FeatureRule) : List Feature := r.features.map fun f => ⟨f, [r.pattern]⟩

/-- The built-in table. Rules for several features come first. -/
def builtIn : List FeatureRuleText :=
  [⟨"useauth", ["login", "signup", "profile"], .any⟩,
    ⟨"auth\\.ts", ["login", "signup", "profile", "authentication"], .path⟩,
    ⟨"session", ["login", "authentication"], .any⟩,
    ⟨"authprovider", ["login", "signup", "profile"], .any⟩,
    ⟨"login|signin|sign-in", ["login"], .any⟩,
    ⟨"signup|sign-up|register|registration", ["signup"], .any⟩,
    ⟨"logout|signout|sign-out", ["logout"], .any⟩,
    ⟨"profile|user-info|userinfo|account", ["profile"], .any⟩,
    ⟨"auth|authorize|token|session", ["authentication"], .any⟩,
    ⟨"dashboard|home|main|overview", ["dashboard"], .any⟩,
    ⟨"setting|config|preference", ["settings"], .any⟩,
    ⟨"mermaid|diagram|visualization|flowchart|graph|logic-flow|call-graph",
      ["visualization"], .any⟩,
    ⟨"issue|ticket|bug|task", ["issues"], .any⟩,
    ⟨"repo|project", ["repository"], .any⟩,
    ⟨"search|find|query", ["search"], .any⟩,
    ⟨"notification|alert|toast", ["notifications"], .any⟩,
    -- A profile is not a file.
    ⟨"(?:^|[^o])file|upload|download|attachment", ["files"], .any⟩,
    ⟨"comment|reply|discussion", ["comments"], .any⟩]

end FeatureRule

/-- A table of rules. -/
structure FeatureTable where
  rules : List FeatureRule
deriving DecidableEq, Repr

namespace FeatureTable

/-- The table of some rules, the built-in one if there are none. The first pattern that cannot be
read is the error. -/
def build (rules : List FeatureRuleText) : Except AnalysisError FeatureTable :=
  (FeatureTable.mk ·) <$> (if rules.isEmpty then
    FeatureRule.builtIn else rules).mapM FeatureRule.compile

def featuresOf (t : FeatureTable) (i : Identifier) : List Feature :=
  Feature.merge ((t.rules.filter (·.applies i)).map (·.found))

/-- The features of several identifiers. -/
def featuresOfAll (t : FeatureTable) (is : List Identifier) : List Feature :=
  Feature.merge (is.map t.featuresOf)

/-- The features of the file and the name of a declaration. -/
def featuresOfDeclaration (t : FeatureTable) (d : Declaration) : List Feature :=
  t.featuresOfAll [.path d.filePath, .name d.name]

end FeatureTable

end CallAtlas
