import CallAtlas.Settings.Basic
import CallAtlas.Text.Basic

/-!
# Error — why a file, a query or settings are refused

None of these ends a whole analysis: a refused file is left out, and a refused query is answered
with the error.
-/

namespace CallAtlas

/-- Why a file cannot be read. -/
inductive FileProblem where
  | missing
  /-- A file stands where a path has a directory. -/
  | notDirectory
  | isDirectory
deriving DecidableEq, Repr

namespace FileProblem

def message : FileProblem → String
  | missing => "No such file or directory (os error 2)"
  | notDirectory => "Not a directory (os error 20)"
  | isDirectory => "Is a directory (os error 21)"

end FileProblem

inductive AnalysisError where
  | fileTooLarge (path : String) (bytes limit : Nat)
  | unsupportedLanguage (path : String)
  | notFound (query : String)
  | ambiguousTarget (query : String) (candidates : List String)
  | badSettings (problem : Settings.Problem)
  | badPattern (pattern : String)
  /-- The settings file is not well-formed, or a value has the wrong type. -/
  | badSettingsText
  | unreadableSettings (problem : FileProblem)
deriving DecidableEq, Repr

namespace AnalysisError

def message : AnalysisError → String
  | fileTooLarge path bytes limit =>
    "skipped " ++ path ++ ": " ++ Text.decimal bytes ++ " bytes exceeds the " ++
      Text.decimal limit ++ " byte limit"
  | unsupportedLanguage path => "unsupported language for " ++ path
  | notFound query => "declaration not found: " ++ query
  | ambiguousTarget query candidates =>
    "'" ++ query ++ "' matches several declarations: " ++ Text.join ", " candidates
  | badSettings problem => "configuration error: " ++ problem.message
  | badPattern pattern => "invalid feature pattern '" ++ pattern ++ "'"
  | badSettingsText => "TOML error"
  | unreadableSettings problem => "IO error: " ++ problem.message

/-- Messages of the causes below an error. -/
def causes : AnalysisError → List String
  | unreadableSettings problem => [problem.message]
  | _ => []

end AnalysisError

end CallAtlas
