import CallAtlas.Error
import CallAtlas.Settings.Codec
import CallAtlas.Toml.Document

/-!
# Settings.Toml — settings from the text of a settings file
-/

namespace CallAtlas.Settings

/-- In a settings file an empty table or array stands for a variant without data. -/
def isEmptyValue : Json → Bool
  | .obj [] | .arr [] => true
  | _ => false

/-- Settings that make sense, or why there are none. -/
def validate (s : Settings) : Except AnalysisError Settings :=
  match s.problem? with
  | some p => .error (.badSettings p)
  | none => .ok s

def ofToml (text : String) : Except AnalysisError Settings :=
  match (Toml.parse? text).bind fun v => ofJson? isEmptyValue v.toJson with
  | some s => s.validate
  | none => .error .badSettingsText

end CallAtlas.Settings
