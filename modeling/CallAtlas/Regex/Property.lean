import CallAtlas.Regex.CharSet
import CallAtlas.Text.CategoryTable

/-!
# Regex.Property — sets of characters named by a property

A property is a general category, a script, or one of a few properties that a character has or has
not. Names are compared without regard to case, blanks, hyphens, underscores and a leading `is`.
-/

namespace CallAtlas.CharSet

/-- The form in which property names are compared. -/
def propertyKey (name : List Char) : String :=
  let bare :=
    (name.filter fun c => c.toNat < 128 && c != ' ' && c != '_' && c != '-').map Text.asciiLower
  match bare with
  | 'i' :: 's' :: rest => if rest = ['c'] then "isc" else .ofList rest
  | _ => .ofList bare

/-- The ranges of a run. -/
def runRanges (r : Text.Category.Run) : List (Nat × Nat) :=
  let (first, last, step) := r
  if step = 1 then [(first, last)]
  else (List.range ((last - first) / step + 1)).map fun i => (first + i * step, first + i * step)

def ofRuns (runs : List Text.Category.Run) : CharSet := ranges (runs.flatMap runRanges)

/-! ## General categories -/

def casedLetter : CharSet :=
  ofRuns (Text.Category.upperLetter ++ Text.Category.lowerLetter ++ Text.Category.titleLetter)

def letter : CharSet :=
  casedLetter.union (ofRuns (Text.Category.modifierLetter ++ Text.Category.otherLetter))

def mark : CharSet :=
  ofRuns (Text.Category.nonspacingMark ++ Text.Category.spacingMark ++ Text.Category.enclosingMark)

def number : CharSet :=
  digit.union (ofRuns (Text.Category.letterNumber ++ Text.Category.otherNumber))

def punctuation : CharSet :=
  ofRuns (Text.Category.connectorPunctuation ++ Text.Category.dashPunctuation ++
    Text.Category.openPunctuation
    ++ Text.Category.closePunctuation ++ Text.Category.initialPunctuation ++
      Text.Category.finalPunctuation
    ++ Text.Category.otherPunctuation)

def symbol : CharSet :=
  ofRuns (Text.Category.mathSymbol ++ Text.Category.currencySymbol ++ Text.Category.modifierSymbol
    ++ Text.Category.otherSymbol)

def lineSeparator : CharSet := ranges [(0x2028, 0x2028)]

def paragraphSeparator : CharSet := ranges [(0x2029, 0x2029)]

def separator : CharSet := (ofRuns Text.Category.spaceSeparator).union (ranges [(0x2028, 0x2029)])

def control : CharSet := ranges [(0, 31), (127, 159)]

/-- All that is no letter, mark, number, punctuation, symbol or separator. -/
def other : CharSet :=
  (((((letter.union mark).union number).union punctuation).union symbol).union separator).compl

/-- Code points without a character. -/
def unassigned : CharSet :=
  other.diff (control.union (ofRuns (Text.Category.format ++ Text.Category.privateUse)))

def category? (key : String) : Option CharSet :=
  match key with
  | "any" => some any
  | "assigned" => some unassigned.compl
  | "ascii" => some (ranges [(0, 127)])
  | "l" | "letter" => some letter
  | "lc" | "casedletter" => some casedLetter
  | "lu" | "uppercaseletter" => some (ofRuns Text.Category.upperLetter)
  | "ll" | "lowercaseletter" => some (ofRuns Text.Category.lowerLetter)
  | "lt" | "titlecaseletter" => some (ofRuns Text.Category.titleLetter)
  | "lm" | "modifierletter" => some (ofRuns Text.Category.modifierLetter)
  | "lo" | "otherletter" => some (ofRuns Text.Category.otherLetter)
  | "m" | "mark" | "combiningmark" => some mark
  | "mn" | "nonspacingmark" => some (ofRuns Text.Category.nonspacingMark)
  | "mc" | "spacingmark" => some (ofRuns Text.Category.spacingMark)
  | "me" | "enclosingmark" => some (ofRuns Text.Category.enclosingMark)
  | "n" | "number" => some number
  | "nd" | "decimalnumber" | "digit" => some digit
  | "nl" | "letternumber" => some (ofRuns Text.Category.letterNumber)
  | "no" | "othernumber" => some (ofRuns Text.Category.otherNumber)
  | "p" | "punctuation" | "punct" => some punctuation
  | "pc" | "connectorpunctuation" => some (ofRuns Text.Category.connectorPunctuation)
  | "pd" | "dashpunctuation" => some (ofRuns Text.Category.dashPunctuation)
  | "ps" | "openpunctuation" => some (ofRuns Text.Category.openPunctuation)
  | "pe" | "closepunctuation" => some (ofRuns Text.Category.closePunctuation)
  | "pi" | "initialpunctuation" => some (ofRuns Text.Category.initialPunctuation)
  | "pf" | "finalpunctuation" => some (ofRuns Text.Category.finalPunctuation)
  | "po" | "otherpunctuation" => some (ofRuns Text.Category.otherPunctuation)
  | "s" | "symbol" => some symbol
  | "sm" | "mathsymbol" => some (ofRuns Text.Category.mathSymbol)
  | "sc" | "currencysymbol" => some (ofRuns Text.Category.currencySymbol)
  | "sk" | "modifiersymbol" => some (ofRuns Text.Category.modifierSymbol)
  | "so" | "othersymbol" => some (ofRuns Text.Category.otherSymbol)
  | "z" | "separator" => some separator
  | "zs" | "spaceseparator" => some (ofRuns Text.Category.spaceSeparator)
  | "zl" | "lineseparator" => some lineSeparator
  | "zp" | "paragraphseparator" => some paragraphSeparator
  | "c" | "other" => some other
  | "cc" | "control" | "cntrl" => some control
  | "cf" | "format" => some (ofRuns Text.Category.format)
  | "cn" | "unassigned" => some unassigned
  | "co" | "privateuse" => some (ofRuns Text.Category.privateUse)
  | "cs" | "surrogate" => some none
  | _ => Option.none

/-! ## Scripts and further properties -/

def script? (key : String) : Option CharSet :=
  match key with
  | "latin" | "latn" => some (ofRuns Text.Category.latin)
  | "greek" | "grek" => some (ofRuns Text.Category.greek)
  | "cyrillic" | "cyrl" => some (ofRuns Text.Category.cyrillic)
  | "han" | "hani" => some (ofRuns Text.Category.han)
  | "hiragana" | "hira" => some (ofRuns Text.Category.hiragana)
  | "katakana" | "kana" => some (ofRuns Text.Category.katakana)
  | "hangul" | "hang" => some (ofRuns Text.Category.hangul)
  | "arabic" | "arab" => some (ofRuns Text.Category.arabic)
  | "hebrew" | "hebr" => some (ofRuns Text.Category.hebrew)
  | "thai" => some (ofRuns Text.Category.thai)
  | "devanagari" | "deva" => some (ofRuns Text.Category.devanagari)
  | _ => Option.none

/-- Properties that a character has or has not. -/
def binary? (key : String) : Option CharSet :=
  match key with
  | "alphabetic" | "alpha" =>
    some (letter.union (ofRuns (Text.Category.letterNumber ++ Text.Category.otherAlphabetic)))
  | "uppercase" | "upper" => some (ofRuns (Text.Category.upperLetter ++ Text.Category.otherUpper))
  | "lowercase" | "lower" => some (ofRuns (Text.Category.lowerLetter ++ Text.Category.otherLower))
  | "whitespace" | "wspace" | "space" => some blank
  | _ => Option.none

/-- A property with its value, such as `script=greek`. -/
def propertyValue? (name value : List Char) : Option CharSet :=
  match propertyKey name with
  | "gc" | "generalcategory" => category? (propertyKey value)
  | "sc" | "script" => script? (propertyKey value)
  | _ => Option.none

/-- The set that a property names; a property and its value are divided by `!=`, `:` or `=`. -/
def property? (name : List Char) : Option CharSet :=
  match cutBefore ['!', '='] name with
  | some (name, value) => (propertyValue? name value).map compl
  | Option.none =>
    match cutBefore [':'] name <|> cutBefore ['='] name with
    | some (name, value) => propertyValue? name value
    | Option.none =>
      let key := propertyKey name
      binary? key <|> category? key <|> script? key
where
  /-- What stands before and after the first occurrence of a mark. -/
  cutBefore (mark : List Char) : List Char → Option (List Char × List Char)
    | [] => Option.none
    | c :: cs =>
      match Text.dropLead? mark (c :: cs) with
      | some rest => some ([], rest)
      | Option.none => (cutBefore mark cs).map fun (a, b) => (c :: a, b)

end CallAtlas.CharSet
