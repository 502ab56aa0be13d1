import CallAtlas.Text.CaseMap

/-!
# Journey.Wording — identifiers as readable phrases

`handleLoginSubmit` reads as `Handle login submit` and `fetch_user` as `Fetch user`. A word in
capitals, such as `API`, keeps them.
-/

namespace CallAtlas.Wording

def isSeparator (c : Char) : Bool := c == '_' || c == '-' || c == ' ' || c == '.' || c == '$'

/-- A capital starts a word after a small letter or a digit, and after a capital if a small letter
follows it. -/
def startsWord (before : Option Char) (c : Char) (after : Option Char) : Bool :=
  Text.isUpper c && before.any fun p =>
    Text.isLower p || Text.isDigit p || (Text.isUpper p && after.any Text.isLower)

def wordsFrom (before : Option Char) (current : List Char) : List Char → List (List Char)
  | [] => if current.isEmpty then [] else [current]
  | c :: cs =>
    if isSeparator c then
      if current.isEmpty then wordsFrom (some c) [] cs else current :: wordsFrom (some c) [] cs
    else if startsWord before c cs.head? && !current.isEmpty then
      current :: wordsFrom (some c) [c] cs
    else wordsFrom (some c) (current ++ [c]) cs

def splitWords (name : String) : List String := (wordsFrom none [] name.toList).map String.ofList

/-- Words without small ASCII letters keep their case; a single ASCII letter does not count. -/
def keepsCase (word : String) : Bool := 1 < word.utf8ByteSize && word.toList.all (!Text.isLower ·)

def wordForm (word : String) : String := if keepsCase word then word else Text.lower word

/-- The phrase, with a capital first letter. -/
def humanize (name : String) : String :=
  match (splitWords name).map wordForm with
  | [] => ""
  | first :: rest => Text.join " " (Text.upperFirst first :: rest)

/-- The phrase inside a sentence. -/
def phrase (name : String) : String := Text.lower (humanize name)

end CallAtlas.Wording
