import QueryTree.Text.Case
import QueryTree.Text.Digit
import QueryTree.Text.Lower
import QueryTree.Text.Upper

namespace QueryTree.Text

-- Whether an upper case letter between these neighbours begins a word.
def beginsWord (before after : Option Char) : Bool :=
  match before with
  | none => false
  | some p =>
    if p == '.' || p == '_' then false
    else isLower p || isDigit p || (isUpper p && after.any isLower)

-- Spells the characters that follow `before`.
def snakeChars (before : Option Char) : List Char → List Char
  | [] => []
  | c :: rest =>
    let spelled :=
      if c == '.' then ['_']
      else if isUpper c then
        if beginsWord before rest.head? then ['_', toLower c] else [toLower c]
      else [c]
    spelled ++ snakeChars (some c) rest

def snakeCase (s : String) : String := String.ofList (snakeChars none s.toList)

end QueryTree.Text
