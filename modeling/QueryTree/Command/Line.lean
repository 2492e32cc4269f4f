import QueryTree.Command.Basic
import QueryTree.Text.Case
import QueryTree.Text.Distance

namespace QueryTree

namespace Line

-- A flag whose value is the next word.
def takesNext (word : String) : Bool :=
  word.startsWith "-" && !word.contains '=' && (word.startsWith "--" || word.utf8ByteSize == 2)

-- The words that are neither flags nor their values. A flag right before the last word ends them.
def plainWords : List String → List String
  | [] => []
  | word :: words =>
    if word == "--" then []
    else if takesNext word then
      match words with
      | _ :: next :: others => plainWords (next :: others)
      | _ => []
    else if word.isEmpty || word.startsWith "-" then plainWords words
    else word :: plainWords words

-- The line without the first such word that is `name`.
def without (name : String) : List String → List String
  | [] => []
  | word :: words =>
    if word == "--" then word :: words
    else if takesNext word then
      match words with
      | value :: others => word :: value :: without name others
      | [] => [word]
    else if !word.startsWith "-" && word == name then words
    else word :: without name words

end Line

namespace Program

def nearness : Nat := 2

def lowered (s : String) : String := String.ofList (s.toList.map Text.toLower)

def resembles (typed : String) (c : Command) : Bool :=
  let typed := lowered typed
  Text.distance (Text.Utf8.encode typed) (Text.Utf8.encode (lowered c.name)) ≤ nearness ||
    (lowered c.name).startsWith typed

-- The commands that may have been meant, the one for help aside.
def suggestions (p : Program) (typed : String) : String :=
  match p.commands.filter fun c => c.action != some .help && resembles typed c with
  | [] => ""
  | cs => "\n\nDid you mean this?\n" ++ String.join (cs.map fun c => "\t" ++ c.name ++ "\n")

-- The command of a line, none for the program itself, and the line without its name.
def find (p : Program) (line : List String) : Except Error (Option Command × List String) :=
  match Line.plainWords line with
  | [] => .ok (none, line)
  | word :: _ =>
    match p.commands.find? (·.name == word) with
    | some c => .ok (some c, Line.without word line)
    | none =>
      .error (.reported ("unknown command " ++ Text.quote word ++ " for " ++ Text.quote p.name ++
        p.suggestions word))

end Program
end QueryTree
