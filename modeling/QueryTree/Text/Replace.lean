namespace QueryTree.Text

-- Occurrences of a nonempty text do not overlap; an empty text occurs nowhere.
def replaceChars (old new : List Char) : List Char → List Char
  | [] => []
  | c :: rest =>
    if old.isEmpty || !old.isPrefixOf (c :: rest) then c :: replaceChars old new rest
    else new ++ replaceChars old new (rest.drop (old.length - 1))
termination_by cs => cs.length
decreasing_by
  · simp
  · simp only [List.length_drop, List.length_cons]; omega

def replaceAll (s old new : String) : String :=
  String.ofList (replaceChars old.toList new.toList s.toList)

-- Writes a character twice wherever it occurs.
def doubled (mark : Char) (cs : List Char) : List Char :=
  cs.flatMap fun c => if c == mark then [c, c] else [c]

-- A text between marks, with the closing mark doubled inside it.
def enclosed (opening closing : Char) (s : String) : String :=
  String.ofList (opening :: doubled closing s.toList ++ [closing])

end QueryTree.Text
