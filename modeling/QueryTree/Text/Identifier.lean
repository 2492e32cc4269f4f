namespace QueryTree.Text

def isWordChar (c : Char) : Bool := c.isAlphanum || c == '_'

def isIdentifier (s : String) : Bool :=
  !s.isEmpty && s.toList.all isWordChar

end QueryTree.Text
