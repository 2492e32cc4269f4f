import QueryTree.Sql.Dialect

namespace QueryTree.Dialect

namespace Bare

def convert : Value → Except Error DriverValue
  | .text "bad" => .error (.reported "cannot convert")
  | v => .ok (.plain v)

def literal : Value → Except Error String
  | .bool _ => .error (.reported "no boolean literals")
  | v => writeLiteral v "" ""

def paging (skip take : Int) (ordered : Bool) : Except Error String :=
  if skip > 100 then .error (.reported "offset too large")
  else if take == 0 then .ok ""
  else .ok ("PAGE(" ++ toString skip ++ "," ++ toString take ++ "," ++ toString ordered ++ ")")

end Bare

def bare : Dialect where
  name := "bare"
  logicKeyword op := if op == .equal then some "EQ" else none
  valueKeyword op := if op == .add then some "PLUS" else none
  unaryKeyword op := if op == .negate then some "MINUS " else none
  concat parts := .text "CAT[" :: Sql.joined ";" parts ++ [.text "]"]
  escape := '\''
  quoteName s := "<" ++ s ++ ">"
  placeholder s := "$" ++ s
  convert := Bare.convert
  literal := Bare.literal
  paging := Bare.paging
  capabilities := { maxParameters := 3 }

end QueryTree.Dialect
