import QueryTree.Sql.Dialect

namespace QueryTree.Dialect

namespace Mssql

def convert (v : Value) : DriverValue :=
  match v with
  | .uuid u => .rawUuid u
  | .pointer (.uuid u) => .rawUuid u
  | .nilPointer (.named "uuid.UUID") => .plain .null
  | v => .plain v

def paging (skip take : Int) (ordered : Bool) : String :=
  (if ordered then "" else "ORDER BY (SELECT NULL) ") ++ "OFFSET " ++ toString skip ++ " ROWS" ++
    (if take == -1 then "" else " FETCH NEXT " ++ toString take ++ " ROWS ONLY")

end Mssql

def mssql (escape : Char := standardEscape) (strict : Bool := false) : Dialect where
  name := "mssql"
  logicKeyword := standardLogic
  valueKeyword := standardValue
  unaryKeyword := standardUnary
  concat := Sql.joined " + "
  escape := escape
  quoteName := Text.enclosed '[' ']'
  placeholder name := "@" ++ name
  convert v := .ok (Mssql.convert v)
  literal v := writeLiteral v "1" "0"
  paging skip take ordered := .ok (Mssql.paging skip take ordered)
  capabilities :=
    { namedParameters := true, requiresOrder := strict, maxParameters := 2100 }

end QueryTree.Dialect
