import QueryTree.Sql.Dialect

namespace QueryTree.Dialect

namespace Sqlite

def paging (skip take : Int) : String :=
  "LIMIT " ++ toString take ++ (if skip > 0 then " OFFSET " ++ toString skip else "")

end Sqlite

def sqlite (escape : Char := standardEscape) : Dialect where
  name := "sqlite"
  logicKeyword := standardLogic
  valueKeyword op := if op == .bitXor then none else standardValue op
  unaryKeyword := standardUnary
  concat := Sql.joined " || "
  escape := escape
  quoteName := Text.enclosed '"' '"'
  placeholder name := ":" ++ name
  convert v := .ok (textUuid v)
  literal v := writeLiteral v "1" "0"
  paging skip take _ := .ok (Sqlite.paging skip take)
  capabilities :=
    { booleanPredicates := true, namedParameters := true, maxParameters := 32766 }

end QueryTree.Dialect
