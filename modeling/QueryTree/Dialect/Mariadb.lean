import QueryTree.Sql.Dialect

namespace QueryTree.Dialect

namespace Mariadb

-- The limit that stands for none.
def everyRow : String := "18446744073709551615"

def concat (parts : List Sql) : Sql := .text "CONCAT(" :: Sql.joined ", " parts ++ [.text ")"]

def paging (skip take : Int) : String :=
  "LIMIT " ++ (if take == -1 then everyRow else toString take) ++
    (if skip > 0 then " OFFSET " ++ toString skip else "")

end Mariadb

def mariadb (escape : Char := standardEscape) : Dialect where
  name := "mariadb"
  logicKeyword := standardLogic
  valueKeyword := standardValue
  unaryKeyword := standardUnary
  concat := Mariadb.concat
  escape := escape
  quoteName := Text.enclosed '\x60' '\x60'
  placeholder _ := "?"
  convert v := .ok (textUuid v)
  literal v := writeLiteral v "TRUE" "FALSE"
  paging skip take _ := .ok (Mariadb.paging skip take)
  capabilities := { booleanPredicates := true, maxParameters := 65535 }

end QueryTree.Dialect
