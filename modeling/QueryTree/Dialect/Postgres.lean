import QueryTree.Sql.Dialect

namespace QueryTree.Dialect

namespace Postgres

def convert (v : Value) : DriverValue :=
  match v with
  | .uuid u => .nativeUuid (some u)
  | .pointer (.uuid u) => .nativeUuid (some u)
  | .nilPointer (.named "uuid.UUID") => .nativeUuid none
  | v => .plain v

def paging (skip take : Int) : String :=
  " ".intercalate
    ((if take == -1 then [] else ["LIMIT " ++ toString take]) ++
      (if skip > 0 then ["OFFSET " ++ toString skip] else []))

end Postgres

def postgres (escape : Char := standardEscape) : Dialect where
  name := "postgres"
  logicKeyword := standardLogic
  valueKeyword op := if op == .bitXor then some "#" else standardValue op
  unaryKeyword := standardUnary
  concat := Sql.joined " || "
  escape := escape
  quoteName := Text.enclosed '"' '"'
  placeholder name := "@" ++ name
  convert v := .ok (Postgres.convert v)
  literal v := writeLiteral v "TRUE" "FALSE"
  paging skip take _ := .ok (Postgres.paging skip take)
  capabilities :=
    { booleanPredicates := true, namedParameters := true, maxParameters := 65535 }

end QueryTree.Dialect
