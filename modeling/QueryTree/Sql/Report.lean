import QueryTree.Sql.Compile
import QueryTree.Value.Json

namespace QueryTree

namespace DriverValue

-- The reading form of a value given to a driver.
def display : DriverValue → String
  | .plain v => v.display
  | .nativeUuid (some u) | .rawUuid u => u.text
  | .nativeUuid none => ""

-- The source form of a value given to a driver.
def literal : DriverValue → String
  | .plain v => v.literal
  | .nativeUuid (some u) | .rawUuid u => (Value.uuid u).literal
  | .nativeUuid none => Value.null.literal

def toJson : DriverValue → Except EncodeError Json
  | .plain v => v.toJson
  | .nativeUuid (some u) | .rawUuid u => .ok (.string u.text)
  | .nativeUuid none => .ok .null

end DriverValue

namespace Statement

-- The statement, and a line for each parameter.
def report (s : Statement) : String :=
  s.text ++ "\n" ++ String.join (s.named.map fun (n, v) => "-- " ++ n ++ ": " ++ v.display ++ "\n")

-- The parameters by the names or numbers that they are given under.
def labelled (s : Statement) : List (String × DriverValue) :=
  if s.isNamed then s.named
  else s.params.zipIdx.map fun (v, i) => ("$" ++ toString (i + 1), v)

-- The document of the expression if there is one, the statement, and a line for each parameter.
def listing (s : Statement) (source : Option Json) : String :=
  (match source with
    | some j => j.write ++ "\n"
    | none => "") ++
  s.text ++ "\n" ++
  String.join (s.labelled.map fun (n, v) => "-- " ++ n ++ " = " ++ v.literal ++ "\n")

-- All of that as one document.
def document (s : Statement) (source : Option Json) : Except EncodeError Json := do
  let params ← s.named.mapM fun (n, v) => do
    return Json.object [("name", .string n), ("value", ← v.toJson)]
  return .object ((source.toList.map fun j => ("expr", j)) ++
    [("sql", .string s.text), ("params", .array params), ("named", .bool s.isNamed)])

end Statement
end QueryTree
