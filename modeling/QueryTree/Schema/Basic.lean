import QueryTree.Expr.Build
import QueryTree.Sql.Resolver
import QueryTree.Text.Case
import QueryTree.Text.Snake

namespace QueryTree

structure Table where
  name : String
  columns : List String
deriving DecidableEq, Inhabited

-- A relation of an object to a target object, over pairs of columns.
structure Relation where
  object : String
  name : String
  target : String
  localKeys : List String
  remoteKeys : List String
deriving DecidableEq, Inhabited

-- What is known of a column besides its name.
structure ColumnInfo where
  table : String
  column : String
  type : String
  nullable : Bool
deriving DecidableEq, Inhabited

-- Later bindings and descriptions replace earlier ones of the same object or column.
structure Schema where
  tables : List Table
  bindings : List (String × String) := []
  infos : List ColumnInfo := []
  relations : List Relation := []
deriving DecidableEq, Inhabited

namespace Schema

def ofTables (tables : List Table) : Schema := { tables }

-- The last table of a name counts.
def findTable? (s : Schema) (name : String) : Option Table :=
  s.tables.reverse.find? (·.name == name)

def bind (s : Schema) (object table : String) : Except Error Schema := do
  checkIdentifier "object" object
  match s.findTable? table with
  | none => .error (.unknownTable table)
  | some _ =>
    return { s with bindings := (object, table) :: s.bindings.filter (·.1 != object) }

-- Records the type of a column and whether it may be null.
def describe (s : Schema) (table name type : String) (nullable : Bool) : Except Error Schema :=
  match s.findTable? table with
  | none => .error (.unknownColumn table name)
  | some t =>
    if t.columns.contains name then
      .ok { s with infos := ⟨table, name, type, nullable⟩ :: s.infos }
    else .error (.unknownColumn table name)

-- Adds a relation. Names are unique among the relations of an object.
def relate (s : Schema) (r : Relation) : Except Error Schema := do
  checkIdentifier "relation" r.name
  if r.localKeys.isEmpty || r.localKeys.length != r.remoteKeys.length then
    .error (.unpaired r.object r.name)
  else if s.relations.any fun q => q.object == r.object && q.name == r.name then
    .error (.duplicate ("relation " ++ r.object ++ "." ++ r.name))
  else return { s with relations := s.relations ++ [r] }

-- The bound objects in ascending order.
def objects (s : Schema) : List String :=
  (s.bindings.map (·.1)).mergeSort fun a b => !(b < a)

def table (s : Schema) (object : String) : Except Error String :=
  match s.bindings.find? (·.1 == object) with
  | some (_, t) => .ok t
  | none => .error (.unbound object)

def columnName? (t : Table) (property : String) : Option String :=
  if t.columns.contains property then some property
  else match t.columns.find? (Text.eqFold · property) with
    | some c => some c
    | none =>
      let snake := Text.snakeCase property
      if t.columns.contains snake then some snake else none

def resolvedColumn (s : Schema) (table name : String) : ResolvedColumn :=
  match s.infos.find? fun i => i.table == table && i.column == name with
  | some i => ⟨name, i.type, i.nullable⟩
  | none => ⟨name, "", false⟩

def column (s : Schema) (object property : String) : Except Error ResolvedColumn := do
  let table ← s.table object
  match (s.findTable? table).bind (columnName? · property) with
  | some name => return s.resolvedColumn table name
  | none => .error (.unknownProperty object property)

def relationsOf (s : Schema) (object : String) : List Relation :=
  s.relations.filter (·.object == object)

-- Relations that a name can mean, looked for in one pass: the one of that name alone, else all to
-- the object of that name.
def matching (name : String) (found : List Relation) : List Relation → List Relation
  | [] => found
  | r :: rest =>
    if r.name == name then [r]
    else matching name (if r.target == name then found ++ [r] else found) rest

def relation (s : Schema) (object name : String) : Except Error Join :=
  match matching name [] (s.relationsOf object) with
  | [r] => do
    let table ← s.table r.target
    return ⟨r.target, table, r.localKeys, r.remoteKeys⟩
  | rs => .error (.relation object name (rs.map (·.name)))

def resolver (s : Schema) : Resolver :=
  { table := s.table, column := s.column, relation := s.relation }

end Schema
end QueryTree
