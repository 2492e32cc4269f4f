import QueryTree.Json.Writer
import QueryTree.Schema.Basic
import QueryTree.Yaml.Scalar

namespace QueryTree

structure ColumnDecl where
  name : String := ""
  type : String := ""
  nullable : Bool := false
deriving DecidableEq, Inhabited

structure TableDecl where
  name : String := ""
  columns : List ColumnDecl := []
deriving DecidableEq, Inhabited

structure RelationDecl where
  name : String := ""
  target : String := ""
  localKeys : List String := []
  remoteKeys : List String := []
deriving DecidableEq, Inhabited

structure ObjectDecl where
  name : String := ""
  table : String := ""
  relations : List RelationDecl := []
deriving DecidableEq, Inhabited

structure SchemaFile where
  project : String := ""
  tables : List TableDecl := []
  objects : List ObjectDecl := []
deriving DecidableEq, Inhabited

namespace Yaml

def isNull : Yaml → Bool
  | .scalar s kind => (scalarValue? s kind).any Value.isNull
  | _ => false

-- A text field takes the spelling of any scalar; null leaves it as it is.
def text? : Yaml → Option String
  | .scalar s kind =>
    (scalarValue? s kind).map fun
      | .null => ""
      | .text t => t
      | _ => s
  | _ => none

-- A truth value, also by words that are text elsewhere.
def bool? : Yaml → Option Bool
  | .scalar s kind =>
    match scalarValue? s kind with
    | some .null => some false
    | some (.bool b) => some b
    | some (.text t) =>
      if ["y", "Y", "yes", "on"].contains t then some true
      else if ["n", "N", "no", "off"].contains t then some false
      else none
    | _ => none
  | _ => none

-- A list field. Null is the empty list, and nulls among the items are left out.
def list? (item : Yaml → Option α) : Yaml → Option (List α)
  | .sequence items => (items.filter (!·.isNull)).mapM item
  | y => if y.isNull then some [] else none

-- The fields of a record, none of them unknown.
def fields? (known : List String) : Yaml → Option (List (String × Yaml))
  | .mapping entries => do
    let fs ← (entries.filter (!·.1.isNull)).mapM fun (k, v) => do return ((← k.text?), v)
    if fs.all fun (k, _) => known.contains k then some fs else none
  | y => if y.isNull then some [] else none

-- One field, or what stands for it when it is left out.
def field? (fs : List (String × Yaml)) (name : String) (read : Yaml → Option α) (absent : α) :
    Option α :=
  match fs.lookup name with
  | some y => read y
  | none => some absent

end Yaml

namespace SchemaFile

def readColumn? (y : Yaml) : Option ColumnDecl := do
  let fs ← y.fields? ["name", "type", "nullable"]
  return { name := ← Yaml.field? fs "name" Yaml.text? "",
           type := ← Yaml.field? fs "type" Yaml.text? "",
           nullable := ← Yaml.field? fs "nullable" Yaml.bool? false }

def readTable? (y : Yaml) : Option TableDecl := do
  let fs ← y.fields? ["name", "columns"]
  return { name := ← Yaml.field? fs "name" Yaml.text? "",
           columns := ← Yaml.field? fs "columns" (Yaml.list? readColumn?) [] }

def readRelation? (y : Yaml) : Option RelationDecl := do
  let fs ← y.fields? ["name", "target", "local", "remote"]
  return { name := ← Yaml.field? fs "name" Yaml.text? "",
           target := ← Yaml.field? fs "target" Yaml.text? "",
           localKeys := ← Yaml.field? fs "local" (Yaml.list? Yaml.text?) [],
           remoteKeys := ← Yaml.field? fs "remote" (Yaml.list? Yaml.text?) [] }

def readObject? (y : Yaml) : Option ObjectDecl := do
  let fs ← y.fields? ["name", "table", "relations"]
  return { name := ← Yaml.field? fs "name" Yaml.text? "",
           table := ← Yaml.field? fs "table" Yaml.text? "",
           relations := ← Yaml.field? fs "relations" (Yaml.list? readRelation?) [] }

def ofYaml? (y : Yaml) : Option SchemaFile := do
  let fs ← y.fields? ["project", "tables", "objects"]
  return { project := ← Yaml.field? fs "project" Yaml.text? "",
           tables := ← Yaml.field? fs "tables" (Yaml.list? readTable?) [],
           objects := ← Yaml.field? fs "objects" (Yaml.list? readObject?) [] }

-- Columns without a name, and columns that come again after `seen`.
def columnFaults (table : String) (seen : List String) : List ColumnDecl → List Error
  | [] => []
  | c :: cs =>
    if c.name.isEmpty then
      .reported ("table " ++ table ++ ": column without a name") :: columnFaults table seen cs
    else
      (if seen.contains c.name then
        [.reported ("table " ++ table ++ ": column " ++ c.name ++ " declared twice")] else []) ++
      columnFaults table (c.name :: seen) cs

def tableFaults (seen : List String) : List TableDecl → List Error
  | [] => []
  | t :: ts =>
    if t.name.isEmpty then .reported "table without a name" :: tableFaults seen ts
    else
      (if seen.contains t.name then [.reported ("table " ++ t.name ++ " declared twice")] else []) ++
      columnFaults t.name [] t.columns ++ tableFaults (t.name :: seen) ts

def unknownTableFault (object table : String) : Error :=
  .reported ("object " ++ object ++ ": unknown table " ++ Text.quote table)

def objectFaults (tables seen : List String) : List ObjectDecl → List Error
  | [] => []
  | o :: os =>
    match checkIdentifier "object" o.name with
    | .error e => e :: objectFaults tables seen os
    | .ok _ =>
      (if seen.contains o.name then [.reported ("object " ++ o.name ++ " declared twice")] else []) ++
      (if tables.contains o.table then [] else [unknownTableFault o.name o.table]) ++
      objectFaults tables (o.name :: seen) os

def relationFaults (objects : List String) (o : ObjectDecl) : List Error :=
  (o.relations.filter (!objects.contains ·.target)).map fun r =>
    .reported ("relation " ++ o.name ++ "." ++ r.name ++ ": unknown target " ++ Text.quote r.target)

-- The names of tables that have one.
def tableNames (f : SchemaFile) : List String := (f.tables.map (·.name)).filter (!·.isEmpty)

-- The names of objects that may have theirs.
def objectNames (f : SchemaFile) : List String :=
  (f.objects.map (·.name)).filter Text.isIdentifier

-- All faults of a document, in the order of its parts.
def faults (f : SchemaFile) : List Error :=
  tableFaults [] f.tables ++ objectFaults f.tableNames [] f.objects ++
    f.objects.flatMap (relationFaults f.objectNames)

def checked (f : SchemaFile) : Except Error SchemaFile :=
  match f.faults with
  | [] => .ok f
  | es => .error (.several es)

def parse (text : String) : Except Error SchemaFile :=
  match (Yaml.read? text).bind ofYaml? with
  | none => .error (.reported "parse schema: yaml")
  | some f => f.checked

-- The name of the project, with one for documents that give none.
def projectName (f : SchemaFile) : String :=
  if f.project.isEmpty then "exprql" else f.project

def table (f : SchemaFile) (object : String) : Except Error (TableDecl × ObjectDecl) :=
  match f.objects.find? (·.name == object) with
  | none => .error (.reported ("object " ++ Text.quote object ++ " is not declared"))
  | some o =>
    match f.tables.find? (·.name == o.table) with
    | some t => .ok (t, o)
    | none => .error (unknownTableFault object o.table)

def schema (f : SchemaFile) : Except Error Schema := do
  let s := Schema.ofTables (f.tables.map fun t => ⟨t.name, t.columns.map (·.name)⟩)
  let s ← f.tables.foldlM (fun s t =>
    t.columns.foldlM (fun s c => s.describe t.name c.name c.type c.nullable) s) s
  let s ← f.objects.foldlM (fun s o => s.bind o.name o.table) s
  f.objects.foldlM (fun s o =>
    o.relations.foldlM (fun s r => s.relate ⟨o.name, r.name, r.target, r.localKeys, r.remoteKeys⟩) s) s

-- The document in JSON, which reads back as the same file.
def toJson (f : SchemaFile) : Json :=
  .object [("project", .string f.project), ("tables", .array (f.tables.map tableJson)),
    ("objects", .array (f.objects.map objectJson))]
where
  texts (ss : List String) : Json := .array (ss.map .string)
  columnJson (c : ColumnDecl) : Json :=
    .object [("name", .string c.name), ("type", .string c.type), ("nullable", .bool c.nullable)]
  tableJson (t : TableDecl) : Json :=
    .object [("name", .string t.name), ("columns", .array (t.columns.map columnJson))]
  relationJson (r : RelationDecl) : Json :=
    .object [("name", .string r.name), ("target", .string r.target),
      ("local", texts r.localKeys), ("remote", texts r.remoteKeys)]
  objectJson (o : ObjectDecl) : Json :=
    .object [("name", .string o.name), ("table", .string o.table),
      ("relations", .array (o.relations.map relationJson))]

end SchemaFile
end QueryTree
