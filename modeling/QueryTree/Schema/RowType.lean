import QueryTree.Schema.File
import QueryTree.Text.Digit
import QueryTree.Text.Letter
import QueryTree.Value.Types

namespace QueryTree

namespace RowType

-- Words that are written in capitals throughout.
def initialisms : List String := ["API", "ID", "IP", "SQL", "URL", "UUID"]

def isWordPart (c : Char) : Bool := Text.isLetter c || Text.isDigit c

-- A word read so far, if it is one.
def finished (word : List Char) : List (List Char) :=
  if word.isEmpty then [] else [word.reverse]

-- The runs of letters and digits, after the letters in `word`, which are in reverse.
def wordsFrom (word : List Char) : List Char → List (List Char)
  | [] => finished word
  | c :: cs =>
    if isWordPart c then wordsFrom (c :: word) cs else finished word ++ wordsFrom [] cs

def words (name : String) : List (List Char) := wordsFrom [] name.toList

-- A word with a capital. Only the ASCII letters have one here; any other first letter breaks the
-- word, and with it the name of the member.
def capitalised (word : List Char) : List Char :=
  let upper := word.map Text.toUpper
  if initialisms.contains (String.ofList upper) then upper
  else
    match word with
    | [] => []
    | c :: rest => (if c.toNat < 128 then c.toUpper else Text.replacement) :: rest

-- The member for a column: `user_id` becomes `UserID`.
def memberName (column : String) : String :=
  let cs := (words column).flatMap capitalised
  String.ofList (if cs.head?.any Text.isLetter then cs else 'X' :: cs)

-- The name with as many underscores at its end as make it new.
def freshName (used : List String) : Nat → String → String
  | 0, name => name
  | n + 1, name => if used.contains name then freshName used n (name ++ "_") else name

-- The type of the values of a declared column type.
def baseType (type : String) : Ty :=
  let starts (s : String) := type.startsWith s
  if starts "interval" then .text
  else if starts "int" || type.endsWith "int" || (type.splitOn "serial").length > 1 then
    .int .int64
  else if ["numeric", "decimal", "float", "double", "real", "money"].any starts then
    .float .float64
  else if starts "bool" || type == "bit" then .bool
  else if ["timestamp", "date", "time"].any starts then Types.timeType
  else if type == "uuid" || type == "uniqueidentifier" then Types.uuidType
  else .text

-- The type of a value that may be missing: a record that says so, or else a pointer.
def nullableType (type : Ty) : Ty :=
  match Types.nullables.find? fun (_, _, t) => t == type with
  | some (name, _, _) => .named name
  | none => .pointer type

def columnType (c : ColumnDecl) : Ty :=
  let t := baseType (String.ofList (c.type.toList.map Text.toLower))
  if c.nullable then nullableType t else t

-- The members for columns, each with a name of its own.
def columnMembers (used : List String) : List ColumnDecl → List (Field Ty)
  | [] => []
  | c :: cs =>
    let name := freshName used used.length (memberName c.name)
    ⟨name, columnType c, some c.name, false⟩ :: columnMembers (name :: used) cs

def isNameStart (c : Char) : Bool := c == '_' || Text.isLetter c

def isMemberName (name : String) : Bool :=
  match name.toList with
  | [] => false
  | c :: cs => isNameStart c && cs.all fun c => isNameStart c || Text.isDigit c

-- The record of members, all of which need names that members may have.
def record (members : List (Field Ty)) : Except Error Ty :=
  match members.findIdx? (!isMemberName ·.name) with
  | some i => .error (.aborted (some ("reflect.StructOf: field " ++ toString i ++ " has invalid name")))
  | none => .ok (.record members)

-- How many relations may be followed from a row.
def depth : Nat := 2

end RowType

namespace SchemaFile

-- Puts the relation before the cause.
def inRelation (object name : String) : Except Error α → Except Error α
  | .ok x => .ok x
  | .error (.aborted text) => .error (.aborted text)
  | .error cause => .error (.within ("relation " ++ object ++ "." ++ name) cause)

-- The members for relations, after those in `members`. A relation without a capital, or with the
-- name of another member, has none.
def relationMembers (rowOf : String → Except Error Ty) (object : String)
    (members : List (Field Ty)) : List RelationDecl → Except Error (List (Field Ty))
  | [] => .ok members
  | r :: rs => do
    if !Types.isExported r.name || (members.any (·.name == r.name)) then
      relationMembers rowOf object members rs
    else
      let row ← inRelation object r.name (rowOf r.target)
      relationMembers rowOf object (members ++ [⟨r.name, .list row, none, false⟩]) rs

-- The row type of an object, with relations followed to a depth.
def rowTypeTo (f : SchemaFile) : Nat → String → Except Error Ty
  | 0, object => do
    let (table, _) ← f.table object
    RowType.record (RowType.columnMembers [] table.columns)
  | n + 1, object => do
    let (table, decl) ← f.table object
    let columns := RowType.columnMembers [] table.columns
    RowType.record (← relationMembers (rowTypeTo f n) object columns decl.relations)

def rowType (f : SchemaFile) (object : String) : Except Error Ty := f.rowTypeTo RowType.depth object

end SchemaFile
end QueryTree
