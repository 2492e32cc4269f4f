import QueryTree.Text.Upper
import QueryTree.Value.Basic

namespace QueryTree

-- A valuer hands the database a value of its own making.
structure Declared where
  name : String
  type : Ty
  valuer : Bool := false

abbrev Types := List Declared

namespace Types

-- Values that may be missing: each has one member for the value and one that says if it is there.
def nullables : List (String × String × Ty) :=
  [("sql.NullString", "String", .text),
   ("sql.NullInt64", "Int64", .int .int64),
   ("sql.NullInt32", "Int32", .int .int32),
   ("sql.NullInt16", "Int16", .int .int16),
   ("sql.NullByte", "Byte", .byte),
   ("sql.NullFloat64", "Float64", .float .float64),
   ("sql.NullBool", "Bool", .bool),
   ("sql.NullTime", "Time", .named "time.Time")]

def nullable (name member : String) (type : Ty) : Declared :=
  ⟨name, .record [⟨member, type, none, false⟩, ⟨"Valid", .bool, none, false⟩], true⟩

def timeType : Ty := .named "time.Time"

def uuidType : Ty := .named "uuid.UUID"

-- The types that every row may use.
def standard : Types :=
  [⟨"time.Time", .record [], false⟩,
   ⟨"uuid.UUID", .array 16 .byte, true⟩,
   ⟨"json.Number", .text, false⟩,
   ⟨Uuid.versionType, .byte, false⟩,
   ⟨Uuid.variantType, .byte, false⟩,
   ⟨"time.Duration", .int .int64, false⟩,
   ⟨"time.Month", .int .int, false⟩,
   ⟨"time.Weekday", .int .int, false⟩,
   nullable "sql.Null[string]" "V" .text] ++
  nullables.map fun (name, member, type) => nullable name member type

def declared? (ts : Types) (name : String) : Option Declared := ts.find? (·.name == name)

def under (ts : Types) : Ty → Ty
  | .named n text => ((ts.declared? n).map (·.type)).getD (.named n text)
  | t => t

-- The members of a record type, also behind a pointer.
def members? (ts : Types) (t : Ty) : Option (List (Field Ty)) :=
  match ts.under t.indirect with
  | .record fields => some fields
  | _ => none

-- A member by name. Members of embedded records count when no record around them has that name;
-- of two at the same depth neither does.
def search (ts : Types) (name : String) : Nat → List (List (Field Ty)) → Option (Field Ty)
  | 0, _ => none
  | n + 1, records =>
    match records.flatMap (·.filter (·.name == name)) with
    | [f] => some f
    | _ :: _ => none
    | [] =>
      match (records.flatMap (·.filter (·.embedded))).filterMap fun f => ts.members? f.type with
      | [] => none
      | inner => search ts name n inner

def member? (ts : Types) (t : Ty) (name : String) : Option (Field Ty) := do
  let fields ← ts.members? t
  search ts name (ts.length + 1) [fields]

-- Names with a capital are visible outside their package.
def isExported (name : String) : Bool := name.toList.head?.any Text.isUpper

-- The name of a tag, without the options after a comma.
def tagName (tag : String) : String := String.ofList (tag.toList.takeWhile (· != ','))

-- The column of a member and its type. A row without a type has every member. The tag `-` hides
-- a member, and any other tag with a name renames it.
def column? (ts : Types) (row : Option Ty) (name : String) : Option (String × Option Ty) :=
  match row with
  | none => some (name, none)
  | some row => do
    let f ← ts.member? row name
    if !isExported f.name then none
    match f.tag.map tagName with
    | some "-" => none
    | some "" | none => some (f.name, some f.type)
    | some column => some (column, some f.type)

def isValuer (ts : Types) : Ty → Bool
  | .named n _ | .pointer (.named n _) => (ts.declared? n).any (·.valuer)
  | _ => false

-- Whether a type is one column. Records are not, unless they are values of the database.
def isLeaf (ts : Types) : Option Ty → Bool
  | none => false
  | some t =>
    ts.isValuer t || t.indirect == timeType || t.indirect == uuidType ||
      (ts.members? t).isNone

-- The rows of a relation: the items of a list or array, or the record pointed to.
def rowOf (ts : Types) (t : Ty) : Ty :=
  match ts.under t.indirect with
  | .list e | .array _ e => e.indirect
  | _ => t.indirect

def isText (ts : Types) (t : Option Ty) : Bool :=
  t.any fun t => ts.under t.indirect == .text

def isBool (ts : Types) (t : Option Ty) : Bool :=
  t.any fun t => ts.under t.indirect == .bool

end Types

-- The name of a type without its package. Types that are spelled out have none.
def Ty.localName : Ty → String
  | .named n _ => String.ofList ((n.toList.reverse.takeWhile (· != '.')).reverse)
  | .bool => "bool"
  | .text => "string"
  | .int k => k.name
  | .float k => k.name
  | _ => ""

end QueryTree
