import QueryTree.Config
import QueryTree.Schema.File

namespace QueryTree

-- Settings have names and may stand in groups.
inductive Settings where
  | value (v : Value)
  | group (members : List (String × Settings))
deriving Inhabited

namespace Settings

def empty : Settings := .group []

def members : Settings → List (String × Settings)
  | .value _ => []
  | .group ms => ms

-- One setting under a path of names.
def single (v : Value) : List String → Settings
  | [] => .value v
  | name :: path => .group [(name, single v path)]

-- Sets a member, in its old place if it has one.
def put (ms : List (String × Settings)) (name : String) (s : Settings) : List (String × Settings) :=
  if ms.any (·.1 == name) then ms.map fun (n, old) => (n, if n == name then s else old)
  else ms ++ [(name, s)]

mutual

-- Settings laid over a base: groups are merged, and anything else is replaced.
def overlay (base : Settings) : Settings → Settings
  | .value v => .value v
  | .group ms => .group (overlayAll base.members ms)

def overlayAll (base : List (String × Settings)) : List (String × Settings) → List (String × Settings)
  | [] => base
  | (name, s) :: rest =>
    overlayAll (put base name (overlay ((base.lookup name).getD empty) s)) rest

end

mutual

def ofYaml : Yaml → Settings
  | .mapping entries => .group (ofEntries entries)
  | y => .value (y.toValue?.getD .null)

def ofEntries : List (Yaml × Yaml) → List (String × Settings)
  | [] => []
  | (k, v) :: rest => (k.text?.getD "", ofYaml v) :: ofEntries rest

end

-- Reads a document of settings. It is a mapping, or empty.
def read? (text : String) : Option Settings := do
  match ← Yaml.read? text with
  | .mapping entries =>
    let _ ← (Yaml.mapping entries).toValue?
    if entries.all fun (k, _) => k.text?.isSome then some (ofYaml (.mapping entries)) else none
  | y => if y.isNull then some empty else none

-- A member by name; letters of the other case do if there is none with these.
def member? (s : Settings) (name : String) : Option Settings :=
  (s.members.lookup name).or ((s.members.find? fun (n, _) => Text.eqFold n name).map (·.2))

-- A text, or the text of a value that has one.
def text (path : String) : Option Settings → Except String String
  | none | some (.value .null) => .ok ""
  | some (.value (.text s)) => .ok s
  | some (.value (.bool b)) => .ok (if b then "1" else "0")
  | some (.value (.int _ n)) => .ok (toString n)
  | some (.value (.float _ x)) => .ok (x.write .plain .double "+Inf")
  | some (.value v) => refuse v.typeName
  | some (.group _) => refuse "map[string]interface \x7b\x7d"
where
  refuse (type : String) : Except String String :=
    .error ("'" ++ path ++ "' expected type 'string', got unconvertible type '" ++ type ++ "'")

def kindName (v : Value) : String :=
  match v with
  | .list .. | .nilList _ => "slice"
  | v => v.typeName

-- The level of the log stands in a group of its own.
def level : Option Settings → Except String String
  | none | some (.value .null) | some (.value (.time _)) => .ok ""
  | some (.value v) =>
    .error ("'log' expected a map or struct, got " ++ Text.quote (kindName v))
  | some (.group ms) => text "log.level" ((group ms).member? "level")

def faultOf : Except String α → List String
  | .ok _ => []
  | .error why => [why]

-- The configuration that settings make, or all that is wrong with them.
def toConfig (s : Settings) : Except Error Config :=
  let field (name : String) := text name (s.member? name)
  let log := level (s.member? "log")
  match field "dialect", field "escape", field "schema", field "object", field "output", log with
  | .ok dialect, .ok escape, .ok schema, .ok object, .ok output, .ok level =>
    .ok { dialect, escape, schema, object, output, level }
  | d, e, s, o, p, l =>
    .error (.reported ("unable to decode config: decoding failed due to the following error(s):\n\n" ++
      "\n".intercalate ([d, e, s, o, p, l].flatMap faultOf)))

-- What holds unless anything else is said.
def standard : Settings :=
  .group [("dialect", .value (.text "postgres")), ("output", .value (.text "text")),
    ("log", .group [("level", .value (.text "warn"))])]

-- Settings of the environment have this before their names.
def environmentMark : String := "EXPRQL_"

-- The path of names that a variable of the environment stands for.
def variablePath? (name : String) : Option (List String) :=
  if name.startsWith environmentMark then
    let key := (name.toList.drop environmentMark.length).map Text.toLower
    if key.isEmpty then none else some ((String.ofList key).splitOn "_")
  else none

def ofEnvironment (vars : List (String × String)) : Settings :=
  vars.foldl (fun s (name, text) =>
    match variablePath? name with
    | some path => s.overlay (single (.text text) path)
    | none => s) empty

def ofFlags (given : List (String × String)) : Settings :=
  given.foldl (fun s (name, text) => s.overlay (single (.text text) (name.splitOn "-"))) empty

end Settings
end QueryTree
