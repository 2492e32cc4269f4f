import QueryTree.Error
import QueryTree.Number.Kind
import QueryTree.Number.Reader
import QueryTree.Text.Case

namespace QueryTree

namespace LogLevel

-- The named levels, four apart.
def named : List (String × Int) := [("DEBUG", -4), ("INFO", 0), ("WARN", 4), ("ERROR", 8)]

-- A signed decimal number of 64 bits.
def offset (cs : List Char) : Except String Int :=
  let refuse (why : String) : Except String Int :=
    .error ("strconv.Atoi: parsing " ++ Text.quote (String.ofList cs) ++ ": " ++ why)
  match Number.readInt? cs with
  | none => refuse "invalid syntax"
  | some n => if IntKind.int64.inRange n then .ok n else refuse "value out of range"

-- A level by its name in any case, perhaps with an offset.
def read (s : String) : Except String Int := do
  let (name, rest) := s.toList.span fun c => c != '+' && c != '-'
  let shift ← if rest.isEmpty then pure 0 else offset rest
  match named.lookup (String.ofList (name.map Text.toUpper)) with
  | some level => return IntKind.int64.wrap (level + shift)
  | none => .error "unknown name"

end LogLevel

structure Config where
  dialect : String := "postgres"
  escape : String := ""
  schema : String := ""
  object : String := ""
  output : String := "text"
  level : String := "warn"
deriving DecidableEq, Inhabited

namespace Config

def dialects : List String := ["postgres", "sqlite", "mssql", "mariadb"]

def logLevel (c : Config) : Except Error Int :=
  match LogLevel.read c.level with
  | .ok n => .ok n
  | .error why =>
    .error (.reported ("invalid log level " ++ Text.quote c.level ++ ": slog: level string " ++
      Text.quote c.level ++ ": " ++ why))

-- The escape character, none for the one of the dialect.
def escapeChar? (c : Config) : Option Char :=
  c.escape.toList.head?.filter (· != Text.replacement)

def faults (c : Config) : List Error :=
  (if dialects.contains c.dialect then []
    else [.reported ("unknown dialect " ++ Text.quote c.dialect ++ " (want one of " ++
      ", ".intercalate dialects ++ ")")]) ++
  (if c.output == "text" || c.output == "json" then []
    else [.reported ("unknown output " ++ Text.quote c.output ++ " (want text or json)")]) ++
  (if c.escape.length > 1 then
    [.reported ("escape must be a single character, got " ++ Text.quote c.escape)] else []) ++
  (match c.logLevel with
    | .ok _ => []
    | .error e => [e])

def validate (c : Config) : Except Error Unit :=
  match c.faults with
  | [] => .ok ()
  | es => .error (.several es)

end Config
end QueryTree
