import QueryTree.Codec.Decode
import QueryTree.Codec.Encode
import QueryTree.Command.Line
import QueryTree.Command.Program
import QueryTree.Config.Settings
import QueryTree.Dialect.Mariadb
import QueryTree.Dialect.Mssql
import QueryTree.Dialect.Postgres
import QueryTree.Dialect.Sqlite
import QueryTree.Lambda.Library
import QueryTree.Lambda.Query
import QueryTree.Schema.RowType
import QueryTree.Sql.Report

namespace QueryTree

-- Files, the standard input, the variables of the environment and the time. A file that cannot be
-- read says why.
structure System (m : Type → Type) where
  fileText : String → m (Except String String)
  inputText : m String
  environment : List (String × String) := []
  now : Time := default

namespace Config

-- The dialect by its name, with the escape character.
def engine (c : Config) : Except Error Dialect :=
  let escape := (c.escapeChar?.filter (· != Char.ofNat 0)).getD standardEscape
  match c.dialect with
  | "postgres" => .ok (Dialect.postgres escape)
  | "sqlite" => .ok (Dialect.sqlite escape)
  | "mssql" => .ok (Dialect.mssql escape)
  | "mariadb" => .ok (Dialect.mariadb escape)
  | name => .error (.reported ("unknown dialect " ++ Text.quote name))

def compile (c : Config) (file : SchemaFile) (label : String) (e : Expr) :
    Except Error Statement := do
  let schema ← file.schema
  let dialect ← c.engine
  { resolver := some schema.resolver, dialect := some dialect, object := c.object, label :=
    label : Compilation }.run (some e)

def present (c : Config) (s : Statement) (source : Option Json) : Except Error String :=
  if c.output == "json" then do
    let j ← (s.document source).mapError fun e => .reported e.message
    return j.writeIndented 0 ++ "\n"
  else .ok (s.listing source)

def listDialects (c : Config) : String :=
  if c.output == "json" then (Json.array (dialects.map .string)).write ++ "\n"
  else String.join (dialects.map fun name =>
    (if name == c.dialect then "* " else "  ") ++ name ++ "\n")

end Config

-- The variables of a lambda, each written as a document.
def readVariables : List (String × String) → Except Error (List (String × Host))
  | [] => .ok []
  | (name, text) :: rest =>
    match (Yaml.read? text).bind Yaml.toValue? with
    | some v => do return (name, .value v) :: (← readVariables rest)
    | none => .error (.within ("env " ++ name) (.reported "yaml"))

namespace System

variable {m : Type → Type} [Monad m]

def fail (text : String) : ExceptT Error m α := throw (.reported text)

def settingsIn (name text : String) : ExceptT Error m Settings :=
  match Settings.read? text with
  | some s => return s
  | none => throw (.within ("error reading config file " ++ name) (.reported "yaml"))

-- Where settings are looked for when no file is named.
def settingsFiles : List String := ["exprql.yaml", "exprql.yml"]

def firstSettings (sys : System m) : List String → ExceptT Error m Settings
  | [] => return .empty
  | name :: names => do
    match ← sys.fileText name with
    | .ok text => settingsIn name text
    | .error _ => firstSettings sys names

-- The settings of the file that is named, which has to be there, or of one of the usual ones.
def fileSettings (sys : System m) (name : String) : ExceptT Error m Settings := do
  if name.isEmpty then sys.firstSettings settingsFiles
  else
    match ← sys.fileText name with
    | .ok text => settingsIn name text
    | .error _ => fail ("config file " ++ name ++ " not found")

-- The configuration: flags before the environment, that before the file.
def configure (sys : System m) (o : Options) : ExceptT Error m Config := do
  let file ← sys.fileSettings (o.text "config")
  let flags := o.given.filter fun (name, _) => Program.globalFlags.any (·.name == name)
  let settings := [file, Settings.ofEnvironment sys.environment, Settings.ofFlags flags].foldl
    Settings.overlay Settings.standard
  let config ← settings.toConfig
  config.validate
  return config

def schemaFile (sys : System m) (c : Config) : ExceptT Error m SchemaFile := do
  if c.schema.isEmpty then fail "no schema file configured (use --schema or the schema key)"
  else
    match ← sys.fileText c.schema with
    | .error why => throw (.within "read schema file" (.reported why))
    | .ok text =>
      match SchemaFile.parse text with
      | .ok f => return f
      | .error e => throw (.within c.schema e)

def document (sys : System m) : List String → ExceptT Error m String
  | [] | ["-"] => sys.inputText
  | name :: _ => do
    match ← sys.fileText name with
    | .ok text => return text
    | .error why => throw (.within "failed to open expression" (.reported why))

def compile (sys : System m) (c : Config) (o : Options) : ExceptT Error m String := do
  let e ← Codec.decodeText (← sys.document o.args)
  let statement ← c.compile (← sys.schemaFile c) (o.text "alias") e
  c.present statement none

def lambda (sys : System m) (c : Config) (file : SchemaFile) (o : Options) : Except Error Expr := do
  let row ← file.rowType c.object
  let env ← readVariables (o.pairs "env")
  let world := Lambda.plainWorld sys.now
  let converter := { Lambda.Converter.ofRow world (some row) with object := c.object, env }
  let source := o.args.head?.getD ""
  if o.isOn "query" then return .query (← converter.query source) else converter.predicate source

def convert (sys : System m) (c : Config) (o : Options) : ExceptT Error m String := do
  if c.object.isEmpty then fail "convert needs an object (use --object or the object key)"
  else
    let file ← sys.schemaFile c
    let e ← sys.lambda c file o
    let source ← Codec.encode e
    let statement ← c.compile file (o.text "alias") e
    c.present statement (some source)

def explain (p : Program) (words : List String) : String :=
  match p.find words with
  | .ok (some c, _) => p.helpOf c
  | .ok (none, _) => p.help
  | .error _ =>
    "Unknown help topic [" ++ " ".intercalate (words.map fun s => "`" ++ s ++ "`") ++ "]\n" ++ p.usage

def act (sys : System m) (p : Program) (o : Options) : Action → ExceptT Error m String
  | .compile => do sys.compile (← sys.configure o) o
  | .convert => do sys.convert (← sys.configure o) o
  | .dialects => do return (← sys.configure o).listDialects
  | .help => do
    let _ ← sys.configure o
    return explain p o.args

-- Runs a command line. Flags come first, then help, the arguments and at last the action.
def run (sys : System m) (p : Program) (line : List String) : ExceptT Error m String := do
  match ← p.find line with
  | (none, words) => do
    let _ ← Options.read (Flag.helpFor p.name :: p.flags) words
    return p.help
  | (some c, words) => do
    let o ← Options.read (p.flagsOf c) words
    match c.action with
    | none => return p.helpOf c
    | some action =>
      if o.isOn "help" then return p.helpOf c
      c.check (p.path c) o.args
      sys.act p o action

end System
end QueryTree
