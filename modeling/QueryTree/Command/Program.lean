import QueryTree.Command.Basic

namespace QueryTree.Program

def lines (ls : List String) : String := "\n".intercalate ls

def globalFlags : List Flag :=
  [{ name := "config", usage := "config file (default: ./exprql.yaml)" },
   { name := "dialect", usage := "SQL dialect (postgres|sqlite|mssql|mariadb)" },
   { name := "escape", usage := "LIKE escape character" },
   { name := "schema", usage := "path to a YAML schema file" },
   { name := "object", usage := "object bare predicates are compiled against" },
   { name := "output", usage := "output format (text|json)", short := some 'o' },
   { name := "log-level", usage := "log level (debug|info|warn|error)" }]

def compileCommand : Command where
  name := "compile"
  params := "[file]"
  short := "Compile a JSON expression to SQL"
  long := lines
    ["Compile reads a JSON-encoded expression from file, or stdin when no file",
     "is given, and prints the SQL and parameters for the configured dialect."]
  flags := [{ name := "alias", usage := "name of the outermost row for qualified properties" }]
  arity := .atMost 1
  action := some .compile

def convertCommand : Command where
  name := "convert"
  params := "<source>"
  short := "Convert a Go lambda to an expression and SQL"
  long := lines
    ["Convert parses a Go function literal over rows of --object, using a row",
     "type generated from the schema file, and prints the JSON expression and the",
     "compiled SQL.",
     "",
     "Examples:",
     "  exprql convert --object User 'func(u User) bool \x7b return u.Age >= 18 \x7d'",
     "  exprql convert --object User --query 'func(q Query) Query \x7b return q.Take(10) \x7d'"]
  flags :=
    [{ name := "query", usage := "convert a query pipeline instead of a predicate",
       kind := .switch },
     { name := "alias", usage := "name of the outermost row for correlated members" },
     { name := "env", usage := "variables visible to the lambda (name=yaml-value)",
       kind := .pairs }]
  arity := .exactly 1
  action := some .convert

def dialectsCommand : Command where
  name := "dialects"
  short := "List supported SQL dialects"
  arity := .none
  action := some .dialects

def helpCommand : Command where
  name := "help"
  params := "[command]"
  short := "Help about any command"
  long := lines
    ["Help provides help for any command in the application.",
     "Simply type exprql help [path to command] for full details."]
  action := some .help

def completionCommand : Command where
  name := "completion"
  short := "Generate the autocompletion script for the specified shell"
  long := lines
    ["Generate the autocompletion script for exprql for the specified shell.",
     "See each sub-command's help for details on how to use the generated script."]
  arity := .none

def tool : Program where
  name := "exprql"
  short := "Compile expression trees to SQL"
  long := lines
    ["exprql compiles JSON-encoded expression trees and Go lambda source",
     "into parameterized SQL for postgres, sqlite, mssql and mariadb."]
  flags := globalFlags
  commands := [compileCommand, convertCommand, dialectsCommand, helpCommand, completionCommand]

end QueryTree.Program
