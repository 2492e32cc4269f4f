import QueryTree.Lambda.Convert
import QueryTree.Lambda.Statement

namespace QueryTree.Lambda

namespace Scope

-- Runs a conversion on the body of a function over rows, with its parameter in scope.
def bindRow (sc : Scope) (arg : Node) (f : Scope → Node → Except Error α) : Except Error α :=
  match arg.unparen with
  | .lambda _ (some p) 1 (some body) => f (sc.inside p sc.row) body
  | .lambda s param statements result =>
    sc.lambdaFault (.lambda s param statements result) param statements
  | _ => sc.unsupported arg "expected a function literal"

def rowPredicate (sc : Scope) (call : Node) : List Node → Except Error Expr
  | [arg] => sc.bindRow arg fun inner body => inner.asLogic body (inner.convert body)
  | _ => sc.unsupported call "expected one predicate"

-- The keys of a selector. A composite value gives one key for each of its items.
def keys (sc : Scope) (body : Node) : Except Error (List Expr) :=
  match body.unparen with
  | .composite _ _ items => (sc.convertEach items).mapM id
  | _ => do return [← sc.convert body]

def keysOf (sc : Scope) (args : List Node) : Except Error (List Expr) := do
  return (← args.mapM fun arg => sc.bindRow arg keys).flatten

def sortKeys (sc : Scope) (call : Node) (args : List Node) (ascending : Bool) :
    Except Error (List (SortKey Expr)) := do
  if args.isEmpty then sc.unsupported call "expected a key selector"
  else return (← sc.keysOf args).map (⟨·, ascending⟩)

-- The label that the key of a pair gives a column.
def label (sc : Scope) (key : Node) : Except Error String := do
  let name ← match key with
    | .ident _ n => pure n
    | .literal _ (.text s) => pure s
    | .literal _ (.octets bs) => pure (Text.Utf8.decode bs)
    | key => sc.unsupported key "projection alias must be a name"
  checkIdentifier "alias" name
  return name

def column (sc : Scope) : Node → Except Error (Column Expr)
  | .pair _ key value => do
    let label ← sc.label key
    return ⟨← sc.convert value, label⟩
  | item => do return ⟨← sc.convert item, ""⟩

-- The columns of a selector. A composite value gives one column for each of its items.
def columns (sc : Scope) (body : Node) : Except Error (List (Column Expr)) :=
  match body.unparen with
  | .composite _ _ items => items.mapM sc.column
  | _ => do return [⟨← sc.convert body, ""⟩]

def rowCount (sc : Scope) (arg : Node) : Except Error Int := do
  if sc.depends arg then sc.unsupported arg "row count must not depend on a row"
  else
    match (← sc.evalResult arg).value with
    | .value v =>
      match v.under with
      | .int _ n => return IntKind.int64.wrap n
      | _ => sc.unsupported arg "row count must be an integer"
    | _ => sc.unsupported arg "row count must be an integer"

-- A stage that its source may or may not allow, by the conversion of its arguments.
def staged (q : Query) (name : String) (allowed : Bool) (next : Unit → Except Error (Option Query)) :
    Except Error Query := do
  let misplaced : Error := .pipeline name q.stage
  if allowed then
    match ← next () with
    | some r => return r
    | none => throw misplaced
  else throw misplaced

def stage (sc : Scope) (q : Query) (name : String) (call : Node) (args : List Node) :
    Except Error Query :=
  match name with
  | "Where" => staged q name q.isFilterable fun _ => do
    return q.where? (← sc.rowPredicate call args)
  | "OrderBy" | "OrderByDescending" => staged q name q.isPlain fun _ => do
    return q.orderBy? (← sc.sortKeys call args (name == "OrderBy"))
  | "ThenBy" | "ThenByDescending" => staged q name q.isOrdered fun _ => do
    return q.thenBy? (← sc.sortKeys call args (name == "ThenBy"))
  | "Skip" | "Take" => staged q name q.isPlain fun _ =>
    match args with
    | [arg] => do
      let n ← sc.rowCount arg
      return if name == "Skip" then q.skip? n else q.take? n
    | _ => sc.unsupported call (name ++ " takes one argument")
  | "GroupBy" => staged q name q.isPlain fun _ => do
    let keys ← sc.keysOf args
    if keys.isEmpty then sc.unsupported call "GroupBy needs a key"
    else return q.groupBy? keys
  | "Having" => staged q name q.isGroup fun _ => do
    return q.having? (← sc.rowPredicate call args)
  | "Select" => staged q name q.isProjectable fun _ =>
    match args with
    | [arg] => do return q.select? (← sc.bindRow arg columns)
    | _ => sc.unsupported call "Select takes one selector"
  | name => sc.unsupported call ("unknown query stage " ++ name)

-- The package of the query functions, unless the query itself goes by that name.
def isQueryPackage (root : String) : Node → Bool
  | .ident _ n => n == queryPackage && n != root
  | _ => false

def query (sc : Scope) (root : String) : Node → Except Error Query
  | .paren _ x => sc.query root x
  | .ident s n =>
    if n == root then Query.ofObject sc.object else sc.unsupported (.ident s n) "not a query"
  | .call s (.selector t x name) args =>
    let n := Node.call s (.selector t x name) args
    if isQueryPackage root x then
      match args with
      | [] => sc.unsupported n (name ++ " needs a source query")
      | source :: rest => do sc.stage (← sc.query root source) name n rest
    else do sc.stage (← sc.query root x) name n args
  | n => sc.unsupported n "not a query"

end Scope

namespace Converter

-- Reads a source: its scope, and the node that it gives back. A source that is not a function is
-- one over a parameter of the given name.
def read (c : Converter) (source param : String) : Except Error (Scope × Node) := do
  let cs := source.toList
  let scope (name : String) : Scope := { c with source := cs, frames := [⟨name, c.row⟩] }
  match Node.read? cs with
  | none => throw (.unsupported (String.ofList (Text.trimBlank cs)) "syntax error")
  | some n =>
    match n.unparen with
    | .lambda _ (some p) 1 (some body) => return (scope p, body)
    | .lambda s p statements result =>
      (scope param).lambdaFault (.lambda s p statements result) p statements
    | n => return (scope param, n)

def expression (c : Converter) (source : String) : Except Error Expr := do
  let (sc, n) ← c.read source c.param
  sc.convert n

def predicate (c : Converter) (source : String) : Except Error Expr := do
  let e ← c.expression source
  if e.isLogic then return e else throw (.unsupported e.display "not a predicate")

def query (c : Converter) (source : String) : Except Error Query := do
  if c.object.isEmpty then throw (.unsupported source "converter has no object")
  let (sc, n) ← c.read source queryRoot
  let root := (sc.frames.head?.map (·.name)).getD queryRoot
  { sc with frames := [] }.query root n

end Converter
end QueryTree.Lambda
