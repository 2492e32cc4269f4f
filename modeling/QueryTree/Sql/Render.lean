import QueryTree.Expr.Display
import QueryTree.Sql.Fragment
import QueryTree.Sql.Like
import QueryTree.Sql.Resolver

namespace QueryTree

-- What a rendering has produced besides its text.
structure Output where
  params : Array DriverValue := #[]
  tables : Nat := 0
deriving Inhabited

abbrev Render := StateT Output (Except Error)

-- An object whose rows are in scope. Columns of the outermost one have no qualifier.
structure Scope where
  object : String := ""
  table : String := ""
  label : String := ""
  qualifier : Option Nat := none
deriving DecidableEq, Inhabited

structure Context where
  dialect : Dialect
  resolver : Resolver
  scope : Scope
  outer : List Scope := []
  depth : Nat := 0

namespace Render

-- How deep subqueries may be nested.
def maxDepth : Nat := 32

def fail (e : Error) : Render α := throw e

def ofExcept (r : Except Error α) : Render α :=
  match r with
  | .ok a => pure a
  | .error e => throw e

def unsupported (expr reason : String) : Render α := fail (.unsupported expr reason)

def noFeature (ctx : Context) (what : String) (hint : String := "") : Render α :=
  fail (.feature ctx.dialect.name what hint)

def bind (ctx : Context) (v : Value) : Render Sql := do
  match ctx.dialect.convert v with
  | .error e => fail (.within ("convert parameter " ++ v.display) e)
  | .ok w =>
    let place := (← get).params.size
    modify fun out => { out with params := out.params.push w }
    return [.placeholder place]

-- Forgets the parameters bound since there were `n`.
def release (n : Nat) : Render Unit := modify fun out => { out with params := out.params.take n }

def paramCount : Render Nat := do return (← get).params.size

def nextTable : Render Nat := do
  modify fun out => { out with tables := out.tables + 1 }
  return (← get).tables

-- The context inside a subquery over the rows of `scope`.
def enter (ctx : Context) (scope : Scope) : Render Context := do
  if ctx.depth ≥ maxDepth then
    unsupported "subquery" ("maximum subquery depth (" ++ toString maxDepth ++ ") exceeded")
  else
    return { ctx with scope, outer := ctx.scope :: ctx.outer, depth := ctx.depth + 1 }

-- What qualifies the columns of a scope from inside another one.
def qualifierOf (s : Scope) : Token :=
  match s.qualifier with
  | some n => .table n
  | none => .name s.table

-- A column of the current scope, qualified when the scope has a qualifier.
def ownColumn (ctx : Context) (property : String) : Render Sql := do
  if ctx.scope.object.isEmpty then unsupported property "no object in scope"
  else
    let col ← ofExcept (ctx.resolver.column ctx.scope.object property)
    match ctx.scope.qualifier with
    | none => return [.name col.name]
    | some n => return [.table n, .text ".", .name col.name]

-- A column of an outer scope, always qualified.
def outerColumn (ctx : Context) (s : Scope) (property : String) : Render Sql := do
  if s.object.isEmpty then unsupported property "no object in scope"
  else
    let col ← ofExcept (ctx.resolver.column s.object property)
    return [qualifierOf s, .text ".", .name col.name]

-- The column of a property in the innermost scope of that label, if there is one.
def labelled? (ctx : Context) (label property : String) : Option (Render Sql) :=
  if ctx.scope.label == label then some (ownColumn ctx property)
  else (ctx.outer.find? (·.label == label)).map (outerColumn ctx · property)

def cutPath (path : String) : Option (String × String) :=
  match path.toList.span (· != '.') with
  | (head, '.' :: rest) => some (String.ofList head, String.ofList rest)
  | _ => none

-- The column of a property. An owner that labels no scope is part of a path on the current object.
def column (ctx : Context) (owner name : String) : Render Sql :=
  if owner.isEmpty then ownColumn ctx name
  else match labelled? ctx owner name with
    | some r => r
    | none =>
      match cutPath owner with
      | some (head, rest) =>
        match labelled? ctx head (rest ++ "." ++ name) with
        | some r => r
        | none => ownColumn ctx (Expr.path owner name)
      | none => ownColumn ctx (Expr.path owner name)

-- A boolean constant; a dialect without one spells it out.
def booleanText (ctx : Context) (b : Bool) : Token :=
  match ctx.dialect.literal (.bool b) with
  | .ok s => .literal s
  | .error _ => .literal (toString b)

-- A value where a condition is wanted.
def asCondition (ctx : Context) (s : Sql) : Sql :=
  if ctx.dialect.capabilities.booleanPredicates then s
  else s ++ [.text " = ", booleanText ctx true]

def bindItem (ctx : Context) (v : Value) : Render Sql :=
  if v.isNull then pure (Sql.ofText "NULL") else bind ctx v

def bindItems (ctx : Context) : List Value → Render (List Sql)
  | [] => return []
  | v :: vs => do
    let s ← bindItem ctx v
    return s :: (← bindItems ctx vs)

-- A literal. A collection binds a parameter for each item and has no text without items.
def literal (ctx : Context) (v : Value) (const : Bool) : Render Sql := do
  if v.isNull then return Sql.ofText "NULL"
  else if const then
    if v.isPrimitive then return [.literal (← ofExcept (ctx.dialect.literal v))]
    else unsupported (Expr.displayValue v const) "constant must be a boolean or number"
  else match v.collection? with
    | some [] => return []
    | some vs => return Sql.enclosed (Sql.joined ", " (← bindItems ctx vs))
    | none => bind ctx v

-- A literal where a condition is wanted. Null is no condition.
def condition (ctx : Context) (v : Value) (const : Bool) : Render Sql := do
  match v, const with
  | .null, _ => return []
  | .bool true, true => return Sql.ofText "1=1"
  | .bool false, true => return Sql.ofText "0=1"
  | v, const => return asCondition ctx (← literal ctx v const)

def checkName (kind name : String) : Render Unit := ofExcept (checkIdentifier kind name)

-- The text that a pattern is made of, when the operand is a single literal.
def patternText? : Expr → Option String
  | .value v _ => if v.isNull || v.collection?.isSome then none else some v.display
  | _ => none

-- Whether the right side of a membership test brings its own parentheses.
def isGrouped : Expr → Bool
  | .value v _ => v.collection?.isSome
  | .set kind _ => kind == .list
  | .query _ => true
  | _ => false

-- Fills the places of a table name template.
def expandTable (table : String) (args : List String) : String :=
  (args.zipIdx).foldl
    (fun t (arg, i) => Text.replaceAll t ("\x7b" ++ toString i ++ "\x7d") arg) table

def joinConditions (kind : SetKind) (parts : List Sql) : Sql :=
  Sql.joined (if kind == .or then " OR " else " AND ") parts

-- A conjunction of clause conditions: none, one as it is, or several in parentheses.
def conjunction : List Sql → Sql
  | [] => []
  | [s] => s
  | parts => Sql.enclosed (joinConditions .and parts)

-- Text for the negation of a condition; nothing says "true", so its negation is false.
def negation (keyword : String) (inner : Sql) : Sql :=
  if inner.isBlank then Sql.ofText "0=1" else .text (keyword ++ " ") :: Sql.enclosed inner

-- Conditions that a dialect without booleans cannot select as they are.
def isCondition : Expr → Bool
  | .compare .. | .related .. => true
  | .set kind _ => kind.isLogical
  | .unary op _ => op == .not
  | _ => false

-- A selected condition, as a case distinction where the dialect needs one.
def selectable (ctx : Context) (e : Expr) (s : Sql) : Sql :=
  if !isCondition e || ctx.dialect.capabilities.booleanPredicates then s
  else .text "CASE WHEN " :: s ++
    [.text " THEN ", booleanText ctx true, .text " ELSE ", booleanText ctx false, .text " END"]

end Render

-- Where an expression stands: as a condition, as a condition that its surroundings put into
-- parentheses, or as an operand.
inductive Position where
  | condition
  | enclosed
  | operand
deriving DecidableEq, Inhabited

namespace Query

def hasSelect : Query → Bool
  | .rows _ => false
  | .select .. => true
  | .filter q _ | .group q _ | .having q _ | .order q _ | .window q _ _ => q.hasSelect

-- The windows of all stages as one, seen through the window `outer` over them.
def foldWindows (outer : Option Window) : Query → Option Window
  | .rows _ => outer
  | .window q offset limit =>
    let own : Window := ⟨offset, limit⟩
    q.foldWindows (some (outer.elim own own.within))
  | .filter q _ | .group q _ | .having q _ | .order q _ | .select q _ => q.foldWindows outer

end Query

-- Renders what a fragment supplies for its key and argument.
abbrev FragmentRenderer := Context → String → Value → Render Sql

namespace Render

-- The paging clause. Rows without an order cannot be cut where the dialect is strict.
def paging (ctx : Context) (w : Option Window) (ordered : Bool) : Render Sql := do
  match w with
  | none => return []
  | some w =>
    if w.offset > 0 || w.limit != noLimit then
      if !ordered && ctx.dialect.capabilities.requiresOrder then
        noFeature ctx "paging without ORDER BY" "add an OrderBy stage when using Skip or Take"
      else
        let s ← ofExcept (ctx.dialect.paging w.offset w.limit ordered)
        return if s.isEmpty then [] else [.text " ", .text s]
    else return []

-- A clause with its keyword, or nothing without content.
def clause (keyword : String) (s : Sql) : Sql :=
  if s.isBlank then [] else .text keyword :: s

-- What a query selects: its columns, or without any the keys of its grouping, or every column.
def selected (selection grouping : Render (List Sql)) : Render (List Sql) := do
  match ← selection with
  | [] => do
    let keys ← grouping
    return if keys.isEmpty then [Sql.ofText "*"] else keys
  | columns => return columns

-- A query over the rows of the scope, from the renderings of its clauses. They are run in the
-- order in which they are written, so that parameters are bound in the order of their places.
def assembled (ctx : Context) (window : Option Window)
    (selection filters grouping groupFilters ordering : Render (List Sql)) : Render Sql := do
  let columns ← selected selection grouping
  let filters ← filters
  let keys ← grouping
  let groupFilters ← groupFilters
  let order ← ordering
  let page ← paging ctx window !order.isEmpty
  return .text "SELECT " :: Sql.joined ", " columns ++ .text " FROM " :: .name ctx.scope.table ::
    (match ctx.scope.qualifier with
      | some n => [.text " ", .table n]
      | none => []) ++
    clause " WHERE " (conjunction filters) ++
    (if keys.isEmpty then [] else .text " GROUP BY " :: Sql.joined ", " keys) ++
    clause " HAVING " (conjunction groupFilters) ++
    (if order.isEmpty then [] else .text " ORDER BY " :: Sql.joined ", " order) ++ page

-- The nodes of an expression, from the renderings of their parts.

-- A value where it stands, as a condition unless it is an operand.
def standing (ctx : Context) (pos : Position) (value : Render Sql) : Render Sql := do
  let s ← value
  return if pos == .operand then s else asCondition ctx s

def negated (ctx : Context) (inner : Render Sql) : Render Sql := do
  match ctx.dialect.unaryKeyword .not with
  | none => noFeature ctx "operator not"
  | some kw => return negation kw (← inner)

-- An operand after the sign of a unary operator, in parentheses when it has several words.
def signed (ctx : Context) (op : UnaryOp) (inner : Render Sql) : Render Sql := do
  match ctx.dialect.unaryKeyword op with
  | none => noFeature ctx ("operator " ++ op.name)
  | some kw =>
    let inner ← inner
    let compound := (ctx.dialect.text inner).toList.any fun c => c == ' ' || c == '('
    return .text kw :: (if compound then Sql.enclosed inner else inner)

def nullTest (op : LogicOp) (operand : Render Sql) : Render Sql := do
  return (← operand) ++ [.text (if op.isNegated then " IS NOT NULL" else " IS NULL")]

-- A right side without text has no members: the test fails for every row, and its negation is
-- no condition. The parameters bound for the two sides are then forgotten.
def membership (ctx : Context) (op : LogicOp) (grouped : Bool) (left right : Render Sql) :
    Render Sql := do
  let mark ← paramCount
  let left ← left
  let right ← right
  if right.isBlank then
    release mark
    return if op.isNegated then [] else Sql.ofText "0=1"
  else match ctx.dialect.logicKeyword op with
    | none => noFeature ctx ("operator " ++ op.name)
    | some kw =>
      return left ++ .text (" " ++ kw ++ " ") :: (if grouped then right else Sql.enclosed right)

-- A pattern made of the right side: bound when it is known, else put together inside the
-- statement.
def patternOf (ctx : Context) (op : LogicOp) (known : Option String) (right : Render Sql) :
    Render Sql :=
  match known with
  | some s => bind ctx (.text (wrapPattern op (escapeLike s ctx.dialect.escape)))
  | none => do
    let right ← right
    return wildcards ctx.dialect op (escapedOperand ctx.dialect.escape right)

def patternTest (ctx : Context) (op : LogicOp) (known : Option String) (left right : Render Sql) :
    Render Sql := do
  let like : LogicOp := if op.isNegated then .notLike else .like
  match ctx.dialect.logicKeyword like with
  | none => noFeature ctx ("operator " ++ like.name)
  | some kw =>
    let left ← left
    let pattern ← patternOf ctx op known right
    return left ++ .text (" " ++ kw ++ " ") ::
      pattern ++ [.text " ESCAPE ", .string ctx.dialect.escape.toString]

def comparison (ctx : Context) (op : LogicOp) (left right : Render Sql) : Render Sql := do
  match ctx.dialect.logicKeyword op with
  | none => noFeature ctx ("operator " ++ op.name)
  | some kw =>
    let left ← left
    let right ← right
    return left ++ .text (" " ++ kw ++ " ") :: right

def computation (ctx : Context) (op : ValueOp) (left right : Render Sql) : Render Sql := do
  let left ← left
  let right ← right
  if op == .concatenate then return ctx.dialect.concat [left, right]
  else match ctx.dialect.valueKeyword op with
    | none => noFeature ctx ("operator " ++ op.name)
    | some kw => return Sql.enclosed (left ++ .text (" " ++ kw ++ " ") :: right)

def called (name : String) (args : Render (List Sql)) : Render Sql := do
  checkName "function" name
  let args ← args
  return .text name :: Sql.enclosed (Sql.joined ", " args)

def aggregation (name : String) (distinct : Bool) (arg : Render (Option Sql)) : Render Sql := do
  checkName "aggregate" name
  let arg ← arg
  let arg := arg.getD (Sql.ofText "*")
  return .text name :: Sql.enclosed (if distinct then .text "DISTINCT " :: arg else arg)

-- A set of conditions. A part that says nothing holds for every row: a disjunction with such a
-- part says nothing either, and the parameters bound for it are forgotten.
def combined (pos : Position) (kind : SetKind) (conditions : Render (List Sql × Bool)) :
    Render Sql := do
  let mark ← paramCount
  let (parts, vacuous) ← conditions
  if vacuous && kind == .or then
    release mark
    return []
  else match parts with
    | [] => return []
    | [s] => return s
    | parts =>
      let s := joinConditions kind parts
      return if pos == .enclosed then s else Sql.enclosed s

def listed (items : Render (List Sql)) : Render Sql := do
  let parts ← items
  return if parts.isEmpty then [] else Sql.enclosed (Sql.joined ", " parts)

def concatenated (ctx : Context) (items : Render (List Sql)) : Render Sql := do
  return ctx.dialect.concat (← items)

-- The keys of a join, from the related rows to those of the scope.
def joinKeys (ctx : Context) (n : Nat) (join : Join) : List Sql :=
  (join.foreignKeys.zip join.localKeys).map fun (f, l) =>
    [.table n, .text ".", .name f, .text " = ", qualifierOf ctx.scope, .text ".", .name l]

-- Whether related rows exist that meet the inner condition.
def existence (ctx : Context) (relation label : String) (tableArgs : List String)
    (inner : Context → Render Sql) : Render Sql := do
  let join ← ofExcept (ctx.resolver.relation ctx.scope.object relation)
  if join.localKeys.isEmpty || join.localKeys.length != join.foreignKeys.length then
    fail (.relation ctx.scope.object relation [])
  else
    tableArgs.forM (checkName "table argument")
    let table := expandTable join.table tableArgs
    let n ← nextTable
    let inside ← enter ctx { object := join.object, table, label, qualifier := some n }
    let inner ← inner inside
    return [.text "EXISTS (SELECT 1 FROM ", .name table, .text " ", .table n, .text " WHERE "] ++
      Sql.joined " AND " (joinKeys ctx n join ++ (if inner.isBlank then [] else [inner])) ++
      [.text ")"]

-- A query over the rows of an object, inside another statement.
def subquery (ctx : Context) (object : String) (body : Context → Render Sql) : Render Sql := do
  let table ← ofExcept (ctx.resolver.table object)
  let n ← nextTable
  let inside ← enter ctx { object, table, qualifier := some n }
  return Sql.enclosed (← body inside)

def singly (condition : Render Sql) : Render (List Sql) := do return [← condition]

-- The parts of a clause that is a set: those of a conjunction one by one, else the whole of it.
def clauseParts (kind : SetKind) (parts : Render (List Sql × Bool)) (whole : Render Sql) :
    Render (List Sql) :=
  if kind == .and then do return (← parts).1 else singly whole

-- The parts of a clause that say something, before those of the stages it comes after.
def clauseAfter (earlier parts : Render (List Sql)) : Render (List Sql) := do
  let parts ← parts
  return parts.filter (!·.isBlank) ++ (← earlier)

def labelled (label : String) (s : Sql) : Render Sql :=
  if label.isEmpty then return s
  else do
    checkName "alias" label
    return s ++ [.text " AS ", .name label]

mutual

def expr (frag : FragmentRenderer) (ctx : Context) (pos : Position) : Expr → Render Sql
  | .value v const =>
    if pos == .operand then literal ctx v const else condition ctx v const
  | .property owner name => standing ctx pos (column ctx owner name)
  | .unary op x =>
    if op == .not then negated ctx (expr frag ctx .enclosed x)
    else if op == .identity then
      expr frag ctx (if pos == .operand then .operand else .condition) x
    else if !op.isValid then unsupported (Expr.unary op x).display "invalid unary operator"
    else signed ctx op (expr frag ctx .operand x)
  | .compare op l r =>
    if !op.isValid then unsupported (Expr.compare op l r).display "invalid logic operator"
    else if op.positive == .equal && (l.isNull || r.isNull) then
      nullTest op (if l.isNull then expr frag ctx .operand r else expr frag ctx .operand l)
    else if op.positive == .isIn then
      membership ctx op (isGrouped r) (expr frag ctx .operand l) (expr frag ctx .operand r)
    else if op.isPattern then
      patternTest ctx op (patternText? r) (expr frag ctx .operand l) (expr frag ctx .operand r)
    else comparison ctx op (expr frag ctx .operand l) (expr frag ctx .operand r)
  | .compute op l r =>
    if !op.isValid then unsupported (Expr.compute op l r).display "invalid value operator"
    else computation ctx op (expr frag ctx .operand l) (expr frag ctx .operand r)
  | .call name args => standing ctx pos (called name (exprs frag ctx args))
  | .aggregate name arg distinct => aggregation name distinct (option frag ctx arg)
  | .set kind items =>
    if kind.isLogical then combined pos kind (conditions frag ctx items)
    else if kind == .list then listed (exprs frag ctx items)
    else if kind == .concat then concatenated ctx (exprs frag ctx items)
    else unsupported (Expr.set kind items).display "unknown set kind"
  | .related relation label inner tableArgs =>
    if ctx.scope.object.isEmpty then
      unsupported (Expr.related relation label inner tableArgs).display "no object in scope"
    else existence ctx relation label tableArgs fun inside => optionCondition frag inside inner
  | .fragment key arg => frag ctx key arg
  | .query q =>
    subquery ctx q.object fun inside =>
      assembled inside (q.foldWindows none) (selection frag inside q) (filters frag inside q)
        (grouping frag inside q) (groupFilters frag inside q) (ordering frag inside q)

def exprs (frag : FragmentRenderer) (ctx : Context) : List Expr → Render (List Sql)
  | [] => return []
  | e :: es => do
    let s ← expr frag ctx .operand e
    return s :: (← exprs frag ctx es)

def option (frag : FragmentRenderer) (ctx : Context) : Option Expr → Render (Option Sql)
  | none => return none
  | some e => do return some (← expr frag ctx .operand e)

def optionCondition (frag : FragmentRenderer) (ctx : Context) : Option Expr → Render Sql
  | none => return []
  | some e => expr frag ctx .condition e

-- The conditions that have text, and whether one had none.
def conditions (frag : FragmentRenderer) (ctx : Context) : List Expr → Render (List Sql × Bool)
  | [] => return ([], false)
  | e :: es => do
    let s ← expr frag ctx .condition e
    let (parts, vacuous) ← conditions frag ctx es
    return if s.isBlank then (parts, true) else (s :: parts, vacuous)

-- The columns of the selection closest to the rows.
def selection (frag : FragmentRenderer) (ctx : Context) : Query → Render (List Sql)
  | .rows _ => return []
  | .select q columns => if q.hasSelect then selection frag ctx q else columnList frag ctx columns
  | .filter q _ | .group q _ | .having q _ | .order q _ | .window q _ _ => selection frag ctx q

def columnList (frag : FragmentRenderer) (ctx : Context) : List (Column Expr) → Render (List Sql)
  | [] => return []
  | ⟨e, label⟩ :: cs => do
    let s ← expr frag ctx (if isCondition e then .condition else .operand) e
    let s ← labelled label (selectable ctx e s)
    return s :: (← columnList frag ctx cs)

-- The keys of the last grouping.
def grouping (frag : FragmentRenderer) (ctx : Context) : Query → Render (List Sql)
  | .rows _ => return []
  | .group _ keys => exprs frag ctx keys
  | .filter q _ | .select q _ | .having q _ | .order q _ | .window q _ _ => grouping frag ctx q

-- The conditions on rows, the last stage first.
def filters (frag : FragmentRenderer) (ctx : Context) : Query → Render (List Sql)
  | .rows _ => return []
  | .filter q (.set kind items) =>
    clauseAfter (filters frag ctx q) (clauseParts kind (conditions frag ctx items)
      (expr frag ctx .condition (.set kind items)))
  | .filter q p => clauseAfter (filters frag ctx q) (singly (expr frag ctx .condition p))
  | .group q _ | .select q _ | .having q _ | .order q _ | .window q _ _ => filters frag ctx q

def groupFilters (frag : FragmentRenderer) (ctx : Context) : Query → Render (List Sql)
  | .rows _ => return []
  | .having q (.set kind items) =>
    clauseAfter (groupFilters frag ctx q) (clauseParts kind (conditions frag ctx items)
      (expr frag ctx .condition (.set kind items)))
  | .having q p => clauseAfter (groupFilters frag ctx q) (singly (expr frag ctx .condition p))
  | .group q _ | .select q _ | .filter q _ | .order q _ | .window q _ _ => groupFilters frag ctx q

-- The keys of the last order.
def ordering (frag : FragmentRenderer) (ctx : Context) : Query → Render (List Sql)
  | .rows _ => return []
  | .order _ keys => sortKeys frag ctx keys
  | .group q _ | .select q _ | .filter q _ | .having q _ | .window q _ _ => ordering frag ctx q

def sortKeys (frag : FragmentRenderer) (ctx : Context) : List (SortKey Expr) → Render (List Sql)
  | [] => return []
  | ⟨e, asc⟩ :: ks => do
    let s ← expr frag ctx .operand e
    return (s ++ [.text (if asc then " ASC" else " DESC")]) :: (← sortKeys frag ctx ks)

end

def statement (frag : FragmentRenderer) (ctx : Context) (q : Query) : Render Sql :=
  assembled ctx (q.foldWindows none) (selection frag ctx q) (filters frag ctx q)
    (grouping frag ctx q) (groupFilters frag ctx q) (ordering frag ctx q)

end Render
end QueryTree
