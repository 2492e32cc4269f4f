import QueryTree.Expr.Equal
import QueryTree.Script.Method

namespace QueryTree.Script

def propertyOf (i : Item) : Run Expr := do must "property" (Expr.ofPath (← i.text))

def aggregateOf (name : String) (arg : Item) (distinct : Bool) : Run Item := do
  return .expr (← must "aggregate" (Expr.aggregated name (← arg.keptExpr?) distinct))

def compute (op : ValueOp) (a b : Item) : Run Item := do
  return .expr (Expr.computeWith op (← a.operand) (← b.operand))

-- A condition on related rows: the inner predicate and table arguments come last.
def related (relation label : Item) (rest : List Item) : Run (Except Error Expr) := do
  let relation ← relation.text
  let label ← label.text
  let inner ← (nth rest 0).keptPredicate?
  return Expr.existing relation label inner (← (rest.drop 1).mapM Item.text)

def literalOperation? (name : String) (a b : Item) : Option (Run Item) :=
  match name with
  | "P" => some do return .expr (← propertyOf a)
  | "TryP" => some do return .expr (← tried (Expr.ofPath (← a.text)))
  | "V" => some (return .expr a.bound)
  | "Const" => some do return .expr (← must "constant" (Expr.constant a.plain))
  | "TryConst" => some do return .expr (← tried (Expr.constant a.plain))
  | "SQL" => some do return .expr (← must "fragment" (Expr.sql (← a.text) b.plain))
  | "TrySQL" => some do return .expr (← tried (Expr.sql (← a.text) b.plain))
  | "From" => some do return .expr (.query (← must "query root" (Query.ofObject (← a.text))))
  | "TryFrom" => some do return .expr (.query (← tried (Query.ofObject (← a.text))))
  | _ => none

def predicateOperation? (name : String) (args : List Item) : Option (Run Item) :=
  let a := nth args 0
  let b := nth args 1
  let c := nth args 2
  let rest := args.drop 1
  match name with
  | "Eq" => some do
    let path ← a.text
    let v ← b.operand
    return .expr (Expr.compareWith .equal (← must "property" (Expr.ofPath path)) v)
  | "C" => some do
    let op ← b.code
    return .expr (.compare ⟨op⟩ (← a.operand).toExpr (← c.operand).toExpr)
  | "In" => some do
    let values ← rest.mapM Item.operand
    return .expr ((← propertyOf a).isIn values)
  | "NotIn" => some do
    let values ← rest.mapM Item.operand
    return .expr ((← propertyOf a).notIn values)
  | "And" => some do return .expr (Expr.and (← args.mapM Item.predicateOrNull))
  | "Or" => some do return .expr (Expr.or (← args.mapM Item.predicateOrNull))
  | "Not" => some do return .expr (Expr.not (← a.predicateOrNull))
  | "Between" => some do return .expr ((← a.exprOrNull).between (← b.operand) (← c.operand))
  | "IsNull" => some do return .expr (.compare .equal (← propertyOf a) .null)
  | "IsNotNull" => some do return .expr (.compare .notEqual (← propertyOf a) .null)
  | "Exists" => some do return .expr (← must "relation" (← related a (.value (.text "")) rest))
  | "ExistsAs" => some do return .expr (← must "relation" (← related a b (args.drop 2)))
  | "TryExists" => some do return .expr (← tried (← related a b (args.drop 2)))
  | name =>
    (LogicOp.patternMethod? name).map fun op => do
      let path ← a.text
      let s ← b.text
      return .expr (Expr.compareWith op (← must "property" (Expr.ofPath path)) (.value (.text s)))

def valueOperation? (name : String) (args : List Item) : Option (Run Item) :=
  let a := nth args 0
  let b := nth args 1
  let rest := args.drop 1
  match name with
  | "Concat" => some do return .expr (Expr.join .concat (← args.mapM Item.exprOrNull))
  | "List" => some do return .expr (Expr.join .list (← args.mapM Item.exprOrNull))
  | "Func" => some do
    let fn ← a.text
    let xs ← rest.mapM Item.exprOrNull
    return .expr (← must "function" (Expr.func fn xs))
  | "TryFunc" => some do
    let fn ← a.text
    let xs ← rest.mapM Item.exprOrNull
    return .expr (← tried (Expr.func fn xs))
  | "Coalesce" => some do return .expr (.call "COALESCE" (← args.mapM Item.exprOrNull))
  | "Upper" => some do return .expr (.call "UPPER" [← a.exprOrNull])
  | "Lower" => some do return .expr (.call "LOWER" [← a.exprOrNull])
  | "Length" => some do return .expr (.call "LENGTH" [← a.exprOrNull])
  | "Count" => some (aggregateOf "COUNT" a false)
  | "CountAll" => some (aggregateOf "COUNT" .null false)
  | "CountDistinct" => some (aggregateOf "COUNT" a true)
  | "Sum" => some (aggregateOf "SUM" a false)
  | "Avg" => some (aggregateOf "AVG" a false)
  | "Min" => some (aggregateOf "MIN" a false)
  | "Max" => some (aggregateOf "MAX" a false)
  | "Add" => some (compute .add a b)
  | "Sub" => some (compute .subtract a b)
  | "Mul" => some (compute .multiply a b)
  | "Div" => some (compute .divide a b)
  | "Mod" => some (compute .modulo a b)
  | "Neg" => some do return .expr (.unary .negate (← a.exprOrNull))
  | _ => none

def partOperation? (name : String) (args : List Item) : Option (Run Item) :=
  let a := nth args 0
  let b := nth args 1
  let c := nth args 2
  match name with
  | "Asc" => some do return .key (← a.keptExpr?) true
  | "Desc" => some do return .key (← a.keptExpr?) false
  | "As" => some do
    let e ← a.keptExpr?
    let column ← must "projection" (Column.named (e.getD .null) (← b.text))
    return .column e column.label
  | "Col" => some do return .column (← a.keptExpr?) ""
  | "NewSetBuilder" => some do
    let kind ← a.code
    let n := (← get).length
    modify (· ++ [{ kind := ⟨kind⟩ }])
    return .builder n
  | "NewSet" => some do
    let kind ← a.code
    return .expr (Expr.join ⟨kind⟩ (← (args.drop 1).mapM Item.exprOrNull))
  | "NewUnary" => some do
    let op ← a.code
    return .expr (.unary ⟨op⟩ (← b.exprOrNull))
  | "NewValueBinary" => some do
    let op ← b.code
    return .expr (.compute ⟨op⟩ (← a.exprOrNull) (← c.exprOrNull))
  | "NewLogicBinary" => some do
    let op ← b.code
    return .expr (.compare ⟨op⟩ (← a.exprOrNull) (← c.exprOrNull))
  | "NewAggregate" => some do
    let fn ← a.text
    let arg ← b.keptExpr?
    return .expr (← tried (Expr.aggregated fn arg (← c.bool)))
  | "Equal" => some do
    match ← a.keptExpr?, ← b.keptExpr? with
    | some x, some y => return .value (.bool (x.same y))
    | none, none => return .value (.bool true)
    | _, _ => return .value (.bool false)
  | "id" => some (return a)
  | _ => none

def rawOperation? (name : String) (args : List Item) : Option (Run Item) :=
  let a := nth args 0
  let b := nth args 1
  let c := nth args 2
  match name with
  | "rawValue" => some do return .expr (.value a.plain (← b.bool))
  | "rawFunction" => some do
    let fn ← a.text
    let xs ← (args.drop 1).mapM fun x => do
      match ← x.keptExpr? with
      | some e => return e
      | none => throw (.broken none)
    return .expr (.call fn xs)
  | "rawAggregate" => some do return .expr (.aggregate (← a.text) (← b.keptExpr?) false)
  | "rawForeign" => some do
    let relation ← a.text
    let inner ← b.keptPredicate?
    return .expr (.related relation "" inner (← (args.drop 2).mapM Item.text))
  | "rawProjection" => some do return .column (← a.keptExpr?) (← b.text)
  | "rawSection" => some do
    match a with
    | .expr (.query q) => return .expr (.query (.window q (← b.count) (← c.count)))
    | _ => throw .mismatch
  | _ => none

def operation (name : String) (args : List Item) : Run Item :=
  match name.toList with
  | '.' :: m => method (String.ofList m) args
  | _ =>
    let found := literalOperation? name (nth args 0) (nth args 1) <|> predicateOperation? name args <|>
      valueOperation? name args <|> partOperation? name args <|> rawOperation? name args
    match found with
    | some run => run
    | none => throw .noOperation

end QueryTree.Script
