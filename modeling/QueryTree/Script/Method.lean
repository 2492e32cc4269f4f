import QueryTree.Script.Item

namespace QueryTree.Script

-- A query after one more stage, if its last stage allows it.
def staged (allowed : Bool) (next : Run (Option Query)) : Run Item := do
  if allowed then
    match ← next with
    | some q => return .expr (.query q)
    | none => throw .noMethod
  else throw .noMethod

def queryMethod (q : Query) (m : String) (args : List Item) : Run Item := do
  let a := nth args 0
  match m with
  | "Where" =>
    match q with
    | .filter .. => staged true do return q.where? (← a.predicateOrNull)
    | _ => staged q.isFilterable do return q.where? ((← a.keptPredicate?).getD .null)
  | "OrderBy" => staged q.isPlain do return q.orderBy? (← args.mapM Item.sortKey)
  | "ThenBy" => staged q.isOrdered do return q.thenBy? (← args.mapM Item.sortKey)
  | "Skip" => staged q.isPlain do return q.skip? (← a.count)
  | "Take" => staged q.isPlain do return q.take? (← a.count)
  | "GroupBy" => staged q.isPlain do return q.groupBy? (← args.mapM Item.exprOrNull)
  | "Add" => staged q.isGroup do return q.addKeys? (← args.mapM Item.exprOrNull)
  | "Having" => staged q.isGroup do return q.having? ((← a.keptPredicate?).getD .null)
  | "Select" => staged q.isProjectable do return q.select? (← args.mapM Item.selected)
  | "Parent" =>
    match q.source? with
    | some s => return .expr (.query s)
    | none => return .null
  | "Stage" => return .value (.text q.stage)
  | _ => throw .noMethod

def propertyMethod (owner name m : String) (args : List Item) : Run Item := do
  let p := Expr.property owner name
  let a := nth args 0
  match LogicOp.patternMethod? m with
  | some op => return .expr (Expr.compareWith op p (← a.operand))
  | none =>
    match m with
    | "In" => return .expr (p.isIn (← args.mapM Item.operand))
    | "NotIn" => return .expr (p.notIn (← args.mapM Item.operand))
    | "IsNull" => return .expr (.compare .equal p .null)
    | "IsNotNull" => return .expr (.compare .notEqual p .null)
    | "Between" => return .expr (p.between (← a.operand) (← (nth args 1).operand))
    | "Asc" => return .key (some p) true
    | "Desc" => return .key (some p) false
    | "As" => return .column (some p) (← a.text)
    | "Plus" => return .expr (Expr.computeWith .add p (← a.operand))
    | "Minus" => return .expr (Expr.computeWith .subtract p (← a.operand))
    | "Concat" => return .expr (Expr.computeWith .concatenate p (← a.operand))
    | "Path" => return .value (.text (Expr.path owner name))
    | _ => throw .noMethod

def exprMethod (e : Expr) (m : String) (args : List Item) : Run Item := do
  if m == "String" then return .value (.text e.display)
  else match LogicOp.comparisonMethod? m with
    | some op =>
      if e.isComparable then return .expr (Expr.compareWith op e (← (nth args 0).operand))
      else throw .noMethod
    | none =>
      match e with
      | .property owner name => propertyMethod owner name m args
      | .query q => queryMethod q m args
      | .aggregate .. =>
        if m == "As" then return .column (some e) (← (nth args 0).text) else throw .noMethod
      | .compare op l r =>
        if m == "Reverse" then return .expr (← tried (Expr.reverse op l r (← (nth args 0).bool)))
        else throw .noMethod
      | .set kind items =>
        match m with
        | "Add" => return .expr (Expr.add kind items (← args.mapM Item.exprOrNull))
        | "Len" => return .value (.int .int items.length)
        | _ => throw .noMethod
      | _ => throw .noMethod

def builderMethod (n : Nat) (m : String) (args : List Item) : Run Item := do
  let b := (← get).getD n default
  match m with
  | "Add" =>
    let b := b.add (← args.mapM Item.exprOrNull)
    modify fun bs => bs.set n b
    return .builder n
  | "Len" => return .value (.int .int b.items.length)
  | "Build" => return .expr b.build
  | _ => throw .noMethod

def method (m : String) : List Item → Run Item
  | .expr e :: args => exprMethod e m args
  | .builder n :: args => builderMethod n m args
  | .unset :: _ => throw (if m == "String" then .broken none else .noMethod)
  | _ => throw .noMethod

end QueryTree.Script
