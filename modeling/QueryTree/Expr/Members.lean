import QueryTree.Expr.Display

namespace QueryTree
namespace Expr

def exprType : Ty := .named "types.Expr"

def codeValue (type : String) (code : UInt8) : Value := .named type (.int .uint8 code.toNat)

def texts (ss : List String) : Value :=
  if ss.isEmpty then .nilList .text else .list .text (ss.map .text)

def nodeWith (e : Expr) (fields : List (String × Value)) : Value :=
  .node ("types." ++ e.kindName) e.display fields

mutual

-- The members that the node of an expression has.
def fields : Expr → List (String × Value)
  | .value v const => [("Value", v), ("Const", .bool const)]
  | .property owner name => [("Alias", .text owner), ("Name", .text name)]
  | .unary op x =>
    [("Op", codeValue "types.UnaryOperator" op.code), ("Operand", nodeWith x x.fields)]
  | .compare op l r =>
    [("Left", nodeWith l l.fields), ("Op", codeValue "types.LogicOperator" op.code),
      ("Right", nodeWith r r.fields)]
  | .compute op l r =>
    [("Left", nodeWith l l.fields), ("Op", codeValue "types.ValueOperator" op.code),
      ("Right", nodeWith r r.fields)]
  | .call name args => [("Name", .text name), ("Args", .list exprType (itemNodes args))]
  | .aggregate name arg distinct =>
    [("Name", .text name), ("Arg", optionNode arg), ("Distinct", .bool distinct)]
  | .set kind items =>
    [("Kind", codeValue "types.SetKind" kind.code), ("Children", .list exprType (itemNodes items))]
  | .related relation label inner tableArgs =>
    [("Relation", .text relation), ("Alias", .text label), ("Inner", optionNode inner),
      ("TableArgs", texts tableArgs)]
  | .fragment key arg => [("Key", .text key), ("Arg", arg)]
  | .query q => stageFields q

def itemNodes : List Expr → List Value
  | [] => []
  | e :: es => nodeWith e e.fields :: itemNodes es

def optionNode : Option Expr → Value
  | none => .null
  | some e => nodeWith e e.fields

def stageFields : Query → List (String × Value)
  | .rows object => [("Object", .text object)]
  | .filter q p => [("Source", nodeWith (.query q) (stageFields q)), ("Predicate", nodeWith p p.fields)]
  | .having q p => [("Source", nodeWith (.query q) (stageFields q)), ("Predicate", nodeWith p p.fields)]
  | .group q keys =>
    [("Source", nodeWith (.query q) (stageFields q)), ("Keys", .list exprType (itemNodes keys))]
  | .order q keys =>
    [("Source", nodeWith (.query q) (stageFields q)),
      ("Keys", .list (.named "types.OrderKey") (keyNodes keys))]
  | .window q offset limit =>
    [("Source", nodeWith (.query q) (stageFields q)), ("Offset", .int64 offset),
      ("Limit", .int64 limit)]
  | .select q columns =>
    [("Source", nodeWith (.query q) (stageFields q)),
      ("Projections", .list (.named "types.Projection") (columnNodes columns))]

def keyNodes : List (SortKey Expr) → List Value
  | [] => []
  | ⟨e, asc⟩ :: ks =>
    .record "types.OrderKey" [("Expr", nodeWith e e.fields), ("Ascending", .bool asc)] :: keyNodes ks

def columnNodes : List (Column Expr) → List Value
  | [] => []
  | ⟨e, label⟩ :: cs =>
    .record "types.Projection" [("Expr", nodeWith e e.fields), ("Alias", .text label)] ::
      columnNodes cs

end

-- An expression that stands where a value does.
def toValue (e : Expr) : Value := nodeWith e e.fields

end Expr

def Operand.toValue : Operand → Value
  | .expr e => e.toValue
  | .value v => v

namespace Expr

-- The right side of a membership test. A single expression or list is taken as it is; anything
-- else becomes one list parameter, with expressions among its items as they are.
def members : List Operand → Expr
  | [.expr e] => e
  | [.value v] => if v.items?.isSome then .value v false else .value (.items [v]) false
  | ops => .value (.items (ops.map Operand.toValue)) false

def isIn (e : Expr) (values : List Operand) : Expr := .compare .isIn e (members values)

def notIn (e : Expr) (values : List Operand) : Expr := .compare .notIn e (members values)

end Expr
end QueryTree
