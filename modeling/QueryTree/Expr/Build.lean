import QueryTree.Error
import QueryTree.Expr.Basic
import QueryTree.Text.Identifier
import QueryTree.Value.Literal

namespace QueryTree

def checkIdentifier (kind s : String) : Except Error Unit :=
  if Text.isIdentifier s then .ok () else .error (.identifier kind s)

-- Something that can be compared with: an expression, or a value.
inductive Operand where
  | expr (e : Expr)
  | value (v : Value)
deriving Inhabited

-- The expression of an operand. A value is bound, null is the null literal.
def Operand.toExpr : Operand → Expr
  | .expr e => e
  | .value .null => .null
  | .value v => .value v false

instance : Coe Expr Operand := ⟨.expr⟩
instance : Coe Value Operand := ⟨.value⟩

namespace LogicOp

-- The comparison that a method of this name makes.
def comparisonMethod? : String → Option LogicOp
  | "Eq" => some .equal
  | "Ne" => some .notEqual
  | "Gt" => some .greater
  | "Ge" => some .greaterOrEqual
  | "Lt" => some .less
  | "Le" => some .lessOrEqual
  | _ => none

-- The match that a method of this name makes.
def patternMethod? : String → Option LogicOp
  | "Like" => some .like
  | "NotLike" => some .notLike
  | "Contains" => some .contains
  | "StartsWith" => some .startsWith
  | "EndsWith" => some .endsWith
  | _ => none

end LogicOp

namespace Expr

-- Expressions that have methods for comparisons.
def isComparable : Expr → Bool
  | .property .. | .call .. | .aggregate .. | .compute .. | .unary .. => true
  | _ => false

-- A bound parameter. The null value is the null literal.
def bound (v : Value) : Expr := Operand.toExpr (.value v)

-- A literal written into the statement: null, a boolean or a number.
def constant (v : Value) : Except Error Expr :=
  if v.isNull then .ok .null
  else if v.isPrimitive then .ok (.value v true)
  else .error (.unsupported v.literal "constant must be a boolean or number")

def segments (cs : List Char) : List (List Char) :=
  match cs with
  | [] => [[]]
  | c :: rest =>
    match segments rest with
    | seg :: segs => if c == '.' then [] :: seg :: segs else (c :: seg) :: segs
    | [] => [[c]]

-- A property by its path: a name, or an owner and a name, the owner perhaps itself dotted.
def ofPath (path : String) : Except Error Expr := do
  let segs := (segments path.toList).map String.ofList
  let name := segs.getLastD ""
  let owner := segs.dropLast
  checkIdentifier "property" name
  owner.forM (checkIdentifier "alias")
  return .property (".".intercalate owner) name

def path (owner name : String) : String := if owner.isEmpty then name else owner ++ "." ++ name

-- The comparison with its operands exchanged. Unless the operator is to be kept, it is replaced
-- by the one that leaves the meaning as it was.
def reverse (op : LogicOp) (left right : Expr) (keep : Bool) : Except Error Expr :=
  if keep then .ok (.compare op right left)
  else match op.reversed? with
    | some o => .ok (.compare o right left)
    | none => .error (.irreversible op)

def func (name : String) (args : List Expr) : Except Error Expr := do
  checkIdentifier "function" name
  return .call name args

def aggregated (name : String) (arg : Option Expr) (distinct : Bool) : Except Error Expr := do
  checkIdentifier "aggregate" name
  return .aggregate name arg distinct

def existing (relation label : String) (inner : Option Expr) (tableArgs : List String) :
    Except Error Expr := do
  checkIdentifier "relation" relation
  unless label.isEmpty do checkIdentifier "alias" label
  tableArgs.forM (checkIdentifier "table argument")
  return .related relation label inner tableArgs

def sql (key : String) (arg : Value) : Except Error Expr := do
  checkIdentifier "fragment" key
  return .fragment key arg

-- The children an expression gives to a set of a kind: those of a set of that kind, else itself.
def spliced (kind : SetKind) : Expr → List Expr
  | .set k items => if k == kind then items else [.set k items]
  | e => [e]

-- A set of the kind, with inner sets of the same kind spliced in.
def join (kind : SetKind) (items : List Expr) : Expr := .set kind (items.flatMap (spliced kind))

def add (kind : SetKind) (items more : List Expr) : Expr :=
  .set kind (items ++ more.flatMap (spliced kind))

def and (ps : List Expr) : Expr := join .and ps

def or (ps : List Expr) : Expr := join .or ps

def not (p : Expr) : Expr := .unary .not p

def compareWith (op : LogicOp) (left : Expr) (right : Operand) : Expr :=
  .compare op left right.toExpr

def computeWith (op : ValueOp) (left right : Operand) : Expr :=
  .compute op left.toExpr right.toExpr

-- At least the lower and at most the upper bound.
def between (e : Expr) (low high : Operand) : Expr :=
  and [compareWith .greaterOrEqual e low, compareWith .lessOrEqual e high]

end Expr

-- A set under construction.
structure SetBuilder where
  kind : SetKind
  items : List Expr := []
deriving Inhabited

namespace SetBuilder

def add (b : SetBuilder) (more : List Expr) : SetBuilder :=
  { b with items := b.items ++ more.flatMap (Expr.spliced b.kind) }

def build (b : SetBuilder) : Expr := .set b.kind b.items

end SetBuilder
end QueryTree
