import QueryTree.Operator
import QueryTree.Value.Basic

namespace QueryTree

structure SortKey (α : Type) where
  expr : α
  ascending : Bool
deriving Inhabited

-- A selected column; an empty label is none.
structure Column (α : Type) where
  expr : α
  label : String
deriving Inhabited

mutual

-- A literal is written into the statement when it is constant and bound as a parameter otherwise.
-- A property belongs to the row that its owner names, or to the current row without an owner.
-- An aggregate without an argument counts rows. `related` holds when related rows exist; its
-- label names them inside the inner predicate.
inductive Expr where
  | value (v : Value) (const : Bool)
  | property (owner name : String)
  | unary (op : UnaryOp) (operand : Expr)
  | compare (op : LogicOp) (left right : Expr)
  | compute (op : ValueOp) (left right : Expr)
  | call (name : String) (args : List Expr)
  | aggregate (name : String) (arg : Option Expr) (distinct : Bool)
  | set (kind : SetKind) (items : List Expr)
  | related (relation label : String) (inner : Option Expr) (tableArgs : List String)
  | fragment (key : String) (arg : Value)
  | query (q : Query)

-- Every stage but the first one has a source. A limit of -1 is none.
inductive Query where
  | rows (object : String)
  | filter (source : Query) (predicate : Expr)
  | group (source : Query) (keys : List Expr)
  | having (source : Query) (predicate : Expr)
  | order (source : Query) (keys : List (SortKey Expr))
  | window (source : Query) (offset limit : Int)
  | select (source : Query) (columns : List (Column Expr))

end

instance : Inhabited Expr := ⟨.value .null true⟩
instance : Inhabited Query := ⟨.rows ""⟩

namespace Expr

def null : Expr := .value .null true

def isNull : Expr → Bool
  | .value .null _ => true
  | _ => false

-- Expressions that may stand where a predicate is wanted.
def isLogic : Expr → Bool
  | .value .. | .property .. | .unary .. | .compare .. | .call .. | .related .. | .fragment ..
  | .set .. => true
  | .compute .. | .aggregate .. | .query .. => false

end Expr
end QueryTree
