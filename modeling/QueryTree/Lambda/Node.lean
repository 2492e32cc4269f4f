import QueryTree.Lambda.Token

namespace QueryTree.Lambda

-- The characters of a source from `start` up to, but not at, `stop`.
structure Span where
  start : Nat
  stop : Nat
deriving DecidableEq, Inhabited

inductive InfixOp where
  | eq | ne | lt | le | gt | ge
  | both | either
  | add | sub | mul | quo | rem
  | bitAnd | bitOr | bitXor | bitClear | shiftLeft | shiftRight
deriving DecidableEq, Inhabited

namespace InfixOp

def table : List (InfixOp × String × Nat) :=
  [(either, "||", 1), (both, "&&", 2),
   (eq, "==", 3), (ne, "!=", 3), (lt, "<", 3), (le, "<=", 3), (gt, ">", 3), (ge, ">=", 3),
   (add, "+", 4), (sub, "-", 4), (bitOr, "|", 4), (bitXor, "^", 4),
   (mul, "*", 5), (quo, "/", 5), (rem, "%", 5), (shiftLeft, "<<", 5), (shiftRight, ">>", 5),
   (bitAnd, "&", 5), (bitClear, "&^", 5)]

def symbol (op : InfixOp) : String := ((table.lookup op).map (·.1)).getD ""

-- The operator of a mark, and how strongly it binds.
def ofMark? (mark : String) : Option (InfixOp × Nat) :=
  (table.find? (·.2.1 == mark)).map fun (op, _, strength) => (op, strength)

end InfixOp

inductive PrefixOp where
  | not | minus | plus | complement | address | receive | tilde
deriving DecidableEq, Inhabited

namespace PrefixOp

def table : List (PrefixOp × String) :=
  [(not, "!"), (minus, "-"), (plus, "+"), (complement, "^"), (address, "&"), (receive, "<-"),
   (tilde, "~")]

def symbol (op : PrefixOp) : String := (table.lookup op).getD ""

def ofMark? (mark : String) : Option PrefixOp := (table.find? (·.2 == mark)).map (·.1)

end PrefixOp

-- Syntax that no lambda gives a meaning to.
inductive OtherKind where
  | indexList | slice | typeAssert | structType | funcType | interfaceType | mapType | chanType
  | ellipsis
deriving DecidableEq, Inhabited

-- `lambda` has a parameter when it takes exactly one, by name. Its result is the value that its
-- body returns when the body is a single return of one value, without parentheses around it.
inductive Node where
  | ident (span : Span) (name : String)
  | literal (span : Span) (value : Literal)
  | selector (span : Span) (x : Node) (name : String)
  | call (span : Span) (fn : Node) (args : List Node)
  | prefixed (span : Span) (op : PrefixOp) (x : Node)
  | infixed (span : Span) (op : InfixOp) (x y : Node)
  | star (span : Span) (x : Node)
  | index (span : Span) (x key : Node)
  | composite (span : Span) (type : Option Node) (items : List Node)
  | pair (span : Span) (key value : Node)
  | lambda (span : Span) (param : Option String) (statements : Nat) (result : Option Node)
  | paren (span : Span) (x : Node)
  | arrayType (span : Span) (size : Option Node) (elem : Node)
  | other (span : Span) (kind : OtherKind) (parts : List Node)
deriving Inhabited

namespace Node

def span : Node → Span
  | .ident s _ | .literal s _ | .selector s _ _ | .call s _ _ | .prefixed s _ _ | .infixed s _ _ _
  | .star s _ | .index s _ _ | .composite s _ _ | .pair s _ _ | .lambda s _ _ _ | .paren s _
  | .arrayType s _ _ | .other s _ _ => s

def unparen : Node → Node
  | .paren _ x => x.unparen
  | x => x

def kindName : Node → String
  | .ident .. => "*ast.Ident"
  | .literal .. => "*ast.BasicLit"
  | .selector .. => "*ast.SelectorExpr"
  | .call .. => "*ast.CallExpr"
  | .prefixed .. => "*ast.UnaryExpr"
  | .infixed .. => "*ast.BinaryExpr"
  | .star .. => "*ast.StarExpr"
  | .index .. => "*ast.IndexExpr"
  | .composite .. => "*ast.CompositeLit"
  | .pair .. => "*ast.KeyValueExpr"
  | .lambda .. => "*ast.FuncLit"
  | .paren .. => "*ast.ParenExpr"
  | .arrayType .. => "*ast.ArrayType"
  | .other _ kind _ =>
    match kind with
    | .indexList => "*ast.IndexListExpr"
    | .slice => "*ast.SliceExpr"
    | .typeAssert => "*ast.TypeAssertExpr"
    | .structType => "*ast.StructType"
    | .funcType => "*ast.FuncType"
    | .interfaceType => "*ast.InterfaceType"
    | .mapType => "*ast.MapType"
    | .chanType => "*ast.ChanType"
    | .ellipsis => "*ast.Ellipsis"

end Node
end QueryTree.Lambda
