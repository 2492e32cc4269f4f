import QueryTree.Expr.Hash

namespace QueryTree

namespace Expr

-- Null literals are equal whether constant or bound.
def sameValue (v : Value) (c : Bool) (w : Value) (d : Bool) : Bool :=
  match v, w with
  | .null, .null => true
  | .null, _ | _, .null => false
  | v, w => c == d && v.same w

mutual

def same : Expr → Expr → Bool
  | .value v c, .value w d => sameValue v c w d
  | .property o n, .property p m => o == p && n == m
  | .unary op x, .unary oq y => op == oq && x.same y
  | .compare op l r, .compare oq s t => op == oq && l.same s && r.same t
  | .compute op l r, .compute oq s t => op == oq && l.same s && r.same t
  | .call n as, .call m bs => n == m && sameAll as bs
  | .aggregate n a d, .aggregate m b e => n == m && d == e && sameOption a b
  | .set k as, .set l bs =>
    k == l && if k.isLogical then allWithin as bs && bs.all (within as) else sameAll as bs
  | .related r l i ts, .related s m j us => r == s && l == m && ts == us && sameOption i j
  | .fragment k a, .fragment l b => k == l && a.same b
  | .query p, .query q => sameQuery p q
  | _, _ => false

def sameAll : List Expr → List Expr → Bool
  | [], [] => true
  | a :: as, b :: bs => a.same b && sameAll as bs
  | _, _ => false

-- Whether each of the first equals one of the second, looked for among those of the same hash.
def allWithin : List Expr → List Expr → Bool
  | [], _ => true
  | a :: as, bs => (bs.any fun b => b.hash == a.hash && a.same b) && allWithin as bs

-- Whether one of the first equals `b`.
def within : List Expr → Expr → Bool
  | [], _ => false
  | a :: as, b => (a.hash == b.hash && a.same b) || within as b

def sameOption : Option Expr → Option Expr → Bool
  | none, none => true
  | some a, some b => a.same b
  | _, _ => false

def sameQuery : Query → Query → Bool
  | .rows o, .rows p => o == p
  | .filter q a, .filter r b => sameQuery q r && a.same b
  | .group q as, .group r bs => sameQuery q r && sameAll as bs
  | .having q a, .having r b => sameQuery q r && a.same b
  | .order q as, .order r bs => sameQuery q r && sameKeys as bs
  | .window q o l, .window r p m => o == p && l == m && sameQuery q r
  | .select q as, .select r bs => sameQuery q r && sameColumns as bs
  | _, _ => false

def sameKeys : List (SortKey Expr) → List (SortKey Expr) → Bool
  | [], [] => true
  | ⟨a, x⟩ :: as, ⟨b, y⟩ :: bs => x == y && a.same b && sameKeys as bs
  | _, _ => false

def sameColumns : List (Column Expr) → List (Column Expr) → Bool
  | [], [] => true
  | ⟨a, l⟩ :: as, ⟨b, m⟩ :: bs => l == m && a.same b && sameColumns as bs
  | _, _ => false

end

end Expr
end QueryTree
