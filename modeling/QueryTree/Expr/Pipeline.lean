import QueryTree.Expr.Build

namespace QueryTree

def noLimit : Int := -1

-- The rows after an offset, at most as many as the limit says.
structure Window where
  offset : Int
  limit : Int
deriving DecidableEq, Inhabited

namespace Window

def wrap64 (n : Int) : Int := IntKind.int64.wrap n

-- A negative offset counts as zero and a negative limit as none.
def clamped (offset limit : Int) : Window :=
  ⟨if offset < 0 then 0 else offset, if limit < 0 then noLimit else limit⟩

-- The window without its first rows.
def skip (w : Window) (n : Int) : Window :=
  let n := max n 0
  clamped (wrap64 (w.offset + n))
    (if w.limit == noLimit then noLimit else max (wrap64 (w.limit - n)) 0)

-- The first rows of the window. A negative number restricts nothing.
def take (w : Window) (n : Int) : Window :=
  if n < 0 then w
  else clamped w.offset (if w.limit == noLimit then n else min w.limit n)

-- The part of `inner` that a window over its rows shows.
def within (inner outer : Window) : Window := (inner.skip outer.offset).take outer.limit

end Window

namespace Query

def ofWindow (q : Query) (w : Window) : Query := .window q w.offset w.limit

-- The name of the last stage.
def stage : Query → String
  | .rows _ => "From"
  | .filter .. => "Where"
  | .group .. => "GroupBy"
  | .having .. => "Having"
  | .order .. => "OrderBy"
  | .window .. => "Section"
  | .select .. => "Select"

def source? : Query → Option Query
  | .rows _ => none
  | .filter q _ | .group q _ | .having q _ | .order q _ | .window q _ _ | .select q _ => some q

-- The object whose rows a query starts from.
def object : Query → String
  | .rows o => o
  | .filter q _ | .group q _ | .having q _ | .order q _ | .window q _ _ | .select q _ => q.object

def isFilterable : Query → Bool
  | .rows _ | .filter .. => true
  | _ => false

def isGroup : Query → Bool
  | .group .. => true
  | _ => false

def isOrdered : Query → Bool
  | .order .. => true
  | _ => false

-- Queries of plain rows, which may be sorted, cut and grouped.
def isPlain : Query → Bool
  | .rows _ | .filter .. | .order .. | .window .. => true
  | _ => false

def isProjectable : Query → Bool
  | .select .. => false
  | _ => true

def ofObject (object : String) : Except Error Query := do
  checkIdentifier "object" object
  return .rows object

-- Filters a query of rows; a further predicate joins the one of the same stage.
def where? (q : Query) (p : Expr) : Option Query :=
  match q with
  | .rows _ => some (.filter q p)
  | .filter src p₀ => some (.filter src (Expr.and [p₀, p]))
  | _ => none

-- Sorts the rows; directly after another order it takes its place.
def orderBy? (q : Query) (keys : List (SortKey Expr)) : Option Query :=
  match q with
  | .order src _ => some (.order src keys)
  | _ => if q.isPlain then some (.order q keys) else none

-- Adds keys to the order directly before.
def thenBy? (q : Query) (keys : List (SortKey Expr)) : Option Query :=
  match q with
  | .order src ks => some (.order src (ks ++ keys))
  | _ => none

-- Drops rows. Within a window it moves the start and shortens the limit.
def skip? (q : Query) (n : Int) : Option Query :=
  match q with
  | .window src offset limit => some (ofWindow src (Window.skip ⟨offset, limit⟩ n))
  | _ => if q.isPlain then some (ofWindow q (Window.clamped n noLimit)) else none

-- Keeps at most so many rows. Within a window it can only shorten it.
def take? (q : Query) (n : Int) : Option Query :=
  match q with
  | .window src offset limit => some (ofWindow src (Window.take ⟨offset, limit⟩ n))
  | _ => if q.isPlain then some (ofWindow q (Window.clamped 0 n)) else none

def groupBy? (q : Query) (keys : List Expr) : Option Query :=
  if q.isPlain then some (.group q keys) else none

def addKeys? (q : Query) (keys : List Expr) : Option Query :=
  match q with
  | .group src ks => some (.group src (ks ++ keys))
  | _ => none

def having? (q : Query) (p : Expr) : Option Query :=
  if q.isGroup then some (.having q p) else none

def select? (q : Query) (columns : List (Column Expr)) : Option Query :=
  if q.isProjectable then some (.select q columns) else none

end Query

-- A column under a checked label.
def Column.named (e : Expr) (label : String) : Except Error (Column Expr) := do
  checkIdentifier "alias" label
  return ⟨e, label⟩

-- What a kind of expression is called; a query goes by its last stage.
def Expr.kindName : Expr → String
  | .value .. => "Value"
  | .property .. => "Property"
  | .unary .. => "Unary"
  | .compare .. => "LogicBinary"
  | .compute .. => "ValueBinary"
  | .call .. => "Function"
  | .aggregate .. => "Aggregate"
  | .set .. => "Set"
  | .related .. => "Foreign"
  | .fragment .. => "DynamicSQL"
  | .query q => q.stage

end QueryTree
