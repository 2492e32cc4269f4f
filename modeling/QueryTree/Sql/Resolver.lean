import QueryTree.Error

namespace QueryTree

structure ResolvedColumn where
  name : String
  type : String
  nullable : Bool
deriving DecidableEq, Inhabited

-- The join behind a relation; local and foreign keys pair up by position.
structure Join where
  object : String
  table : String
  localKeys : List String
  foreignKeys : List String
deriving DecidableEq, Inhabited

structure Resolver where
  table : (object : String) → Except Error String
  column : (object property : String) → Except Error ResolvedColumn
  -- By the name of the relation or of the related object.
  relation : (object name : String) → Except Error Join

end QueryTree
