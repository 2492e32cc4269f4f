import QueryTree.Text.Replace

namespace QueryTree

inductive Token where
  -- Keywords, signs and blanks.
  | text (s : String)
  -- A name of the schema, to be quoted.
  | name (s : String)
  -- The name given to a table inside a subquery.
  | table (n : Nat)
  -- A constant written out.
  | literal (s : String)
  -- A text constant.
  | string (s : String)
  -- The place of a bound parameter.
  | placeholder (i : Nat)
  -- Text that a fragment supplies.
  | supplied (s : String)
deriving DecidableEq, Inhabited

def Token.isBlank : Token → Bool
  | .text s | .literal s | .supplied s => s.isEmpty
  | .name _ | .table _ | .string _ | .placeholder _ => false

abbrev Sql := List Token

namespace Sql

def ofText (s : String) : Sql := [.text s]

-- A rendering without text says nothing.
def isBlank (s : Sql) : Bool := s.all Token.isBlank

def joined (separator : String) : List Sql → Sql
  | [] => []
  | [s] => s
  | s :: rest => s ++ .text separator :: joined separator rest

def enclosed (s : Sql) : Sql := .text "(" :: s ++ [.text ")"]

end Sql

-- A text as a constant of the statement: quotes inside it are doubled.
def quoteString (s : String) : String := Text.enclosed '\'' '\'' s

-- The name of a parameter by its position.
def parameterName (i : Nat) : String := "p" ++ toString i

def tableName (n : Nat) : String := "T" ++ toString n

end QueryTree
