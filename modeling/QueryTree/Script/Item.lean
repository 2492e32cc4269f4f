import QueryTree.Expr.Members

namespace QueryTree.Script

-- `unset` is a literal that was declared and never given a value. A key or column may still lack
-- its expression. A builder is known by its number.
inductive Item where
  | value (v : Value)
  | expr (e : Expr)
  | unset
  | key (e : Option Expr) (ascending : Bool)
  | column (e : Option Expr) (label : String)
  | builder (n : Nat)
deriving Inhabited

-- Why a step has no result.
inductive Fault where
  | mismatch
  | noMethod
  | noOperation
  | failed (cause : Error)
  | broken (text : Option String)
deriving Inhabited

-- The builders of a script change as it runs.
abbrev Run := StateT (List SetBuilder) (Except Fault)

namespace Item

def null : Item := .value .null

def text : Item → Run String
  | .value (.text s) => return s
  | .value .null => return ""
  | _ => throw .mismatch

def bool : Item → Run Bool
  | .value (.bool b) => return b
  | .value .null => return false
  | _ => throw .mismatch

def count : Item → Run Int
  | .value (.int .int n) | .value (.int .int64 n) => return n
  | .value .null => return 0
  | _ => throw .mismatch

-- The code of an operator or set kind, cut to one octet.
def code : Item → Run UInt8
  | .value (.int .int n) => return UInt8.ofNat (n % 256).toNat
  | .value .null => return 0
  | _ => throw .mismatch

-- An expression that is kept as it is, perhaps left out.
def keptExpr? : Item → Run (Option Expr)
  | .expr e => return some e
  | .value .null => return none
  | .unset => throw (.broken none)
  | _ => throw .mismatch

-- An expression, null when it is left out or unset.
def exprOrNull : Item → Run Expr
  | .expr e => return e
  | .unset | .value .null => return .null
  | _ => throw .mismatch

def asPredicate (e : Expr) : Run Expr := if e.isLogic then return e else throw .mismatch

def keptPredicate? (i : Item) : Run (Option Expr) := do (← i.keptExpr?).mapM asPredicate

def predicateOrNull (i : Item) : Run Expr := do asPredicate (← i.exprOrNull)

def operand : Item → Run Operand
  | .expr e => return .expr e
  | .unset => return .expr .null
  | .value v => return .value v
  | _ => throw .mismatch

def sortKey : Item → Run (SortKey Expr)
  | .key e asc => return ⟨e.getD .null, asc⟩
  | .value .null => return ⟨.null, false⟩
  | _ => throw .mismatch

def selected : Item → Run (Column Expr)
  | .column e label => return ⟨e.getD .null, label⟩
  | .value .null => return ⟨.null, ""⟩
  | _ => throw .mismatch

-- What an item is as a value; keys, columns and builders are none.
def plain : Item → Value
  | .value v => v
  | .expr e => e.toValue
  | .unset => .nilPointer (.named "types.Value")
  | _ => .null

-- The item as a bound parameter; an expression stays itself.
def bound : Item → Expr
  | .value v => Expr.bound v
  | .expr e => e
  | _ => .null

end Item

-- The item at a place, null where none was given.
def nth (items : List Item) (i : Nat) : Item := items.getD i .null

-- Operations that report failures, and operations that break on them.
def tried (r : Except Error α) : Run α :=
  match r with
  | .ok a => return a
  | .error e => throw (.failed e)

def must (what : String) (r : Except Error α) : Run α :=
  match r with
  | .ok a => return a
  | .error e => throw (.broken (some ("invalid " ++ what ++ ": " ++ e.message)))

end QueryTree.Script
