import QueryTree.Error
import QueryTree.Sql.Token
import QueryTree.Value.Literal

namespace QueryTree

-- What a dialect allows. No bound on parameters is zero.
structure Capabilities where
  booleanPredicates : Bool := false
  namedParameters : Bool := false
  requiresOrder : Bool := false
  maxParameters : Nat := 0

-- A value in the form that the driver of an engine takes.
inductive DriverValue where
  | plain (v : Value)
  -- An identifier of the engine's own type, perhaps null.
  | nativeUuid (u : Option Uuid)
  -- An identifier by its octets.
  | rawUuid (u : Uuid)
deriving Inhabited

structure Dialect where
  name : String
  -- Keywords; an operator without one is not supported.
  logicKeyword : LogicOp → Option String
  valueKeyword : ValueOp → Option String
  unaryKeyword : UnaryOp → Option String
  -- Joins texts to one.
  concat : List Sql → Sql
  -- Marks characters of a pattern that stand for themselves.
  escape : Char
  quoteName : String → String
  placeholder : String → String
  convert : Value → Except Error DriverValue
  literal : Value → Except Error String
  -- The clause that drops and keeps rows; a limit of -1 is none.
  paging : (skip take : Int) → (ordered : Bool) → Except Error String
  capabilities : Capabilities

namespace Dialect

def tokenText (d : Dialect) : Token → String
  | .text s | .literal s | .supplied s => s
  | .name s => d.quoteName s
  | .table n => tableName n
  | .string s => quoteString s
  | .placeholder i => d.placeholder (parameterName i)

def text (d : Dialect) (s : Sql) : String := String.join (s.map d.tokenText)

end Dialect

-- The comparisons that every engine knows. Those that build a pattern are written with LIKE.
def standardLogic (op : LogicOp) : Option String :=
  if op.isPattern then none else op.sign?.map (·.symbol)

def standardValue (op : ValueOp) : Option String :=
  if op == .concatenate then none else op.sign?.map (·.symbol)

def standardUnary (op : UnaryOp) : Option String :=
  if op == .not then some "NOT"
  else if op == .negate then some "-"
  else if op == .bitwiseNot then some "~"
  else none

def writeLiteral (v : Value) (yes no : String) : Except Error String :=
  match v.under with
  | .bool b => .ok (if b then yes else no)
  | .int _ n => .ok (toString n)
  | .float _ x => .ok (x.write .display .double "+Inf")
  | _ => .error (.unsupported v.literal "literal must be a boolean or number")

-- Identifiers as text, for engines without a type for them.
def textUuid (v : Value) : DriverValue :=
  match v with
  | .uuid u => .plain (.text u.text)
  | .pointer (.uuid u) => .plain (.text u.text)
  | .nilPointer (.named "uuid.UUID") => .plain .null
  | v => .plain v

def standardEscape : Char := '/'

end QueryTree
