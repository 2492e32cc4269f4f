namespace QueryTree

-- An operator's name in documents and its sign in texts.
structure Sign where
  name : String
  symbol : String

def notBit : UInt8 := 0x80

def positiveCode (code : UInt8) : UInt8 := code &&& ~~~notBit

def oppositeCode (code : UInt8) : UInt8 := code ^^^ notBit

def negatedCode (code : UInt8) : Bool := code &&& notBit != 0

-- Operators that make a predicate of two values.
structure LogicOp where
  code : UInt8
deriving DecidableEq, Inhabited

namespace LogicOp

abbrev equal : LogicOp := ⟨1⟩
abbrev greater : LogicOp := ⟨2⟩
abbrev greaterOrEqual : LogicOp := ⟨3⟩
abbrev like : LogicOp := ⟨4⟩
abbrev isIn : LogicOp := ⟨5⟩
abbrev startsWith : LogicOp := ⟨6⟩
abbrev endsWith : LogicOp := ⟨7⟩
abbrev contains : LogicOp := ⟨8⟩
abbrev notEqual : LogicOp := ⟨0x81⟩
abbrev lessOrEqual : LogicOp := ⟨0x82⟩
abbrev less : LogicOp := ⟨0x83⟩
abbrev notLike : LogicOp := ⟨0x84⟩
abbrev notIn : LogicOp := ⟨0x85⟩
abbrev notStartsWith : LogicOp := ⟨0x86⟩
abbrev notEndsWith : LogicOp := ⟨0x87⟩
abbrev notContains : LogicOp := ⟨0x88⟩

def table : List (LogicOp × Sign) :=
  [(equal, ⟨"eq", "="⟩), (notEqual, ⟨"ne", "<>"⟩),
   (greater, ⟨"gt", ">"⟩), (lessOrEqual, ⟨"le", "<="⟩),
   (greaterOrEqual, ⟨"ge", ">="⟩), (less, ⟨"lt", "<"⟩),
   (like, ⟨"like", "LIKE"⟩), (notLike, ⟨"notlike", "NOT LIKE"⟩),
   (isIn, ⟨"in", "IN"⟩), (notIn, ⟨"notin", "NOT IN"⟩),
   (startsWith, ⟨"startswith", "STARTS WITH"⟩), (notStartsWith, ⟨"notstartswith", "NOT STARTS WITH"⟩),
   (endsWith, ⟨"endswith", "ENDS WITH"⟩), (notEndsWith, ⟨"notendswith", "NOT ENDS WITH"⟩),
   (contains, ⟨"contains", "CONTAINS"⟩), (notContains, ⟨"notcontains", "NOT CONTAINS"⟩)]

def sign? (op : LogicOp) : Option Sign := table.lookup op

def isValid (op : LogicOp) : Bool := op.sign?.isSome

def name (op : LogicOp) : String :=
  match op.sign? with
  | some s => s.name
  | none => "logic(" ++ toString op.code ++ ")"

def symbol (op : LogicOp) : String :=
  match op.sign? with
  | some s => s.symbol
  | none => "LogicOperator(" ++ toString op.code ++ ")"

def ofName? (name : String) : Option LogicOp :=
  (table.find? (·.2.name == name)).map (·.1)

def positive (op : LogicOp) : LogicOp := ⟨positiveCode op.code⟩

def opposite (op : LogicOp) : LogicOp := ⟨oppositeCode op.code⟩

def isNegated (op : LogicOp) : Bool := negatedCode op.code

-- Operators that build a pattern of their own from the right operand.
def isPattern (op : LogicOp) : Bool :=
  op.positive == startsWith || op.positive == endsWith || op.positive == contains

-- The operator that keeps a comparison true when its operands change places.
def reversed? (op : LogicOp) : Option LogicOp :=
  if op == equal || op == notEqual then some op
  else if op == greater then some less
  else if op == less then some greater
  else if op == greaterOrEqual then some lessOrEqual
  else if op == lessOrEqual then some greaterOrEqual
  else none

end LogicOp

-- Operators that make a value of two values.
structure ValueOp where
  code : UInt8
deriving DecidableEq, Inhabited

namespace ValueOp

abbrev add : ValueOp := ⟨1⟩
abbrev subtract : ValueOp := ⟨2⟩
abbrev multiply : ValueOp := ⟨3⟩
abbrev divide : ValueOp := ⟨4⟩
abbrev modulo : ValueOp := ⟨5⟩
abbrev bitAnd : ValueOp := ⟨6⟩
abbrev bitOr : ValueOp := ⟨7⟩
abbrev bitXor : ValueOp := ⟨8⟩
abbrev concatenate : ValueOp := ⟨9⟩

def table : List (ValueOp × Sign) :=
  [(add, ⟨"add", "+"⟩), (subtract, ⟨"sub", "-"⟩), (multiply, ⟨"mul", "*"⟩),
   (divide, ⟨"div", "/"⟩), (modulo, ⟨"mod", "%"⟩), (bitAnd, ⟨"band", "&"⟩),
   (bitOr, ⟨"bor", "|"⟩), (bitXor, ⟨"bxor", "^"⟩), (concatenate, ⟨"concat", "||"⟩)]

def sign? (op : ValueOp) : Option Sign := table.lookup op

def isValid (op : ValueOp) : Bool := op.sign?.isSome

def name (op : ValueOp) : String :=
  match op.sign? with
  | some s => s.name
  | none => "value(" ++ toString op.code ++ ")"

def symbol (op : ValueOp) : String :=
  match op.sign? with
  | some s => s.symbol
  | none => "ValueOperator(" ++ toString op.code ++ ")"

def ofName? (name : String) : Option ValueOp :=
  (table.find? (·.2.name == name)).map (·.1)

end ValueOp

structure UnaryOp where
  code : UInt8
deriving DecidableEq, Inhabited

namespace UnaryOp

abbrev identity : UnaryOp := ⟨1⟩
abbrev negate : UnaryOp := ⟨2⟩
abbrev bitwiseNot : UnaryOp := ⟨3⟩
abbrev not : UnaryOp := ⟨0x81⟩

def table : List (UnaryOp × Sign) :=
  [(identity, ⟨"id", ""⟩), (not, ⟨"not", "NOT "⟩), (negate, ⟨"neg", "-"⟩),
   (bitwiseNot, ⟨"bnot", "~"⟩)]

def sign? (op : UnaryOp) : Option Sign := table.lookup op

def isValid (op : UnaryOp) : Bool := op.sign?.isSome

def name (op : UnaryOp) : String :=
  match op.sign? with
  | some s => s.name
  | none => "unary(" ++ toString op.code ++ ")"

def symbol (op : UnaryOp) : String :=
  match op.sign? with
  | some s => s.symbol
  | none => "UnaryOperator(" ++ toString op.code ++ ")"

def ofName? (name : String) : Option UnaryOp :=
  (table.find? (·.2.name == name)).map (·.1)

end UnaryOp

-- How the children of a set are joined.
structure SetKind where
  code : UInt8
deriving DecidableEq, Inhabited

namespace SetKind

abbrev and : SetKind := ⟨1⟩
abbrev or : SetKind := ⟨2⟩
abbrev list : SetKind := ⟨3⟩
abbrev concat : SetKind := ⟨4⟩

def table : List (SetKind × String) :=
  [(and, "and"), (or, "or"), (list, "list"), (concat, "concat")]

def isValid (k : SetKind) : Bool := (table.lookup k).isSome

def name (k : SetKind) : String :=
  match table.lookup k with
  | some n => n
  | none => "SetKind(" ++ toString k.code ++ ")"

def ofName? (name : String) : Option SetKind :=
  (table.find? (·.2 == name)).map (·.1)

-- Sets that combine predicates.
def isLogical (k : SetKind) : Bool := k == and || k == or

end SetKind
end QueryTree
