namespace QueryTree

inductive IntKind where
  | int | int8 | int16 | int32 | int64
  | uint | uint8 | uint16 | uint32 | uint64
deriving DecidableEq, Inhabited

namespace IntKind

def bits : IntKind → Nat
  | .int | .int64 | .uint | .uint64 => 64
  | .int32 | .uint32 => 32
  | .int16 | .uint16 => 16
  | .int8 | .uint8 => 8

def signed : IntKind → Bool
  | .int | .int8 | .int16 | .int32 | .int64 => true
  | .uint | .uint8 | .uint16 | .uint32 | .uint64 => false

def name : IntKind → String
  | .int => "int"
  | .int8 => "int8"
  | .int16 => "int16"
  | .int32 => "int32"
  | .int64 => "int64"
  | .uint => "uint"
  | .uint8 => "uint8"
  | .uint16 => "uint16"
  | .uint32 => "uint32"
  | .uint64 => "uint64"

-- The member of the range congruent to `n` modulo the width.
def wrap (k : IntKind) (n : Int) : Int :=
  if k.signed then Int.bmod n (Nat.pow 2 k.bits) else n % (Nat.pow 2 k.bits : Nat)

def inRange (k : IntKind) (n : Int) : Bool :=
  if k.signed then -(Nat.pow 2 (k.bits - 1) : Nat) ≤ n && n < (Nat.pow 2 (k.bits - 1) : Nat)
  else 0 ≤ n && n < (Nat.pow 2 k.bits : Nat)

end IntKind

inductive FloatKind where
  | float32 | float64
deriving DecidableEq, Inhabited

def FloatKind.name : FloatKind → String
  | .float32 => "float32"
  | .float64 => "float64"

end QueryTree
