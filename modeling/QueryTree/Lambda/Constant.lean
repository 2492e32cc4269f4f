import QueryTree.Error.Evaluation
import QueryTree.Lambda.Node
import QueryTree.Value.Convert

namespace QueryTree.Lambda

-- `unknown` stands for infinities and for what is no number.
inductive Constant where
  | bool (b : Bool)
  | text (s : String)
  | octets (bs : List UInt8)
  | int (n : Int)
  | ratio (num : Int) (den : Nat)
  | unknown
deriving Inhabited

-- Values of one class may be combined; numbers with and without fraction may as well.
inductive Class where
  | bool | text | int | float
deriving DecidableEq, Inhabited

def Class.combines : Class → Class → Bool
  | .int, .float | .float, .int => true
  | c, d => c == d

namespace Constant

def ofBinary (x : Binary) : Constant :=
  match x.ratio? with
  | some (n, d) => .ratio n d
  | none => .unknown

def ofValue? (v : Value) : Option (Constant × Class) :=
  match v.under with
  | .bool b => some (.bool b, .bool)
  | .text s => some (.text s, .text)
  | .octets bs => some (.octets bs, .text)
  | .int _ n => some (.int n, .int)
  | .float _ x => some (ofBinary x, .float)
  | _ => none

def isInt64 (n : Int) : Bool := -9223372036854775808 ≤ n && n ≤ 9223372036854775807

def intValue (n : Int) : Except EvalError Value :=
  if isInt64 n then .ok (.int .int n) else .error (.integerOverflow (toString n))

def ratioValue (num : Int) (den : Nat) : Value :=
  .float64 (.ofRatio (num < 0) num.natAbs den)

def toValue (c : Constant) (cls : Class) : Except EvalError Value :=
  match c with
  | .bool b => .ok (.bool b)
  | .text s => .ok (.text s)
  | .octets bs => .ok (.ofOctets bs)
  | .int n => if cls == .float then .ok (ratioValue n 1) else intValue n
  | .ratio n d => .ok (ratioValue n d)
  | .unknown => .error (.unrepresentable "unknown")

def isZero : Constant → Bool
  | .int n => n == 0
  | .ratio n _ => n == 0
  | _ => false

def asOctets : Constant → List UInt8
  | .text s => Text.Utf8.encode s
  | .octets bs => bs
  | _ => []

def quotient? : Constant → Option (Int × Nat)
  | .int n => some (n, 1)
  | .ratio n d => some (n, d)
  | _ => none

def compareInt (op : InfixOp) (m n : Int) : Bool :=
  match op with
  | .eq => m == n
  | .ne => m != n
  | .lt => m < n
  | .le => m ≤ n
  | .gt => m > n
  | .ge => m ≥ n
  | _ => false

def compareText (op : InfixOp) (s t : String) : Bool :=
  match op with
  | .eq => s == t
  | .ne => s != t
  | .lt => s < t
  | .le => !(t < s)
  | .gt => t < s
  | .ge => !(s < t)
  | _ => false

def lessOctets : List UInt8 → List UInt8 → Bool
  | [], bs => !bs.isEmpty
  | _ :: _, [] => false
  | a :: as, b :: bs => if a == b then lessOctets as bs else a < b

def orderOf (less greater : Bool) : Int := if less then -1 else if greater then 1 else 0

-- Whether a comparison holds. None does for what is unknown.
def compare (op : InfixOp) (l r : Constant) : Bool :=
  match l, r with
  | .bool b, .bool c =>
    match op with
    | .eq => b == c
    | .ne => b != c
    | _ => false
  | .text s, .text t => compareText op s t
  | .int m, .int n => compareInt op m n
  | l, r =>
    match l.quotient?, r.quotient? with
    | some (m, d), some (n, e) => compareInt op (m * e) (n * d)
    | some _, none | none, some _ => false
    | none, none =>
      match l, r with
      | .unknown, _ | _, .unknown => false
      | l, r =>
        let (as, bs) := (l.asOctets, r.asOctets)
        compareInt op (orderOf (lessOctets as bs) (lessOctets bs as)) 0

-- Bits of two integers in two's complement, combined one by one. Beyond `width` both integers
-- repeat their sign.
def bitwise (f : Bool → Bool → Bool) (m n : Int) : Int :=
  let width := max m.natAbs.log2 n.natAbs.log2 + 2
  let bit (k : Int) (i : Nat) : Bool := (k / (Nat.pow 2 i : Nat)) % 2 == 1
  let value := (List.range width).foldl
    (fun (acc : Int) i => if f (bit m i) (bit n i) then acc + (Nat.pow 2 i : Nat) else acc) 0
  if f (m < 0) (n < 0) then value - (Nat.pow 2 width : Nat) else value

def isDefined (op : InfixOp) (cls : Class) : Bool :=
  match op with
  | .both | .either => cls == .bool
  | .add => cls != .bool
  | .sub | .mul | .quo => cls == .int || cls == .float
  | .rem | .bitAnd | .bitOr | .bitXor | .bitClear => cls == .int
  | _ => false

-- The integer part of a quotient. The only one of two integers of 64 bits that has more wraps.
def quotient (m n : Int) : Int :=
  if m == -9223372036854775808 && n == -1 then m else m.tdiv n

def combineInt (op : InfixOp) (m n : Int) : Constant :=
  match op with
  | .add => .int (m + n)
  | .sub => .int (m - n)
  | .mul => .int (m * n)
  | .quo => .int (quotient m n)
  | .rem => .int (m.tmod n)
  | .bitAnd => .int (bitwise (· && ·) m n)
  | .bitOr => .int (bitwise (· || ·) m n)
  | .bitXor => .int (bitwise (· != ·) m n)
  | .bitClear => .int (bitwise (fun a b => a && !b) m n)
  | _ => .unknown

def combineRatio (op : InfixOp) (m : Int) (d : Nat) (n : Int) (e : Nat) : Constant :=
  match op with
  | .add => .ratio (m * e + n * d) (d * e)
  | .sub => .ratio (m * e - n * d) (d * e)
  | .mul => .ratio (m * n) (d * e)
  | .quo => if n < 0 then .ratio (-(m * e)) (d * n.natAbs) else .ratio (m * e) (d * n.natAbs)
  | _ => .unknown

def combine (op : InfixOp) (l r : Constant) : Constant :=
  match l, r with
  | .bool b, .bool c =>
    match op with
    | .both => .bool (b && c)
    | .either => .bool (b || c)
    | _ => .unknown
  | .text s, .text t => .text (s ++ t)
  | .int m, .int n => combineInt op m n
  | l, r =>
    match l.quotient?, r.quotient? with
    | some (m, d), some (n, e) => combineRatio op m d n e
    | some _, none | none, some _ => .unknown
    | none, none =>
      match l, r with
      | .unknown, _ | _, .unknown => .unknown
      | l, r => .octets (l.asOctets ++ r.asOctets)

-- Shifts to the left beyond so many bits have no room for their result.
def shiftLimit : Int := (Nat.pow 2 33 : Nat)

-- A shift by a count of at most 64 bits.
def shift (op : InfixOp) (m n : Int) : Except EvalError Constant :=
  if 0 ≤ n && n ≤ 18446744073709551615 then
    if m == 0 then .ok (.int 0)
    else if op == .shiftLeft then
      if n > shiftLimit then .error (.aborted none) else .ok (.int (m * (Nat.pow 2 n.toNat : Nat)))
    else if n.toNat > m.natAbs.log2 + 1 then .ok (.int (if m < 0 then -1 else 0))
    else .ok (.int (m.fdiv (Nat.pow 2 n.toNat : Nat)))
  else .error (.shiftCount (toString n))

def isComparison : InfixOp → Bool
  | .eq | .ne | .lt | .le | .gt | .ge => true
  | _ => false

-- The value of an operator on two constants of classes that combine. `type` is the type of the
-- left one.
def infixValue (op : InfixOp) (type : String) (l : Constant) (c : Class) (r : Constant)
    (d : Class) : Except EvalError Value :=
  let cls := if d == .float then .float else c
  let undefined : EvalError := .operator op.symbol type
  if isComparison op then
    if cls == .bool && op != .eq && op != .ne then .error undefined
    else .ok (.bool (compare op l r))
  else if op == .shiftLeft || op == .shiftRight then
    match cls, l, r with
    | .int, .int m, .int n => do (← shift op m n).toValue .int
    | _, _, _ => .error undefined
  else if !isDefined op cls then .error undefined
  else if (op == .quo || op == .rem) && r.isZero then .error .divisionByZero
  else match combine op l r with
    | .unknown => .error undefined
    | out => out.toValue cls

def isPrefixDefined (op : PrefixOp) (cls : Class) : Bool :=
  match op with
  | .not => cls == .bool
  | .minus | .plus => cls == .int || cls == .float
  | .complement => cls == .int
  | _ => false

def prefixValue (op : PrefixOp) (type : String) (x : Constant) (cls : Class) :
    Except EvalError Value :=
  if !isPrefixDefined op cls then .error (.operator op.symbol type)
  else
    let out : Constant := match op, x with
      | .not, .bool b => .bool !b
      | .minus, .int n => .int (-n)
      | .minus, .ratio n d => .ratio (-n) d
      | .complement, .int n => .int (-n - 1)
      | .plus, x => x
      | _, _ => .unknown
    out.toValue cls

end Constant
end QueryTree.Lambda
