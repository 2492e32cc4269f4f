namespace QueryTree

-- Nearest integer to `num / den`; a tie goes to the even neighbour.
def roundDiv (num den : Nat) : Nat :=
  let q := num / den
  let r := num % den
  if 2 * r < den then q
  else if den < 2 * r then q + 1
  else if q % 2 == 0 then q else q + 1

-- Significands have `precision` bits and units from `2 ^ least` to `2 ^ greatest`.
structure FloatFormat where
  precision : Nat
  least : Int
  greatest : Int

def FloatFormat.double : FloatFormat := ⟨53, -1074, 971⟩

def FloatFormat.single : FloatFormat := ⟨24, -149, 104⟩

-- `finite s m e` is `m * 2 ^ e`, negative when `s` is set.
inductive Binary where
  | nan
  | infinite (negative : Bool)
  | finite (negative : Bool) (mantissa : Nat) (exponent : Int)
deriving DecidableEq, Inhabited

namespace Binary

-- `num * 2 ^ shift / den` as a fraction.
def scale (num den : Nat) (shift : Int) : Nat × Nat :=
  if shift ≥ 0 then (num * Nat.pow 2 shift.toNat, den) else (num, den * Nat.pow 2 (-shift).toNat)

-- The number of `fmt` nearest to `num / den`.
def round (fmt : FloatFormat) (negative : Bool) (num den : Nat) : Binary :=
  if num == 0 || den == 0 then .finite negative 0 fmt.least
  else
    let guess : Int := (num.log2 : Int) - den.log2 - fmt.precision
    let fits (e : Int) : Bool :=
      let (n, d) := scale num den (-e)
      n < d * Nat.pow 2 fmt.precision
    let e := max (if fits guess then guess else guess + 1) fmt.least
    let (n, d) := scale num den (-e)
    let m := roundDiv n d
    let (m, e) := if m == Nat.pow 2 fmt.precision then (m / 2, e + 1) else (m, e)
    if e > fmt.greatest then .infinite negative else .finite negative m e

def ofRatio (negative : Bool) (num den : Nat) : Binary := round .double negative num den

def ofInt (n : Int) : Binary := ofRatio (n < 0) n.natAbs 1

def zero : Binary := ofInt 0

-- Rounds to the narrower format; the result is again a number of the wider one.
def narrow : Binary → Binary
  | .nan => .nan
  | .infinite s => .infinite s
  | .finite s m e =>
    let (n, d) := scale m 1 e
    match round .single s n d with
    | .finite s m e =>
      let (n, d) := scale m 1 e
      ofRatio s n d
    | b => b

-- Significand and unit in the format itself, the first bit of a normal number set.
def fitted (fmt : FloatFormat) : Binary → Binary
  | .finite s m e =>
    let (n, d) := scale m 1 e
    round fmt s n d
  | b => b

def isNegative : Binary → Bool
  | .nan => false
  | .infinite s => s
  | .finite s _ _ => s

def isNaN : Binary → Bool
  | .nan => true
  | _ => false

-- The exact value of a finite number.
def ratio? : Binary → Option (Int × Nat)
  | .finite s m e =>
    let (n, d) := scale m 1 e
    some (if s then -(n : Int) else n, d)
  | _ => none

-- The value of a finite number without a fractional part.
def integral? : Binary → Option Int
  | .finite s m e =>
    let (n, d) := scale m 1 e
    if n % d == 0 then some (if s then -((n / d : Nat) : Int) else (n / d : Nat)) else none
  | _ => none

-- The integer part, toward zero.
def truncate? : Binary → Option Int
  | .finite s m e =>
    let (n, d) := scale m 1 e
    some (if s then -((n / d : Nat) : Int) else (n / d : Nat))
  | _ => none

-- Equality of numbers: no NaN equals anything, the two zeros are equal.
def same : Binary → Binary → Bool
  | .infinite s, .infinite t => s == t
  | .finite s m e, .finite t n f =>
    if m == 0 && n == 0 then true else s == t && m == n && e == f
  | _, _ => false

def abs : Binary → Binary
  | .nan => .nan
  | .infinite _ => .infinite false
  | .finite _ m e => .finite false m e

def neg : Binary → Binary
  | .nan => .nan
  | .infinite s => .infinite !s
  | .finite s m e => .finite (!s) m e

-- Rounds a magnitude to an integer, keeping the sign also of zero.
def toIntegral (rule : Bool → Nat → Nat → Nat) : Binary → Binary
  | .finite s m e =>
    let (n, d) := scale m 1 e
    ofRatio s (rule s n d) 1
  | b => b

def floor : Binary → Binary :=
  toIntegral fun s n d => if s && n % d != 0 then n / d + 1 else n / d

def ceil : Binary → Binary :=
  toIntegral fun s n d => if !s && n % d != 0 then n / d + 1 else n / d

-- To the nearest integer, a tie away from zero.
def nearest : Binary → Binary :=
  toIntegral fun _ n d => (2 * n + d) / (2 * d)

-- Order of numbers that are not NaN.
def less : Binary → Binary → Bool
  | .nan, _ | _, .nan => false
  | .infinite s, .infinite t => s && !t
  | .infinite s, .finite .. => s
  | .finite .., .infinite t => !t
  | .finite s m e, .finite t n f =>
    let (a, b) := scale m 1 e
    let (c, d) := scale n 1 f
    let x : Int := (if s then -(a : Int) else a) * d
    let y : Int := (if t then -(c : Int) else c) * b
    x < y

def isZero : Binary → Bool
  | .finite _ 0 _ => true
  | _ => false

-- The greater one; infinity wins over NaN, and positive zero over negative zero.
def max (x y : Binary) : Binary :=
  if x == .infinite false || y == .infinite false then .infinite false
  else if x.isNaN || y.isNaN then .nan
  else if x.isZero && y.isZero then if x.isNegative then y else x
  else if y.less x then x else y

def min (x y : Binary) : Binary :=
  if x == .infinite true || y == .infinite true then .infinite true
  else if x.isNaN || y.isNaN then .nan
  else if x.isZero && y.isZero then if x.isNegative then x else y
  else if x.less y then x else y

-- The interchange encoding of a double.
def bits : Binary → UInt64
  | .nan => 0x7ff8000000000001
  | .infinite s => (if s then 0xfff0000000000000 else 0x7ff0000000000000)
  | .finite s m e =>
    let biased := if m < Nat.pow 2 52 then 0 else (e + 1075).toNat
    ((if s then Nat.pow 2 63 else 0) + biased * Nat.pow 2 52 + m % Nat.pow 2 52 : Nat).toUInt64

end Binary
end QueryTree
