import QueryTree.Number.Binary

namespace QueryTree

-- The value `0.d₁d₂… * 10 ^ point`; the digits of zero are empty.
structure Decimal where
  digits : List Char
  point : Int
deriving DecidableEq, Inhabited

namespace Decimal

def digitsOf (n : Nat) : List Char := Nat.toDigits 10 n

def dropZeros (ds : List Char) : List Char :=
  (ds.reverse.dropWhile (· == '0')).reverse

-- `n * 10 ^ shift`.
def ofScaled (n : Nat) (shift : Int) : Decimal :=
  if n == 0 then ⟨[], 0⟩
  else
    let ds := digitsOf n
    ⟨dropZeros ds, ds.length + shift⟩

-- The position of the decimal point of a positive fraction: its value is in
-- `[10 ^ (p - 1), 10 ^ p)`.
def magnitude (num den : Nat) : Int :=
  if num ≥ den then (digitsOf (num / den)).length
  else
    let t := (digitsOf (den / num)).length
    if num * Nat.pow 10 (t - 1) == den then 2 - (t : Int) else 1 - (t : Int)

-- `num / den / 10 ^ k` as a fraction.
def shiftTen (num den : Nat) (k : Int) : Nat × Nat :=
  if k ≥ 0 then (num, den * Nat.pow 10 k.toNat) else (num * Nat.pow 10 (-k).toNat, den)

-- The reals that round to one number, as fractions over one denominator.
structure Interval where
  low : Nat
  value : Nat
  high : Nat
  den : Nat
  closed : Bool

-- Half a unit to each side, a quarter below the first number of a binade.
def interval (fmt : FloatFormat) (m : Nat) (e : Int) : Interval :=
  let below := if m == Nat.pow 2 (fmt.precision - 1) && e > fmt.least then 4 * m - 1 else 4 * m - 2
  let (low, den) := Binary.scale below 1 (e - 2)
  let (value, _) := Binary.scale (4 * m) 1 (e - 2)
  let (high, _) := Binary.scale (4 * m + 2) 1 (e - 2)
  ⟨low, value, high, den, m % 2 == 0⟩

-- Whether `n * 10 ^ k` rounds to the number.
def Interval.holds (i : Interval) (n : Nat) (k : Int) : Bool :=
  let (num, den) := if k ≥ 0 then (n * Nat.pow 10 k.toNat, 1) else (n, Nat.pow 10 (-k).toNat)
  let x := num * i.den
  if i.closed then i.low * den ≤ x && x ≤ i.high * den
  else i.low * den < x && x < i.high * den

-- The decimal of `count` digits nearest to the number, when one of them rounds to it.
def Interval.withDigits? (i : Interval) (point : Int) (count : Nat) : Option Decimal :=
  let k := point - count
  let (n, d) := shiftTen i.value i.den k
  let f := n / d
  let lower := i.holds f k
  let upper := i.holds (f + 1) k
  if lower && upper then some (ofScaled (roundDiv n d) k)
  else if lower then some (ofScaled f k)
  else if upper then some (ofScaled (f + 1) k)
  else none

-- The fewest digits that read back in the format; seventeen always do for a double.
def shortest (fmt : FloatFormat) (m : Nat) (e : Int) : Decimal :=
  if m == 0 then ⟨[], 0⟩
  else
    let i := interval fmt m e
    let point := magnitude i.value i.den
    ((List.range 17).findSome? fun c => i.withDigits? point (c + 1)).getD ⟨[], 0⟩

-- Digits before the point, and those after it padded to `places`.
def positional (d : Decimal) : String × String :=
  if d.digits.isEmpty then ("0", "")
  else if d.point ≤ 0 then
    ("0", String.ofList (List.replicate (-d.point).toNat '0' ++ d.digits))
  else
    let n := d.point.toNat
    (String.ofList (d.digits.take n ++ List.replicate (n - d.digits.length) '0'),
      String.ofList (d.digits.drop n))

def positionalText (d : Decimal) : String :=
  let (whole, part) := d.positional
  if part.isEmpty then whole else whole ++ "." ++ part

-- A sign and at least two digits.
def exponentText (e : Int) : String :=
  let ds := digitsOf e.natAbs
  (if e < 0 then "-" else "+") ++ String.ofList (if ds.length < 2 then '0' :: ds else ds)

def scientificText (d : Decimal) : String :=
  match d.digits with
  | [] => "0e+00"
  | [c] => c.toString ++ "e" ++ exponentText (d.point - 1)
  | c :: rest => c.toString ++ "." ++ String.ofList rest ++ "e" ++ exponentText (d.point - 1)

end Decimal

-- Exponents from `lowest` and below `limit` are written positionally.
structure DecimalStyle where
  lowest : Int
  limit : Int

namespace DecimalStyle

-- Plain display: positional from one ten-thousandth up to a million.
def display : DecimalStyle := ⟨-4, 6⟩

-- Interchange: positional from one millionth up to `10 ^ 21`.
def interchange : DecimalStyle := ⟨-6, 21⟩

-- Every number of a double positionally.
def plain : DecimalStyle := ⟨-400, 400⟩

def write (style : DecimalStyle) (d : Decimal) : String :=
  if d.digits.isEmpty then "0"
  else if d.point - 1 < style.lowest || d.point - 1 ≥ style.limit then d.scientificText
  else d.positionalText

end DecimalStyle

namespace Binary

-- The shortest decimal of the magnitude of a finite number in the given format.
def decimal (fmt : FloatFormat) (b : Binary) : Decimal :=
  match b.fitted fmt with
  | .finite _ m e => Decimal.shortest fmt m e
  | _ => ⟨[], 0⟩

-- The text of a number; `plusInfinity` is the word for the positive one.
def write (style : DecimalStyle) (fmt : FloatFormat) (plusInfinity : String) : Binary → String
  | .nan => "NaN"
  | .infinite true => "-Inf"
  | .infinite false => plusInfinity
  | b => (if b.isNegative then "-" else "") ++ style.write (b.decimal fmt)

end Binary
end QueryTree
