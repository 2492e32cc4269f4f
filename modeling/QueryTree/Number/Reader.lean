import QueryTree.Number.Decimal

namespace QueryTree.Number

def digitValue? (base : Nat) (c : Char) : Option Nat :=
  let v :=
    if c.isDigit then c.toNat - '0'.toNat
    else if 'a' ≤ c && c ≤ 'f' then c.toNat - 'a'.toNat + 10
    else if 'A' ≤ c && c ≤ 'F' then c.toNat - 'A'.toNat + 10
    else 16
  if v < base then some v else none

def readDigits? (base : Nat) (cs : List Char) : Option Nat :=
  if cs.isEmpty then none
  else cs.foldlM (fun n c => (digitValue? base c).map (n * base + ·)) 0

-- A sign and what follows it.
def readSign : List Char → Bool × List Char
  | '-' :: rest => (true, rest)
  | '+' :: rest => (false, rest)
  | cs => (false, cs)

-- A decimal integer with an optional sign.
def readInt? (cs : List Char) : Option Int :=
  let (negative, ds) := readSign cs
  (readDigits? 10 ds).map fun n => if negative then -(n : Int) else n

-- A natural number, in the base that the mark at its front names. A bare zero marks octal.
def readMarked? : List Char → Option Nat
  | '0' :: c :: rest =>
    if c == 'x' || c == 'X' then readDigits? 16 rest
    else if c == 'o' || c == 'O' then readDigits? 8 rest
    else if c == 'b' || c == 'B' then readDigits? 2 rest
    else readDigits? 8 (c :: rest)
  | cs => readDigits? 10 cs

-- A decimal integer of 64 bits.
def readInt64? (cs : List Char) : Option Int :=
  (readInt? cs).filter fun n => -9223372036854775808 ≤ n && n ≤ 9223372036854775807

-- A number before rounding: `mantissa * base ^ exponent`, base ten or two.
inductive Reading where
  | nan
  | infinite (negative : Bool)
  | scaled (negative : Bool) (mantissa : Nat) (base : Nat) (exponent : Int)
deriving DecidableEq, Inhabited

-- Whether each underscore stands between two digits, the mark of a base counting as one.
def underscoresFit (digit : Char → Bool) : Bool → List Char → Bool
  | _, [] => true
  | before, '_' :: c :: rest => before && digit c && underscoresFit digit true rest
  | _, ['_'] => false
  | _, c :: rest => underscoresFit digit (digit c) rest

-- Splits at the first character that is neither digit nor underscore.
def spanDigits (base : Nat) (cs : List Char) : List Char × List Char :=
  cs.span fun c => c == '_' || (digitValue? base c).isSome

def withoutUnderscores (cs : List Char) : List Char := cs.filter (· != '_')

-- The exponent after its mark: an optional sign and decimal digits to the end.
def readExponent? (cs : List Char) : Option Int :=
  let (negative, ds) := readSign cs
  (readDigits? 10 (withoutUnderscores ds)).bind fun n =>
    if ds.head?.any Char.isDigit then some (if negative then -(n : Int) else n) else none

-- Digits with an optional point, then an exponent introduced by `mark`.
def readScaled? (base : Nat) (mark : Char) (cs : List Char) : Option (Nat × Nat × Option Int) := do
  let (whole, rest) := spanDigits base cs
  let (part, rest) :=
    match rest with
    | '.' :: rest => spanDigits base rest
    | _ => ([], rest)
  let ds := withoutUnderscores (whole ++ part)
  let m ← readDigits? base ds
  match rest with
  | [] => some (m, (withoutUnderscores part).length, none)
  | c :: rest =>
    if c.toLower == mark then do
      let e ← readExponent? rest
      some (m, (withoutUnderscores part).length, some e)
    else none

def isWord (word : String) (cs : List Char) : Bool :=
  String.ofList (cs.map Char.toLower) == word

def read? (cs : List Char) : Option Reading :=
  let (negative, body) := readSign cs
  if isWord "nan" cs then some .nan
  else if isWord "inf" body || isWord "infinity" body then some (.infinite negative)
  else match body with
    | '0' :: x :: rest =>
      if x == 'x' || x == 'X' then
        if underscoresFit (fun c => (digitValue? 16 c).isSome) true rest then do
          let (m, places, e) ← readScaled? 16 'p' rest
          let e ← e
          some (.scaled negative m 2 (e - 4 * places))
        else none
      else decimal negative body
    | _ => decimal negative body
where
  decimal (negative : Bool) (body : List Char) : Option Reading :=
    if underscoresFit Char.isDigit false body then do
      let (m, places, e) ← readScaled? 10 'e' body
      some (.scaled negative m 10 (e.getD 0 - places))
    else none

-- Bounds beyond which every decimal or binary exponent overflows or vanishes.
def tooLarge (m base : Nat) (e : Int) : Bool :=
  if base == 10 then (Decimal.digitsOf m).length + e > 400 else (m.log2 : Int) + e > 1100

def tooSmall (m base : Nat) (e : Int) : Bool :=
  if base == 10 then (Decimal.digitsOf m).length + e < -400 else (m.log2 : Int) + e < -1200

-- The nearest double, infinite when out of range.
def Reading.toBinary : Reading → Binary
  | .nan => .nan
  | .infinite s => .infinite s
  | .scaled s m base e =>
    if m == 0 then .ofRatio s 0 1
    else if tooLarge m base e then .infinite s
    else if tooSmall m base e then .ofRatio s 0 1
    else if e ≥ 0 then .ofRatio s (m * Nat.pow base e.toNat) 1
    else .ofRatio s m (Nat.pow base (-e).toNat)

-- Whether the binary exponent of a number takes more than 31 bits.
def Reading.isVast : Reading → Bool
  | .scaled _ m base e =>
    if m == 0 then false
    else if base == 10 then (Decimal.digitsOf m).length + e > 646456993
    else (m.log2 : Int) + e > 2147483646
  | _ => false

-- Whether rounding left the range of doubles.
def Reading.overflows : Reading → Bool
  | .scaled s m base e =>
    match (Reading.scaled s m base e).toBinary with
    | .infinite _ => true
    | _ => false
  | _ => false

-- The nearest double of a number text that stays in range.
def readBinary? (cs : List Char) : Option Binary :=
  (read? cs).bind fun r => if r.overflows then none else some r.toBinary

end QueryTree.Number
