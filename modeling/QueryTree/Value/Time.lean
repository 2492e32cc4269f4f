import QueryTree.Number.Decimal

namespace QueryTree

-- How the zone of an instant is named where a zone is written out.
inductive Zone where
  | utc
  | host
deriving DecidableEq, Inhabited

-- Seconds since 1970 began, and nanoseconds below one second.
structure Time where
  seconds : Int
  nanos : Nat
  zone : Zone := .utc
deriving DecidableEq, Inhabited

structure Date where
  year : Int
  month : Nat
  day : Nat
deriving DecidableEq, Inhabited

namespace Date

-- Days since 1970 began. Years are counted from March, so that a leap day ends its year.
def toDays (d : Date) : Int :=
  let y : Int := if d.month ≤ 2 then d.year - 1 else d.year
  let era := Int.fdiv y 400
  let yoe := y - era * 400
  let mp : Int := (d.month + 9) % 12
  let doy := (153 * mp + 2) / 5 + d.day - 1
  let doe := yoe * 365 + yoe / 4 - yoe / 100 + doy
  era * 146097 + doe - 719468

def ofDays (days : Int) : Date :=
  let z := days + 719468
  let era := Int.fdiv z 146097
  let doe := z - era * 146097
  let yoe := (doe - doe / 1460 + doe / 36524 - doe / 146096) / 365
  let doy := doe - (365 * yoe + yoe / 4 - yoe / 100)
  let mp := (5 * doy + 2) / 153
  let day := doy - (153 * mp + 2) / 5 + 1
  let month := if mp < 10 then mp + 3 else mp - 9
  let year := yoe + era * 400 + (if month ≤ 2 then 1 else 0)
  ⟨year, month.toNat, day.toNat⟩

end Date

namespace Time

def days (t : Time) : Int := Int.fdiv t.seconds 86400

def date (t : Time) : Date := Date.ofDays t.days

def secondOfDay (t : Time) : Nat := (t.seconds - t.days * 86400).toNat

def hour (t : Time) : Nat := t.secondOfDay / 3600

def minute (t : Time) : Nat := t.secondOfDay % 3600 / 60

def second (t : Time) : Nat := t.secondOfDay % 60

-- Sunday is day zero.
def weekday (t : Time) : Nat := ((t.days + 4) % 7).toNat

def yearDay (t : Time) : Int := t.days - Date.toDays ⟨t.date.year, 1, 1⟩ + 1

def ofDate (d : Date) (hour minute second nanos : Nat) : Time :=
  { seconds := d.toDays * 86400 + hour * 3600 + minute * 60 + second, nanos }

-- Seconds and nanoseconds, the latter of any size and sign.
def ofUnix (seconds nanos : Int) : Time :=
  { seconds := seconds + Int.fdiv nanos 1000000000, nanos := (nanos % 1000000000).toNat }

def unixNanos (t : Time) : Int := t.seconds * 1000000000 + t.nanos

def addNanos (t : Time) (n : Int) : Time :=
  { ofUnix t.seconds (t.nanos + n) with zone := t.zone }

-- Whether two instants are one, whatever their zones.
def sameInstant (s t : Time) : Bool := s.seconds == t.seconds && s.nanos == t.nanos

def before (s t : Time) : Bool := s.unixNanos < t.unixNanos

def padded (width n : Nat) : String :=
  let ds := Decimal.digitsOf n
  String.ofList (List.replicate (width - ds.length) '0' ++ ds)

def yearText (y : Int) : String :=
  if y < 0 then "-" ++ padded 4 y.natAbs else padded 4 y.toNat

-- The fraction of a second with as many digits as it needs.
def fractionText (t : Time) : String :=
  if t.nanos == 0 then ""
  else "." ++ String.ofList (Decimal.dropZeros (padded 9 t.nanos).toList)

def clockText (t : Time) : String :=
  padded 2 t.hour ++ ":" ++ padded 2 t.minute ++ ":" ++ padded 2 t.second ++ t.fractionText

def dateText (t : Time) : String :=
  yearText t.date.year ++ "-" ++ padded 2 t.date.month ++ "-" ++ padded 2 t.date.day

-- The interchange form, a letter Z for the offset.
def isoText (t : Time) : String := t.dateText ++ "T" ++ t.clockText ++ "Z"

-- The reading form, with offset and zone.
def displayText (t : Time) : String := t.dateText ++ " " ++ t.clockText ++ " +0000 UTC"

def monthNames : List String :=
  ["January", "February", "March", "April", "May", "June", "July", "August", "September",
    "October", "November", "December"]

def monthName (m : Nat) : String := monthNames.getD (m - 1) ""

def weekdayNames : List String :=
  ["Sunday", "Monday", "Tuesday", "Wednesday", "Thursday", "Friday", "Saturday"]

def weekdayName (d : Nat) : String := weekdayNames.getD d ""

-- The call that builds the instant.
def literalText (t : Time) : String :=
  let zone := match t.zone with
    | .utc => "time.UTC"
    | .host => "time.Local"
  "time.Date(" ++ ", ".intercalate
    [toString t.date.year, "time." ++ monthName t.date.month, toString t.date.day,
      toString t.hour, toString t.minute, toString t.second, toString t.nanos, zone] ++ ")"

def number? (cs : List Char) : Option Nat :=
  if cs.all Char.isDigit then (String.ofList cs).toNat? else none

def daysInMonth (year : Int) : Nat → Nat
  | 2 => if year % 4 == 0 && (year % 100 != 0 || year % 400 == 0) then 29 else 28
  | 4 | 6 | 9 | 11 => 30
  | _ => 31

-- The offset of an interchange form in seconds.
def readOffset? : List Char → Option Int
  | ['Z'] => some 0
  | [s, a, b, ':', c, d] => do
    let h ← number? [a, b]
    let m ← number? [c, d]
    if h ≥ 24 || m ≥ 60 then none
    let n : Int := h * 3600 + m * 60
    if s == '+' then some n else if s == '-' then some (-n) else none
  | _ => none

-- The fraction after the seconds: nanoseconds, and the text after it.
def readFraction : List Char → Nat × List Char
  | '.' :: rest =>
    let (ds, after) := rest.span Char.isDigit
    let nine := (ds ++ List.replicate 9 '0').take 9
    ((number? nine).getD 0, after)
  | cs => (0, cs)

-- Reads the interchange form and turns it to offset zero.
def readIso? (s : String) : Option Time :=
  match s.toList with
  | y1 :: y2 :: y3 :: y4 :: '-' :: m1 :: m2 :: '-' :: d1 :: d2 :: 'T' :: h1 :: h2 :: ':' ::
      n1 :: n2 :: ':' :: s1 :: s2 :: rest => do
    let year ← number? [y1, y2, y3, y4]
    let month ← number? [m1, m2]
    let day ← number? [d1, d2]
    let hour ← number? [h1, h2]
    let minute ← number? [n1, n2]
    let second ← number? [s1, s2]
    let (nanos, rest) := readFraction rest
    let offset ← readOffset? rest
    if month < 1 || 12 < month || day < 1 || daysInMonth year month < day || 23 < hour ||
        59 < minute || 59 < second then none
    else
      let t := ofDate ⟨year, month, day⟩ hour minute second nanos
      some { t with seconds := t.seconds - offset }
  | _ => none

end Time
end QueryTree
