import QueryTree.Value.Basic

namespace QueryTree

-- Spans of time in nanoseconds, written by hours, minutes and seconds.
namespace Duration

def typeName : String := "time.Duration"

def monthType : String := "time.Month"

def weekdayType : String := "time.Weekday"

-- `n` over `10 ^ places`, with as many places as it needs.
def fraction (n places : Nat) : String :=
  let whole := n / Nat.pow 10 places
  let part := Decimal.dropZeros (Time.padded places (n % Nat.pow 10 places)).toList
  toString whole ++ (if part.isEmpty then "" else "." ++ String.ofList part)

def magnitudeText (n : Nat) : String :=
  if n == 0 then "0s"
  else if n < 1000 then toString n ++ "ns"
  else if n < 1000000 then fraction n 3 ++ "µs"
  else if n < 1000000000 then fraction n 6 ++ "ms"
  else
    let minutes := n / 60000000000
    let seconds := fraction (n % 60000000000) 9 ++ "s"
    if minutes == 0 then seconds
    else if minutes < 60 then toString minutes ++ "m" ++ seconds
    else toString (minutes / 60) ++ "h" ++ toString (minutes % 60) ++ "m" ++ seconds

def text (n : Int) : String :=
  (if n < 0 then "-" else "") ++ magnitudeText n.natAbs

end Duration

namespace Value

-- The word for a number of a declared type that has one.
def wordFor? (type : String) (n : Int) : Option String :=
  if type == Duration.typeName then some (Duration.text n)
  else if type == Duration.monthType then
    some (if 1 ≤ n && n ≤ 12 then Time.monthName n.toNat else "%!Month(" ++ toString n ++ ")")
  else if type == Duration.weekdayType then
    some (if 0 ≤ n && n ≤ 6 then Time.weekdayName n.toNat else "%!Weekday(" ++ toString n ++ ")")
  else if type == Uuid.versionType then
    some ((if n > 15 then "BAD_VERSION_" else "VERSION_") ++ toString n)
  else if type == Uuid.variantType then
    some (Uuid.variantNames.getD n.toNat ("BadVariant" ++ toString n))
  else none

def displayInt (type : String) (n : Int) : String := (wordFor? type n).getD (toString n)

def floatFormat : FloatKind → FloatFormat
  | .float32 => .single
  | .float64 => .double

def displayFloat (kind : FloatKind) (x : Binary) : String :=
  x.write .display (floatFormat kind) "+Inf"

mutual

def display : Value → String
  | .null | .nilPointer _ => "<nil>"
  | .bool b => toString b
  | .int _ n => toString n
  | .float k x => displayFloat k x
  | .text s => s
  | .octets bs => Text.Utf8.decode bs
  | .named t (.int _ n) => displayInt t n
  | .named _ v => v.display
  | .time t => t.displayText
  | .uuid u => u.text
  | .list _ vs | .array _ vs => "[" ++ " ".intercalate (displayAll vs) ++ "]"
  | .nilList _ => "[]"
  | .map _ _ es => "map[" ++ " ".intercalate (displayEntries es) ++ "]"
  | .record _ fs => "\x7b" ++ " ".intercalate (displayFields fs) ++ "\x7d"
  | .pointer (.time t) => t.displayText
  | .pointer (.uuid u) => u.text
  | .pointer v => "&" ++ v.display
  | .channel t => t.describe
  | .node _ s _ => s

def displayAll : List Value → List String
  | [] => []
  | v :: vs => v.display :: displayAll vs

def displayEntries : List (Value × Value) → List String
  | [] => []
  | (k, v) :: es => (k.display ++ ":" ++ v.display) :: displayEntries es

def displayFields : List (String × Value) → List String
  | [] => []
  | (_, v) :: fs => v.display :: displayFields fs

end

end Value
end QueryTree
