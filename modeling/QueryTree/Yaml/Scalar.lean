import QueryTree.Number.Reader
import QueryTree.Text.Base64
import QueryTree.Value.Basic
import QueryTree.Yaml.Reader

namespace QueryTree.Yaml

def nullWords : List String := ["", "~", "null", "Null", "NULL"]

def trueWords : List String := ["true", "True", "TRUE"]

def falseWords : List String := ["false", "False", "FALSE"]

def nanWords : List String := [".nan", ".NaN", ".NAN"]

def infinityWords : List String := [".inf", ".Inf", ".INF"]

-- Digits with an optional point and exponent.
def isDecimal (cs : List Char) : Bool :=
  let (_, body) := Number.readSign cs
  let (whole, rest) := body.span Char.isDigit
  let (part, rest) := match rest with
    | '.' :: rest =>
      let (ds, rest) := rest.span Char.isDigit
      (some ds, rest)
    | rest => (none, rest)
  let digits := if whole.isEmpty then part.any (!·.isEmpty) else true
  digits && match rest with
    | [] => true
    | e :: rest =>
      (e == 'e' || e == 'E') && (let ds := (Number.readSign rest).2
        !ds.isEmpty && ds.all Char.isDigit)

-- An integer that fits a word, signed if it can be.
def integer? (cs : List Char) : Option Value :=
  let (negative, body) := Number.readSign cs
  (Number.readMarked? body).bind fun n =>
    let v : Int := if negative then -(n : Int) else n
    if IntKind.int64.inRange v then some (.int .int v)
    else if cs.head? != some '+' && IntKind.uint64.inRange v then some (.int .uint64 v)
    else none

-- A date with month and day of one or two digits.
def readDate? (cs : List Char) : Option (Date × List Char) := do
  let (y, rest) := cs.span Char.isDigit
  let (m, rest) := (rest.drop 1).span Char.isDigit
  let (d, after) := (rest.drop 1).span Char.isDigit
  if y.length != 4 || cs[4]? != some '-' || rest.head? != some '-' || m.length > 2 || d.length > 2 then
    none
  else
    let year ← Number.readDigits? 10 y
    let month ← Number.readDigits? 10 m
    let day ← Number.readDigits? 10 d
    if month < 1 || 12 < month || day < 1 || Time.daysInMonth year month < day then none
    else some (⟨year, month, day⟩, after)

-- A clock time, its fields of one or two digits.
def readClock? (cs : List Char) : Option (Nat × Nat × Nat × Nat × List Char) := do
  let (h, rest) := cs.span Char.isDigit
  let (m, after) := (rest.drop 1).span Char.isDigit
  let (s, tail) := (after.drop 1).span Char.isDigit
  if rest.head? != some ':' || after.head? != some ':' || h.length > 2 || m.length > 2 ||
      s.length > 2 then none
  else
    let hour ← Number.readDigits? 10 h
    let minute ← Number.readDigits? 10 m
    let second ← Number.readDigits? 10 s
    let (nanos, tail) := Time.readFraction tail
    if 23 < hour || 59 < minute || 59 < second then none
    else some (hour, minute, second, nanos, tail)

-- A date, or a date and a clock time with an offset after a letter T or without one after a blank.
def instant? (cs : List Char) : Option Time := do
  let (d, rest) ← readDate? cs
  match rest with
  | [] => some (Time.ofDate d 0 0 0 0)
  | mark :: rest => do
    let (h, m, s, nanos, tail) ← readClock? rest
    let t := Time.ofDate d h m s nanos
    if mark == ' ' then (if tail.isEmpty then some t else none)
    else if mark == 'T' || mark == 't' then do
      let offset ← Time.readOffset? tail
      some { t with seconds := t.seconds - offset }
    else none

def resolve (s : String) : Value :=
  let cs := s.toList
  let infinite (negative : Bool) : Value := .float64 (.infinite negative)
  if nullWords.contains s then .null
  else if trueWords.contains s then .bool true
  else if falseWords.contains s then .bool false
  else if nanWords.contains s then .float64 .nan
  else if infinityWords.contains s then infinite false
  else match cs with
    | [] => .null
    | c :: rest =>
      let signed := c == '+' || c == '-'
      if signed && infinityWords.contains (String.ofList rest) then infinite (c == '-')
      else if c == '.' then
        match Number.readBinary? cs with
        | some x => .float64 x
        | none => .text s
      else if signed || c.isDigit then
        match instant? cs with
        | some t => .time t
        | none =>
          let plain := Number.withoutUnderscores cs
          match integer? plain with
          | some v => v
          | none =>
            if isDecimal plain then
              match Number.readBinary? plain with
              | some x => .float64 x
              | none => .text s
            else .text s
      else .text s

-- The value of a scalar whose tag says what it is; one that is not that has none.
def resolveAs? (tag s : String) : Option Value :=
  match tag, resolve s with
  | "!!null", .null => some .null
  | "!!bool", .bool b => some (.bool b)
  | "!!int", .int kind n => some (.int kind n)
  | "!!float", .int .int n => some (.float64 (.ofInt n))
  | "!!float", .float kind x => some (.float kind x)
  | "!!timestamp", .time t => some (.time t)
  | "!!binary", _ => (Text.Base64.decode? s.toList).map Value.ofOctets
  | _, _ => none

def scalarValue? (s : String) : ScalarKind → Option Value
  | .plain => some (resolve s)
  | .text => some (.text s)
  | .tagged tag => resolveAs? tag s

mutual

-- The value of a document. A collection is no key.
def toValue? : Yaml → Option Value
  | .scalar s kind => scalarValue? s kind
  | .sequence items => do return .items (← toValues? items)
  | .mapping entries => do
    let es ← toEntries? entries
    let texts := es.all fun (k, _) => match k with
      | .text _ => true
      | _ => false
    some (Value.mapOf (if texts then .text else .any) .any es)

def toValues? : List Yaml → Option (List Value)
  | [] => some []
  | y :: ys => do
    let v ← y.toValue?
    return v :: (← toValues? ys)

def toEntries? : List (Yaml × Yaml) → Option (List (Value × Value))
  | [] => some []
  | (.scalar s kind, v) :: es => do
    let k ← scalarValue? s kind
    let v ← v.toValue?
    return (k, v) :: (← toEntries? es)
  | _ :: _ => none

end

end QueryTree.Yaml
