import QueryTree.Lambda.Host
import QueryTree.Text.Blank
import QueryTree.Text.Case
import QueryTree.Value.Directive
import QueryTree.Value.Layout

namespace QueryTree.Lambda

abbrev int : Ty := .int .int

abbrev int64 : Ty := .int .int64

abbrev float64 : Ty := .float .float64

abbrev duration : Ty := .named Duration.typeName

-- A call with arguments that its parameters do not allow.
def mismatch : Except EvalError (Option Operand) := .error (.aborted none)

def result (v : Value) : Except EvalError (Option Operand) := .ok (some (.value v))

-- Functions on the octets of texts.
def textFunction (f : String → Value) : HostFunction :=
  { params := [.text], results := [.text],
    run := fun
      | [.value v] => result (f (Text.Utf8.decode (v.textOctets?.getD [])))
      | _ => mismatch }

def textTest (out : Ty) (f : List UInt8 → List UInt8 → Value) : HostFunction :=
  { params := [.text, .text], results := [out],
    run := fun
      | [.value v, .value w] => result (f (v.textOctets?.getD []) (w.textOctets?.getD []))
      | _ => mismatch }

def floatFunction (f : Binary → Binary) : HostFunction :=
  { params := [float64], results := [float64],
    run := fun
      | [.value (.float _ x)] => result (.float64 (f x))
      | _ => mismatch }

def floatFunction2 (f : Binary → Binary → Binary) : HostFunction :=
  { params := [float64, float64], results := [float64],
    run := fun
      | [.value (.float _ x), .value (.float _ y)] => result (.float64 (f x y))
      | _ => mismatch }

def orderOctets : List UInt8 → List UInt8 → Int
  | [], [] => 0
  | [], _ :: _ => -1
  | _ :: _, [] => 1
  | a :: as, b :: bs => if a < b then -1 else if b < a then 1 else orderOctets as bs

def containsOctets (part : List UInt8) : List UInt8 → Bool
  | [] => part.isEmpty
  | b :: bs => part.isPrefixOf (b :: bs) || containsOctets part bs

def repeatLimit : Nat := Nat.pow 2 31

def repeatText (s : Value) (n : Int) : Except EvalError (Option Operand) :=
  let bs := s.textOctets?.getD []
  if n < 0 then .error (.aborted (some "strings: negative Repeat count"))
  else if bs.length * n.toNat > 9223372036854775807 then
    .error (.aborted (some "strings: Repeat output length overflow"))
  else if bs.length * n.toNat > repeatLimit then .error (.aborted none)
  else if bs.isEmpty then result (.text "")
  else result (.ofOctets (List.replicate n.toNat bs).flatten)

-- What a format shows of an argument.
def shown : Operand → Value
  | .value v => v
  | .expr e => .named (Host.exprTy e).describe (.text e.display)

def functions (clock : Time) : List (String × HostFunction) :=
  [("strings.ToUpper", textFunction fun s => .text (String.ofList (s.toList.map Text.toUpper))),
   ("strings.ToLower", textFunction fun s => .text (String.ofList (s.toList.map Text.toLower))),
   ("strings.TrimSpace", textFunction fun s => .text (String.ofList (Text.trimBlank s.toList))),
   ("strings.HasPrefix", textTest .bool fun s t => .bool (t.isPrefixOf s)),
   ("strings.HasSuffix", textTest .bool fun s t => .bool (t.isSuffixOf s)),
   ("strings.Contains", textTest .bool fun s t => .bool (containsOctets t s)),
   ("strings.Compare", textTest int fun s t => .int .int (orderOctets s t)),
   ("strings.Repeat",
    { params := [.text, int], results := [.text],
      run := fun
        | [.value s, .value (.int _ n)] => repeatText s n
        | _ => mismatch }),
   ("strings.Join",
    { params := [.list .text, .text], results := [.text],
      run := fun
        | [.value vs, .value sep] =>
          let parts := (vs.items?.getD []).map fun v => v.textOctets?.getD []
          result (.ofOctets (List.intercalate (sep.textOctets?.getD []) parts))
        | _ => mismatch }),
   ("strconv.Itoa",
    { params := [int], results := [.text],
      run := fun
        | [.value (.int _ n)] => result (.text (toString n))
        | _ => mismatch }),
   ("fmt.Sprintf",
    { params := [.text, .list .any], variadic := true, results := [.text],
      run := fun
        | .value f :: args =>
          result (.text (Format.fill (Text.Utf8.decode (f.textOctets?.getD [])) (args.map shown)))
        | _ => mismatch }),
   ("fmt.Sprint",
    { params := [.list .any], variadic := true, results := [.text],
      run := fun args => result (.text (Format.sideBySide (args.map shown))) }),
   ("time.Now",
    { params := [], results := [Types.timeType],
      run := fun _ => result (.time { clock with zone := .host }) }),
   ("time.Unix",
    { params := [int64, int64], results := [Types.timeType],
      run := fun
        | [.value (.int _ s), .value (.int _ n)] =>
          result (.time { Time.ofUnix s n with zone := .host })
        | _ => mismatch }),
   ("math.Abs", floatFunction Binary.abs),
   ("math.Floor", floatFunction Binary.floor),
   ("math.Ceil", floatFunction Binary.ceil),
   ("math.Round", floatFunction Binary.nearest),
   ("math.Max", floatFunction2 Binary.max),
   ("math.Min", floatFunction2 Binary.min)]

def timeMethod (name : String) (out : Ty) (f : Time → Value) : Method :=
  { type := "time.Time", name, results := [out],
    run := fun
      | .time t, [] => result (f t)
      | _, _ => mismatch }

def timeMethod2 (name : String) (out : Ty) (f : Time → Time → Value) : Method :=
  { type := "time.Time", name, params := [Types.timeType], results := [out],
    run := fun
      | .time t, [.value (.time u)] => result (f t u)
      | _, _ => mismatch }

-- A span of time, cut to 64 bits.
def spanOf (n : Int) : Value :=
  let least : Int := -9223372036854775808
  let greatest : Int := 9223372036854775807
  .named Duration.typeName (.int .int64 (max least (min greatest n)))

-- A count that may leave 64 bits and then wraps.
def count64 (n : Int) : Value := .int .int64 (IntKind.int64.wrap n)

def addMonths (t : Time) (years months days : Int) : Time :=
  let d := t.date
  let m : Int := (d.month : Int) - 1 + months
  let first : Date := ⟨d.year + years + Int.fdiv m 12, (m % 12).toNat + 1, 1⟩
  { t with seconds := (first.toDays + d.day - 1 + days) * 86400 + t.secondOfDay }

-- The year that the week of an instant belongs to, which is that of its Thursday.
def weekYear (t : Time) : Int :=
  let monday := (t.weekday + 6) % 7
  (Date.ofDays (t.date.toDays - monday + 3)).year

-- Rounds down to a multiple of a span counted from the first instant of the calendar.
def truncateTo (t : Time) (span : Int) (half : Bool) : Time :=
  if span ≤ 0 then t
  else
    let since := (t.seconds + 62135596800) * 1000000000 + t.nanos
    let r := since % span
    if half && 2 * r ≥ span then t.addNanos (span - r) else t.addNanos (-r)

def timeMethods : List Method :=
  let number (f : Time → Int) (t : Time) : Value := .int .int (f t)
  [timeMethod "Year" int (number fun t => t.date.year),
   timeMethod "Month" (.named Duration.monthType)
     fun t => .named Duration.monthType (.int .int t.date.month),
   timeMethod "Day" int (number fun t => t.date.day),
   timeMethod "Hour" int (number fun t => t.hour),
   timeMethod "Minute" int (number fun t => t.minute),
   timeMethod "Second" int (number fun t => t.second),
   timeMethod "Nanosecond" int (number fun t => t.nanos),
   timeMethod "YearDay" int (number fun t => t.yearDay),
   timeMethod "Weekday" (.named Duration.weekdayType)
     fun t => .named Duration.weekdayType (.int .int t.weekday),
   timeMethod "Unix" int64 fun t => .int .int64 t.seconds,
   timeMethod "UnixMilli" int64 fun t => count64 (t.seconds * 1000 + t.nanos / 1000000),
   timeMethod "UnixMicro" int64 fun t => count64 (t.seconds * 1000000 + t.nanos / 1000),
   timeMethod "UnixNano" int64 fun t => count64 t.unixNanos,
   timeMethod "UTC" Types.timeType fun t => .time { t with zone := .utc },
   timeMethod "Local" Types.timeType fun t => .time { t with zone := .host },
   timeMethod "IsZero" .bool fun t => .bool (t.seconds == -62135596800 && t.nanos == 0),
   timeMethod "String" .text fun t => .text t.displayText,
   timeMethod "GoString" .text fun t => .text t.literalText,
   timeMethod2 "Before" .bool fun t u => .bool (t.before u),
   timeMethod2 "After" .bool fun t u => .bool (u.before t),
   timeMethod2 "Equal" .bool fun t u => .bool (t.sameInstant u),
   timeMethod2 "Compare" int fun t u => .int .int (if t.before u then -1 else if u.before t then 1 else 0),
   timeMethod2 "Sub" duration fun t u => spanOf (t.unixNanos - u.unixNanos),
   { timeMethod "Date" int (number fun t => t.date.year) with
     results := [int, .named Duration.monthType, int] },
   timeMethod "IsDST" .bool fun _ => .bool false,
   { timeMethod "ISOWeek" int (number weekYear) with results := [int, int] },
   { timeMethod "Clock" int (number fun t => t.hour) with results := [int, int, int] },
   { timeMethod "Zone" .text (fun _ => .text "UTC") with results := [.text, int] },
   { type := "time.Time", name := "Format", params := [.text], results := [.text],
     run := fun
       | .time t, [.value (.text s)] => result (.text (t.format s))
       | _, _ => mismatch },
   { type := "time.Time", name := "Add", params := [duration], results := [Types.timeType],
     run := fun
       | .time t, [.value (.named _ (.int _ n))] => result (.time (t.addNanos n))
       | _, _ => mismatch },
   { type := "time.Time", name := "AddDate", params := [int, int, int], results := [Types.timeType],
     run := fun
       | .time t, [.value (.int _ y), .value (.int _ m), .value (.int _ d)] =>
         result (.time (addMonths t y m d))
       | _, _ => mismatch },
   { type := "time.Time", name := "Truncate", params := [duration], results := [Types.timeType],
     run := fun
       | .time t, [.value (.named _ (.int _ n))] => result (.time (truncateTo t n false))
       | _, _ => mismatch },
   { type := "time.Time", name := "Round", params := [duration], results := [Types.timeType],
     run := fun
       | .time t, [.value (.named _ (.int _ n))] => result (.time (truncateTo t n true))
       | _, _ => mismatch }]

-- A span in units, the units and the rest of one rounded apart.
def inUnits (n : Int) (unit : Nat) : Binary :=
  let rest := n.tmod unit
  match (Binary.ofRatio (rest < 0) rest.natAbs unit).ratio? with
  | some (num, den) =>
    let sum := n.tdiv unit * den + num
    .ofRatio (sum < 0) sum.natAbs den
  | none => .nan

def spanMethod (name : String) (out : Ty) (f : Int → Value) : Method :=
  { type := Duration.typeName, name, results := [out],
    run := fun
      | .named _ (.int _ n), [] => result (f n)
      | _, _ => mismatch }

def ownTextMethod (type : String) : Method :=
  { type, name := "String", results := [.text],
    run := fun v _ => result (.text v.display) }

def spanMethods : List Method :=
  [spanMethod "Hours" float64 fun n => .float64 (inUnits n 3600000000000),
   spanMethod "Minutes" float64 fun n => .float64 (inUnits n 60000000000),
   spanMethod "Seconds" float64 fun n => .float64 (inUnits n 1000000000),
   spanMethod "Milliseconds" int64 fun n => .int .int64 (n.tdiv 1000000),
   spanMethod "Microseconds" int64 fun n => .int .int64 (n.tdiv 1000),
   spanMethod "Nanoseconds" int64 fun n => .int .int64 n,
   spanMethod "Abs" duration fun n => spanOf n.natAbs,
   ownTextMethod Duration.typeName, ownTextMethod Duration.monthType,
   ownTextMethod Duration.weekdayType]

-- A number kept as text, read as a number of a kind.
def numberMethod (name : String) (out : Ty) (reader : String)
    (read : List Char → Except String Value) : Method :=
  { type := "json.Number", name, results := [out, .named "error"],
    run := fun
      | .named _ (.text s), [] =>
        match read s.toList with
        | .ok v => result v
        | .error why =>
          .error (.reported ("strconv." ++ reader ++ ": parsing " ++ Text.quote s ++ ": " ++ why))
      | _, _ => mismatch }

def readInt64 (cs : List Char) : Except String Value :=
  match Number.readInt? cs with
  | none => .error "invalid syntax"
  | some n => if IntKind.int64.inRange n then .ok (.int64 n) else .error "value out of range"

-- A number of 64 bits. One too large to have a finite value is refused.
def readFloat64 (cs : List Char) : Except String Value :=
  match Number.read? cs with
  | none => .error "invalid syntax"
  | some r => if r.overflows then .error "value out of range" else .ok (.float64 r.toBinary)

def uuidMethod (name type : String) (f : Uuid → Nat) : Method :=
  { type := "uuid.UUID", name, results := [.named type],
    run := fun
      | .uuid u, [] => result (.named type (.int .uint8 (f u)))
      | _, _ => mismatch }

def methods : List Method :=
  timeMethods ++ spanMethods ++
  [ownTextMethod "uuid.UUID", ownTextMethod "json.Number",
   { type := "uuid.UUID", name := "URN", results := [.text],
     run := fun v _ => result (.text ("urn:uuid:" ++ v.display)) },
   uuidMethod "Version" Uuid.versionType Uuid.version,
   uuidMethod "Variant" Uuid.variantType Uuid.variant,
   ownTextMethod Uuid.versionType, ownTextMethod Uuid.variantType,
   numberMethod "Int64" int64 "ParseInt" readInt64,
   numberMethod "Float64" float64 "ParseFloat" readFloat64]

-- A world with nothing of its own.
def plainWorld (clock : Time) : World := { methods, clock }

end QueryTree.Lambda
