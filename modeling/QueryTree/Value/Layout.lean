import QueryTree.Value.Display

namespace QueryTree.Time

-- Parts of a layout that stand for parts of an instant, longer ones before those they begin with.
def layoutParts : List (String × (Time → String)) :=
  [("January", fun t => monthName t.date.month),
   ("Jan", fun t => String.ofList ((monthName t.date.month).toList.take 3)),
   ("Monday", fun t => weekdayName t.weekday),
   ("Mon", fun t => String.ofList ((weekdayName t.weekday).toList.take 3)),
   ("MST", fun _ => "UTC"),
   ("2006", fun t => yearText t.date.year),
   ("01", fun t => padded 2 t.date.month),
   ("002", fun t => padded 3 t.yearDay.toNat),
   ("02", fun t => padded 2 t.date.day),
   ("03", fun t => padded 2 (clockHour t)),
   ("04", fun t => padded 2 t.minute),
   ("05", fun t => padded 2 t.second),
   ("06", fun t => padded 2 (t.date.year % 100).toNat),
   ("15", fun t => padded 2 t.hour),
   ("1", fun t => toString t.date.month),
   ("__2", fun t => blankPadded 3 t.yearDay.toNat),
   ("_2006", fun t => "_" ++ yearText t.date.year),
   ("_2", fun t => blankPadded 2 t.date.day),
   ("2", fun t => toString t.date.day),
   ("3", fun t => toString (clockHour t)),
   ("4", fun t => toString t.minute),
   ("5", fun t => toString t.second),
   ("PM", fun t => if t.hour ≥ 12 then "PM" else "AM"),
   ("pm", fun t => if t.hour ≥ 12 then "pm" else "am"),
   ("-07:00:00", fun _ => "+00:00:00"), ("-070000", fun _ => "+000000"),
   ("-07:00", fun _ => "+00:00"), ("-0700", fun _ => "+0000"), ("-07", fun _ => "+00"),
   ("Z07:00:00", fun _ => "Z"), ("Z070000", fun _ => "Z"), ("Z07:00", fun _ => "Z"),
   ("Z0700", fun _ => "Z"), ("Z07", fun _ => "Z")]
where
  clockHour (t : Time) : Nat := if t.hour % 12 == 0 then 12 else t.hour % 12
  blankPadded (width n : Nat) : String :=
    let s := toString n
    String.ofList (List.replicate (width - s.length) ' ') ++ s

-- A short month or weekday name must not run on in lower case letters.
def runsOn (part : String) (rest : List Char) : Bool :=
  (part == "Jan" || part == "Mon") && rest.head?.any Char.isLower

-- A fraction of a second: a point or comma, then zeros or nines and no further digit.
def layoutFraction? : List Char → Option (Char × Char × Nat × List Char)
  | p :: c :: rest =>
    if (p == '.' || p == ',') && (c == '0' || c == '9') then
      let (same, after) := (c :: rest).span (· == c)
      if after.head?.any Char.isDigit then none else some (p, c, same.length, after)
    else none
  | _ => none

def fraction (t : Time) (point digit : Char) (count : Nat) : String :=
  let ds := (padded 9 t.nanos ++ String.ofList (List.replicate (count - 9) '0')).toList.take count
  let ds := if digit == '9' then Decimal.dropZeros ds else ds
  if digit == '9' && ds.isEmpty then "" else String.ofList (point :: ds)

def fillLayout (t : Time) : Nat → List Char → String
  | 0, _ => ""
  | _, [] => ""
  | n + 1, c :: rest =>
    match layoutFraction? (c :: rest) with
    | some (point, digit, count, after) => fraction t point digit count ++ fillLayout t n after
    | none =>
      match layoutParts.find? fun (part, _) =>
          part.toList.isPrefixOf (c :: rest) && !runsOn part ((c :: rest).drop part.length) with
      | some (part, write) => write t ++ fillLayout t n ((c :: rest).drop part.length)
      | none => c.toString ++ fillLayout t n rest

def format (t : Time) (layout : String) : String :=
  fillLayout t (layout.length + 1) layout.toList

end QueryTree.Time
