import QueryTree.Value.Display
import QueryTree.Value.Literal

namespace QueryTree

structure Directive where
  plus : Bool := false
  minus : Bool := false
  sharp : Bool := false
  space : Bool := false
  zero : Bool := false
  width : Option Nat := none
  precision : Option Nat := none
  -- Whether members of records are shown with their names.
  names : Bool := false

namespace Binary

-- The magnitude of a finite number with so many significant digits.
def withDigits (b : Binary) (count : Nat) : Decimal :=
  match b.abs.ratio? with
  | some (n, d) =>
    if n == 0 then ⟨[], 0⟩
    else
      let k := Decimal.magnitude n.toNat d - count
      let (num, den) := Decimal.shiftTen n.toNat d k
      Decimal.ofScaled (roundDiv num den) k
  | none => ⟨[], 0⟩

-- The magnitude of a finite number with so many places.
def withPlaces (b : Binary) (places : Nat) : Decimal :=
  match b.abs.ratio? with
  | some (n, d) => Decimal.ofScaled (roundDiv (n.toNat * Nat.pow 10 places) d) (-places)
  | none => ⟨[], 0⟩

end Binary

namespace Decimal

def zeros (n : Nat) : String := String.ofList (List.replicate n '0')

-- Positional text with exactly so many places.
def fixedText (d : Decimal) (places : Nat) : String :=
  let (whole, part) := d.positional
  if places == 0 then whole else whole ++ "." ++ part ++ zeros (places - part.length)

-- Text with one digit before the point, so many after it, and an exponent.
def exponentFixed (d : Decimal) (places : Nat) : String :=
  let (lead, rest, e) := match d.digits with
    | [] => ('0', [], (0 : Int))
    | c :: rest => (c, rest, d.point - 1)
  let part := String.ofList rest ++ zeros (places - rest.length)
  lead.toString ++ (if places == 0 then "" else "." ++ part) ++ "e" ++ exponentText e

-- Positional for moderate exponents, else with an exponent.
def general (d : Decimal) (precision : Nat) : String :=
  let count := d.digits.length
  let limit : Int := if precision > count && count ≥ d.point then count else precision
  if d.digits.isEmpty then "0"
  else if d.point - 1 < -4 || d.point - 1 ≥ limit then d.scientificText
  else d.positionalText

end Decimal

namespace Directive

def padding (d : Directive) (length : Nat) : String :=
  String.ofList (List.replicate ((d.width.getD 0) - length) (if d.zero && !d.minus then '0' else ' '))

-- A text filled up to the width, on the left unless the flag says otherwise.
def pad (d : Directive) (s : String) : String :=
  if d.minus then s ++ d.padding s.length else d.padding s.length ++ s

def padBlank (d : Directive) (s : String) : String := { d with zero := false }.pad s

def upperText (s : String) : String := String.ofList (s.toList.map Char.toUpper)

-- An integer in a base, with the sign and the mark of the base that the flags ask for.
def writeInt (d : Directive) (base : Nat) (verb : Char) (n : Int) : String :=
  if d.precision == some 0 && n == 0 then d.padBlank ""
  else
    let least := match d.precision with
      | some p => p
      | none =>
        if d.zero && !d.minus && d.width.isSome then
          d.width.getD 0 - (if n < 0 || d.plus || d.space then 1 else 0)
        else 0
    let raw := String.ofList (Nat.toDigits base n.natAbs)
    let raw := if verb == 'X' then upperText raw else raw
    let digits := Decimal.zeros (least - raw.length) ++ raw
    let mark :=
      if verb == 'O' then "0o"
      else if !d.sharp then ""
      else if base == 2 then "0b"
      else if base == 8 then (if digits.startsWith "0" then "" else "0")
      else if base == 16 then (if verb == 'X' then "0X" else "0x")
      else ""
    let sign := if n < 0 then "-" else if d.plus then "+" else if d.space then " " else ""
    d.padBlank (sign ++ mark ++ digits)

-- The magnitude of a finite number under a verb.
def magnitude (d : Directive) (format : FloatFormat) (verb : Char) (x : Binary) : String :=
  match verb.toLower, d.precision with
  | 'f', p =>
    let places := p.getD 6
    (x.withPlaces places).fixedText places
  | 'e', p =>
    let places := p.getD 6
    (x.withDigits (places + 1)).exponentFixed places
  | _, none => DecimalStyle.display.write (x.decimal format)
  | _, some p => (x.withDigits (max p 1)).general (max p 1)

def writeFloat (d : Directive) (kind : FloatKind) (verb : Char) (x : Binary) : String :=
  let sign := if x.isNegative then "-" else if d.plus then "+" else if d.space then " " else ""
  match x with
  | .nan => d.padBlank ((if d.plus then "+" else if d.space then " " else "") ++ "NaN")
  | .infinite s =>
    d.padBlank (if s then "-Inf" else if d.space && !d.plus then " Inf" else "+Inf")
  | x =>
    let body := d.magnitude (Value.floatFormat kind) verb x
    let body := if verb.isUpper then upperText body else body
    if d.zero && !d.minus && !sign.isEmpty then sign ++ d.padding (body.length + 1) ++ body
    else d.pad (sign ++ body)

def cut (d : Directive) (s : String) : String :=
  match d.precision with
  | some p => String.ofList (s.toList.take p)
  | none => s

-- The hexadecimal digits of octets. The flags put a blank between octets and a mark before all
-- of them, or before each.
def hexText (d : Directive) (bs : List UInt8) : String :=
  let mark := if d.sharp && !bs.isEmpty then "0x" else ""
  if d.space then " ".intercalate (bs.map fun b => mark ++ Uuid.hexText [b])
  else mark ++ Uuid.hexText bs

-- A text in quotes: between backquotes or in ASCII, where the flags ask for that.
def quoted (d : Directive) (s : String) : String :=
  if d.sharp && Text.isRaw s then "`" ++ s ++ "`"
  else if d.plus then Text.quoteAscii s
  else Text.quote s

-- A text as it is, quoted, or by the hexadecimal digits of its octets.
def writeText? (d : Directive) (verb : Char) (s : String) : Option String :=
  match verb with
  | 'v' | 's' => some (d.pad (d.cut s))
  | 'q' => some (d.pad (d.quoted (d.cut s)))
  | 'x' | 'X' =>
    let bs := Text.Utf8.encode s
    let bs := match d.precision with
      | some p => bs.take p
      | none => bs
    let digits := d.hexText bs
    some (d.pad (if verb == 'X' then upperText digits else digits))
  | _ => none

-- The character of a code point; what is no code point becomes the replacement character.
def runeOf (n : Int) : Char :=
  if 0 ≤ n && n ≤ 0x10ffff && !(0xd800 ≤ n && n < 0xe000) then Char.ofNat n.toNat
  else Text.replacement

-- The name of a code point, and with a flag the character itself.
def codePoint (d : Directive) (n : Int) : String :=
  let digits := upperText (String.ofList (Nat.toDigits 16 (n % (Nat.pow 2 64 : Nat)).toNat))
  let name := "U+" ++ Decimal.zeros (max 4 (d.precision.getD 0) - digits.length) ++ digits
  if d.sharp && 0 ≤ n && n ≤ 0x10ffff && Text.isPrintable (runeOf n) then
    name ++ " '" ++ (runeOf n).toString ++ "'"
  else name

def writeInt? (d : Directive) (verb : Char) (n : Int) : Option String :=
  match verb with
  | 'v' | 'd' => some (d.writeInt 10 verb n)
  | 'b' => some (d.writeInt 2 verb n)
  | 'o' | 'O' => some (d.writeInt 8 verb n)
  | 'x' | 'X' => some (d.writeInt 16 verb n)
  | 'c' => some (d.pad (runeOf n).toString)
  | 'q' => some (d.pad (Text.quoteRune (runeOf n)))
  | 'U' => some (d.padBlank (d.codePoint n))
  | _ => none

def isFloatVerb (verb : Char) : Bool := "vgGeEfF".toList.contains verb

def isTextVerb (verb : Char) : Bool := "vsxXq".toList.contains verb

-- Declared types that have a text of their own.
def ownText? : Value → Option String
  | .time t | .pointer (.time t) => some t.displayText
  | .uuid u | .pointer (.uuid u) => some u.text
  | .named t (.int _ n) => Value.wordFor? t n
  | _ => none

-- What stands for a value that the verb is not for; `shown` is its plain form.
def refused (verb : Char) (type shown : String) : String :=
  "%!" ++ verb.toString ++ "(" ++ type ++ "=" ++ shown ++ ")"

def plain (d : Directive) (v : Value) : String :=
  match ownText? v, v.under with
  | some s, _ => d.pad (d.cut s)
  | none, .bool b => d.pad (toString b)
  | none, .int _ n => d.writeInt 10 'v' n
  | none, .float k x => d.writeFloat k 'v' x
  | none, .text s => d.pad (d.cut s)
  | none, .nilPointer _ => d.pad "<nil>"
  | none, v => v.display

mutual

def inner (d : Directive) (verb : Char) (v : Value) : String :=
  match ownText? v, isTextVerb verb with
  | some s, true => (d.writeText? verb s).getD ""
  | _, _ =>
    match v with
    | .null => "<nil>"
    | .named t w => d.shaped verb t w
    | .uuid u =>
      "[" ++ " ".intercalate (u.octets.map fun b => (d.writeInt? verb b.toNat).getD "") ++ "]"
    | w => d.shaped verb w.typeName w

def shaped (d : Directive) (verb : Char) (type : String) (v : Value) : String :=
  match v with
  | .bool b => if verb == 't' || verb == 'v' then d.pad (toString b) else refused verb type (d.plain v)
  | .int _ n => (d.writeInt? verb n).getD (refused verb type (d.plain v))
  | .float k x =>
    if isFloatVerb verb then d.writeFloat k verb x else refused verb type (d.plain v)
  | .text s => (d.writeText? verb s).getD (refused verb type (d.plain v))
  | .list _ vs | .array _ vs => "[" ++ " ".intercalate (d.innerAll verb vs) ++ "]"
  | .nilList _ => "[]"
  | .map _ _ es => "map[" ++ " ".intercalate (d.innerEntries verb es) ++ "]"
  | .record _ fs => "\x7b" ++ " ".intercalate (d.innerFields verb fs) ++ "\x7d"
  | .pointer w => "&" ++ d.inner verb w
  | .nilPointer _ => if verb == 'v' then d.pad "<nil>" else refused verb type (d.plain v)
  | .named t w => d.shaped verb t w
  | v => d.pad v.display

def innerAll (d : Directive) (verb : Char) : List Value → List String
  | [] => []
  | v :: vs => d.inner verb v :: d.innerAll verb vs

def innerEntries (d : Directive) (verb : Char) : List (Value × Value) → List String
  | [] => []
  | (k, v) :: es => (d.inner verb k ++ ":" ++ d.inner verb v) :: d.innerEntries verb es

def innerFields (d : Directive) (verb : Char) : List (String × Value) → List String
  | [] => []
  | (n, v) :: fs =>
    ((if d.names then n ++ ":" else "") ++ d.inner verb v) :: d.innerFields verb fs

end

-- A value handed to the format. The plain verb takes the plus flag for the names of members.
def write (d : Directive) (verb : Char) (v : Value) : String :=
  let d := if verb == 'v' then { d with plus := false, names := d.plus } else d
  if verb == 'T' then d.pad v.typeName
  else if v.isNull then
    if verb == 'v' then d.pad "<nil>" else "%!" ++ verb.toString ++ "(<nil>)"
  else if verb == 'v' && d.sharp then v.literal
  else match v with
    | .list (.int .uint8) vs =>
      if isTextVerb verb && verb != 'v' then
        (d.writeText? verb (Text.Utf8.decode (Value.octetItems vs))).getD ""
      else d.inner verb v
    | v => d.inner verb v

def withFlag? (d : Directive) : Char → Option Directive
  | '#' => some { d with sharp := true }
  | '0' => some { d with zero := true }
  | '+' => some { d with plus := true }
  | '-' => some { d with minus := true }
  | ' ' => some { d with space := true }
  | _ => none

def readFlags (d : Directive) : List Char → Directive × List Char
  | [] => (d, [])
  | c :: rest =>
    match d.withFlag? c with
    | some d => readFlags d rest
    | none => (d, c :: rest)

def readNumber (cs : List Char) : Option Nat × List Char :=
  let (ds, rest) := cs.span Char.isDigit
  ((String.ofList ds).toNat?, rest)

end Directive

-- The state of a format: the place of the next value, and whether places were given by number.
structure Formatting where
  next : Nat := 0
  reordered : Bool := false

namespace Formatting

-- A place given by number in brackets. The flag tells whether it is one.
def readPlace (st : Formatting) (count : Nat) (cs : List Char) : Formatting × Bool × List Char :=
  match cs with
  | '[' :: rest =>
    let (ds, after) := rest.span (· != ']')
    let st := { st with reordered := true }
    match after with
    | ']' :: after =>
      match (String.ofList ds).toNat? with
      | some n => if 1 ≤ n && n ≤ count then ({ st with next := n - 1 }, true, after) else (st, false, after)
      | none => (st, false, after)
    | _ => (st, false, rest)
  | cs => (st, true, cs)

-- A width or precision, perhaps taken from the next value.
def readSize (st : Formatting) (args : List Value) (cs : List Char) :
    Formatting × Option Int × Bool × List Char :=
  match cs with
  | '*' :: rest =>
    match args[st.next]? with
    | some (.int _ n) => ({ st with next := st.next + 1 }, some n, true, rest)
    | some _ => ({ st with next := st.next + 1 }, none, false, rest)
    | none => (st, none, false, rest)
  | cs =>
    let (n, rest) := Directive.readNumber cs
    (st, n.map Int.ofNat, true, rest)

end Formatting

namespace Format

-- What a format leaves unused at its end.
def unused (st : Formatting) (args : List Value) : String :=
  match args.drop st.next with
  | [] => ""
  | rest =>
    if st.reordered then ""
    else "%!(EXTRA " ++ ", ".intercalate (rest.map fun v =>
      if v.isNull then "<nil>" else v.typeName ++ "=" ++ ({} : Directive).write 'v' v) ++ ")"

-- One directive after its percent sign: its text, the state after it and the rest.
def directive (args : List Value) (st : Formatting) (cs : List Char) :
    String × Formatting × List Char :=
  let (d, cs) := Directive.readFlags {} cs
  let (st, good, cs) := st.readPlace args.length cs
  let (st, width, goodWidth, cs) := st.readSize args cs
  let d := match width with
    | some w => if w < 0 then { d with width := some w.natAbs, minus := true }
      else { d with width := some w.toNat }
    | none => d
  let (st, d, good, goodPrecision, cs) :=
    match cs with
    | '.' :: cs =>
      let (st, goodPlace, cs) := st.readPlace args.length cs
      let (st, p, goodPrecision, cs) := st.readSize args cs
      (st, { d with precision := some (p.getD 0).toNat }, good && goodPlace, goodPrecision, cs)
    | cs => (st, d, good, true, cs)
  let (st, goodPlace, cs) := st.readPlace args.length cs
  let marks := (if goodWidth then "" else "%!(BADWIDTH)") ++
    (if goodPrecision then "" else "%!(BADPREC)")
  match cs with
  | [] => (marks ++ "%!(NOVERB)", st, [])
  | '%' :: rest => (marks ++ "%", st, rest)
  | verb :: rest =>
    if !(good && goodPlace) then (marks ++ "%!" ++ verb.toString ++ "(BADINDEX)", st, rest)
    else match args[st.next]? with
      | none => (marks ++ "%!" ++ verb.toString ++ "(MISSING)", st, rest)
      | some v => (marks ++ d.write verb v, { st with next := st.next + 1 }, rest)

def run (args : List Value) : Nat → Formatting → List Char → String
  | 0, _, _ => ""
  | _, st, [] => unused st args
  | n + 1, st, '%' :: rest =>
    let (s, st, rest) := directive args st rest
    s ++ run args n st rest
  | n + 1, st, c :: rest => c.toString ++ run args n st rest

def fill (format : String) (args : List Value) : String :=
  run args (format.length + 1) {} format.toList

def isText (v : Value) : Bool :=
  match v.under with
  | .text _ | .octets _ => true
  | _ => false

-- Plain forms side by side, with a blank between two values that are not texts.
def joined : Option Value → List Value → String
  | _, [] => ""
  | before, v :: vs =>
    let gap := match before with
      | some w => if isText w || isText v then "" else " "
      | none => ""
    gap ++ ({} : Directive).write 'v' v ++ joined (some v) vs

def sideBySide (args : List Value) : String := joined none args

end Format
end QueryTree
