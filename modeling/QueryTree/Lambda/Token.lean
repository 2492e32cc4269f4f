import QueryTree.Number.Reader
import QueryTree.Text.Digit
import QueryTree.Text.Letter
import QueryTree.Text.Utf8

namespace QueryTree.Lambda

-- The value that a literal spells. A text whose octets are not UTF-8 is kept by its octets.
inductive Literal where
  | int (n : Nat)
  | float (x : Binary)
  | imaginary
  | char (code : Nat)
  | text (s : String)
  | octets (bs : List UInt8)
deriving Inhabited

inductive Lexeme where
  | ident (name : String)
  | keyword (word : String)
  | literal (value : Literal)
  | mark (text : String)
  | newline
deriving Inhabited

-- A word and the characters it takes, the last one excluded.
structure Token where
  lexeme : Lexeme
  start : Nat
  stop : Nat
deriving Inhabited

namespace Token

def keywords : List String :=
  ["break", "case", "chan", "const", "continue", "default", "defer", "else", "fallthrough", "for",
    "func", "go", "goto", "if", "import", "interface", "map", "package", "range", "return",
    "select", "struct", "switch", "type", "var"]

-- Longer marks come before those they begin with.
def marks : List String :=
  ["<<=", ">>=", "&^=", "...", "&&", "||", "<-", "++", "--", "==", "!=", "<=", ">=", ":=", "+=",
    "-=", "*=", "/=", "%=", "&=", "|=", "^=", "<<", ">>", "&^", "+", "-", "*", "/", "%", "&", "|",
    "^", "<", ">", "=", "!", "(", "[", "\x7b", ",", ".", ")", "]", "\x7d", ";", ":", "~"]

def startsName (c : Char) : Bool := c == '_' || Text.isLetter c

def continuesName (c : Char) : Bool := startsName c || Text.isDigit c

def isHexDigit (c : Char) : Bool := (Number.digitValue? 16 c).isSome

def ofName (cs : List Char) : Lexeme :=
  let s := String.ofList cs
  if keywords.contains s then .keyword s else .ident s

-- The base of a number and what follows its mark: `0x`, `0o`, `0b`, or a leading zero.
def baseOf : List Char → Option Char × List Char
  | '0' :: c :: rest =>
    let m := c.toLower
    if m == 'x' || m == 'o' || m == 'b' then (some m, rest) else (some '0', '0' :: c :: rest)
  | '0' :: [] => (some '0', ['0'])
  | cs => (none, cs)

def baseValue : Option Char → Nat
  | some 'x' => 16
  | some 'b' => 2
  | some _ => 8
  | none => 10

-- The characters up to the end of a list that begins within another one.
def upTo (cs rest : List Char) : List Char := cs.take (cs.length - rest.length)

-- An exponent, when one follows: whether there is one, and the rest after it.
def exponent? (mark : Option Char) : List Char → Option (Bool × List Char)
  | [] => some (false, [])
  | c :: rest =>
    let e := c.toLower
    if e == 'e' || e == 'p' then
      if e == 'e' && mark != none && mark != some '0' then none
      else if e == 'p' && mark != some 'x' then none
      else
        let (_, after) := Number.readSign rest
        let (ds, rest) := Number.spanDigits 10 after
        if ds.any Char.isDigit then some (true, rest) else none
    else some (false, c :: rest)

-- A number at the front of a text: an integer, a number with a fraction or an exponent, or an
-- imaginary one.
def number? (cs : List Char) : Option (Literal × List Char) := do
  let (mark, body) := baseOf cs
  let hex := mark == some 'x'
  let digit := if hex then isHexDigit else Char.isDigit
  let digits := List.span fun c => c == '_' || digit c
  let (whole, rest) := digits body
  let (point, part, rest) :=
    match rest with
    | '.' :: rest =>
      let (part, rest) := digits rest
      (true, part, rest)
    | rest => (false, [], rest)
  if point && (mark == some 'o' || mark == some 'b') then none
  if !(whole ++ part).any digit then none
  let (scaled, rest) ← exponent? mark rest
  if hex && point && !scaled then none
  let text := upTo cs rest
  let marked := mark.isSome && mark != some '0'
  if !Number.underscoresFit digit marked (if marked then text.drop 2 else text) then none
  match rest with
  | 'i' :: rest => some (.imaginary, rest)
  | rest =>
    if point || scaled then
      let r ← Number.read? text
      some (.float (if r.isVast then .zero else r.toBinary), rest)
    else
      let n ← if mark == none then Number.readDigits? 10 (Number.withoutUnderscores whole)
        else Number.readDigits? (baseValue mark) (Number.withoutUnderscores whole)
      some (.int n, rest)

def simpleEscape? : Char → Option Nat
  | 'a' => some 7
  | 'b' => some 8
  | 'f' => some 12
  | 'n' => some 10
  | 'r' => some 13
  | 't' => some 9
  | 'v' => some 11
  | '\\' => some 92
  | _ => none

-- A number of so many digits, and the rest.
def fixedDigits? (base count : Nat) (cs : List Char) : Option (Nat × List Char) := do
  let ds := cs.take count
  if ds.length < count then none
  let n ← Number.readDigits? base ds
  return (n, cs.drop count)

-- What an escape stands for, a code point or a single octet.
inductive Escaped where
  | code (n : Nat)
  | octet (n : Nat)

def isCodePoint (n : Nat) : Bool := n ≤ 0x10ffff && !(0xd800 ≤ n && n < 0xe000)

-- The escape after a backslash, inside quotes closed by `mark`.
def escape? (mark : Char) : List Char → Option (Escaped × List Char)
  | [] => none
  | c :: rest =>
    if c == mark then some (.code c.toNat, rest)
    else match simpleEscape? c with
      | some n => some (.code n, rest)
      | none =>
        let octets (base count : Nat) (cs : List Char) := do
          let (n, rest) ← fixedDigits? base count cs
          if n ≤ 255 then some (Escaped.octet n, rest) else none
        let codes (count : Nat) := do
          let (n, rest) ← fixedDigits? 16 count rest
          if isCodePoint n then some (Escaped.code n, rest) else none
        if '0' ≤ c && c ≤ '7' then octets 8 3 (c :: rest)
        else if c == 'x' then octets 16 2 rest
        else if c == 'u' then codes 4
        else if c == 'U' then codes 8
        else none

def Escaped.number : Escaped → Nat
  | .code n => n
  | .octet n => n

def charOctets (c : Char) : List UInt8 := Text.Utf8.encode c.toString

def Escaped.octets : Escaped → List UInt8
  | .code n => charOctets (Char.ofNat n)
  | .octet n => [n.toUInt8]

def char? : List Char → Option (Literal × List Char)
  | '\\' :: rest =>
    match escape? '\'' rest with
    | some (e, '\'' :: rest) => some (.char e.number, rest)
    | _ => none
  | c :: '\'' :: rest => if c == '\'' || c == '\n' then none else some (.char c.toNat, rest)
  | _ => none

def textOf (bs : List UInt8) : Literal :=
  match Text.Utf8.decode? bs with
  | some s => .text s
  | none => .octets bs

-- The octets of a text literal after its opening quote. A line break is not allowed in it.
def textOctets? : Nat → List Char → Option (List UInt8 × List Char)
  | 0, _ => none
  | _, [] => none
  | n + 1, c :: rest =>
    if c == '"' then some ([], rest)
    else if c == '\n' then none
    else do
      let (front, rest) ←
        if c == '\\' then (escape? '"' rest).map fun (e, rest) => (e.octets, rest)
        else some (charOctets c, rest)
      let (bs, rest) ← textOctets? n rest
      return (front ++ bs, rest)

def text? (cs : List Char) : Option (Literal × List Char) :=
  (textOctets? (cs.length + 1) cs).map fun (bs, rest) => (textOf bs, rest)

-- A text between back quotes, without carriage returns.
def rawText? (cs : List Char) : Option (Literal × List Char) :=
  match cs.span (· != '\x60') with
  | (body, _ :: rest) => some (.text (String.ofList (body.filter (· != '\r'))), rest)
  | (_, []) => none

def literalWith (r : Option (Literal × List Char)) : Option (Lexeme × List Char) :=
  r.map fun (v, rest) => (.literal v, rest)

def mark? (cs : List Char) : Option (Lexeme × List Char) :=
  (marks.find? fun m => m.toList.isPrefixOf cs).map fun m => (.mark m, cs.drop m.length)

def startsNumber : List Char → Bool
  | '.' :: c :: _ => c.isDigit
  | c :: _ => c.isDigit
  | [] => false

def next? (cs : List Char) : Option (Lexeme × List Char) :=
  if startsNumber cs then literalWith (number? cs)
  else match cs with
    | [] => none
    | '\'' :: rest => literalWith (char? rest)
    | '"' :: rest => literalWith (text? rest)
    | c :: rest =>
      if c == '\x60' then literalWith (rawText? rest)
      else if startsName c then
        let (name, rest) := rest.span continuesName
        some (ofName (c :: name), rest)
      else mark? cs

-- Whether a line break after the word ends a statement.
def endsStatement : Lexeme → Bool
  | .ident _ | .literal _ => true
  | .keyword w => ["break", "continue", "fallthrough", "return"].contains w
  | .mark m => ["++", "--", ")", "]", "\x7d"].contains m
  | .newline => false

-- The text after a comment that begins after `/*`, and whether the comment breaks the line.
def afterComment? : Bool → List Char → Option (Bool × List Char)
  | _, [] => none
  | broken, '*' :: '/' :: rest => some (broken, rest)
  | broken, c :: rest => afterComment? (broken || c == '\n') rest

def breakAt (size : Nat) (rest : List Char) : Token :=
  ⟨.newline, size - rest.length, size - rest.length⟩

-- The words of a text of which `ends` tells whether a statement may end before it.
def scan (size : Nat) : Nat → Bool → List Char → Option (List Token)
  | 0, _, _ => none
  | _, ends, [] => some (if ends then [breakAt size []] else [])
  | n + 1, ends, '/' :: '/' :: rest => scan size n ends (rest.dropWhile (· != '\n'))
  | n + 1, ends, '/' :: '*' :: rest => do
    let (broken, rest) ← afterComment? false rest
    if ends && broken then return breakAt size rest :: (← scan size n false rest)
    else scan size n ends rest
  | n + 1, ends, c :: rest =>
    if c == '\n' then
      if ends then (scan size n false rest).map (breakAt size (c :: rest) :: ·)
      else scan size n false rest
    else if c == ' ' || c == '\t' || c == '\r' then scan size n ends rest
    else do
      let (lexeme, after) ← next? (c :: rest)
      let token : Token := ⟨lexeme, size - (c :: rest).length, size - after.length⟩
      return token :: (← scan size n (endsStatement lexeme) after)

def byteOrderMark : Char := Char.ofNat 0xfeff

def isStray (c : Char) : Bool := c.toNat == 0 || c == byteOrderMark

def all? (cs : List Char) : Option (List Token) :=
  let body := if cs.head? == some byteOrderMark then cs.drop 1 else cs
  if body.any isStray then none else scan cs.length (cs.length + 1) false body

end Token
end QueryTree.Lambda
