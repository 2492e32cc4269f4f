import QueryTree.Json.Basic
import QueryTree.Number.Reader
import QueryTree.Text.Quoted
import QueryTree.Text.Utf8

namespace QueryTree.Json

def isSpace (c : Char) : Bool := c == ' ' || c == '\t' || c == '\n' || c == '\r'

def skipSpace (cs : List Char) : List Char := cs.dropWhile isSpace

-- Where and why a text is no JSON.
inductive Fault where
  -- Nothing but blanks.
  | empty
  -- The text ends inside a value.
  | ended
  | unexpected (c : Char) (place : String)
deriving DecidableEq, Inhabited

def Fault.message : Fault → String
  | .empty => "EOF"
  | .ended => "unexpected end of JSON input"
  | .unexpected c place => "invalid character " ++ Text.quoteRune c ++ " " ++ place

-- Refuses the next character, or the end of the text.
def refuse (place : String) : List Char → Except Fault α
  | [] => .error .ended
  | c :: _ => .error (.unexpected c place)

def hexUnit : List Char → Except Fault (Nat × List Char)
  | a :: b :: c :: d :: rest =>
    match Number.readDigits? 16 [a, b, c, d] with
    | some n => .ok (n, rest)
    | none =>
      refuse "in \\u hexadecimal character escape"
        ([a, b, c, d].dropWhile fun x => (Number.digitValue? 16 x).isSome)
  | cs =>
    refuse "in \\u hexadecimal character escape"
      (cs.dropWhile fun x => (Number.digitValue? 16 x).isSome)

def isHighUnit (n : Nat) : Bool := 0xd800 ≤ n && n < 0xdc00

def isLowUnit (n : Nat) : Bool := 0xdc00 ≤ n && n < 0xe000

-- The unit of an escape that follows at once.
def nextUnit? : List Char → Option (Nat × List Char)
  | '\\' :: 'u' :: rest => (hexUnit rest).toOption
  | _ => none

-- A character given by a unit or a pair of them; half a pair is the replacement character.
def unitChar (n : Nat) (rest : List Char) : Char × List Char :=
  if isHighUnit n then
    match nextUnit? rest with
    | some (m, after) =>
      if isLowUnit m then (Char.ofNat (0x10000 + (n - 0xd800) * 0x400 + (m - 0xdc00)), after)
      else (Text.replacement, rest)
    | none => (Text.replacement, rest)
  else if isLowUnit n then (Text.replacement, rest)
  else (Char.ofNat n, rest)

-- What a letter after a backslash stands for.
def escapedChar? : Char → Option Char
  | '"' => some '"'
  | '\\' => some '\\'
  | '/' => some '/'
  | 'b' => some (Char.ofNat 8)
  | 'f' => some (Char.ofNat 12)
  | 'n' => some '\n'
  | 'r' => some '\r'
  | 't' => some '\t'
  | _ => none

-- The characters up to the closing quote and the text after it.
def readString : Nat → List Char → List Char → Except Fault (String × List Char)
  | 0, _, _ => .error .ended
  | fuel + 1, acc, cs =>
    match cs with
    | [] => .error .ended
    | '"' :: rest => .ok (String.ofList acc.reverse, rest)
    | '\\' :: 'u' :: rest => do
      let (n, rest) ← hexUnit rest
      let (c, rest) := unitChar n rest
      readString fuel (c :: acc) rest
    | '\\' :: e :: rest =>
      match escapedChar? e with
      | some c => readString fuel (c :: acc) rest
      | none => refuse "in string escape code" (e :: rest)
    | ['\\'] => .error .ended
    | c :: rest =>
      if c.toNat < 32 then refuse "in string literal" (c :: rest)
      else readString fuel (c :: acc) rest

def spanDigits (cs : List Char) : List Char × List Char := cs.span Char.isDigit

-- A fraction, when a point follows.
def readFraction : List Char → Except Fault (List Char × List Char)
  | '.' :: rest =>
    let (ds, rest) := spanDigits rest
    if ds.isEmpty then refuse "after decimal point in numeric literal" rest
    else .ok ('.' :: ds, rest)
  | cs => .ok ([], cs)

-- An exponent, when its mark follows.
def readExponent : List Char → Except Fault (List Char × List Char)
  | e :: rest =>
    if e == 'e' || e == 'E' then
      let (sign, rest) :=
        match rest with
        | '+' :: rest => (['+'], rest)
        | '-' :: rest => (['-'], rest)
        | _ => ([], rest)
      let (ds, rest) := spanDigits rest
      if ds.isEmpty then refuse "in exponent of numeric literal" rest
      else .ok (e :: sign ++ ds, rest)
    else .ok ([], e :: rest)
  | [] => .ok ([], [])

-- The digits before a fraction: a lone zero, or digits without a leading one.
def readWhole (place : String) : List Char → Except Fault (List Char × List Char)
  | '0' :: rest => .ok (['0'], rest)
  | cs =>
    let (ds, rest) := spanDigits cs
    if ds.isEmpty then refuse place cs else .ok (ds, rest)

def atValue : String := "looking for beginning of value"

def readNumber (cs : List Char) : Except Fault (String × List Char) := do
  let (sign, place, cs) :=
    match cs with
    | '-' :: rest => (['-'], "in numeric literal", rest)
    | _ => ([], atValue, cs)
  let (whole, cs) ← readWhole place cs
  let (part, cs) ← readFraction cs
  let (exponent, cs) ← readExponent cs
  .ok (String.ofList (sign ++ whole ++ part ++ exponent), cs)

-- The rest of a word whose letters have been read up to here.
def readWord (word : String) (v : Json) : List Char → List Char → Except Fault (Json × List Char)
  | [], cs => .ok (v, cs)
  | w :: ws, c :: cs =>
    if w == c then readWord word v ws cs
    else refuse ("in literal " ++ word ++ " (expecting " ++ Text.quoteRune w ++ ")") (c :: cs)
  | _ :: _, [] => .error .ended

mutual

def readValue : Nat → List Char → Except Fault (Json × List Char)
  | 0, _ => .error .ended
  | fuel + 1, cs =>
    match skipSpace cs with
    | 'n' :: rest => readWord "null" .null ['u', 'l', 'l'] rest
    | 't' :: rest => readWord "true" (.bool true) ['r', 'u', 'e'] rest
    | 'f' :: rest => readWord "false" (.bool false) ['a', 'l', 's', 'e'] rest
    | '"' :: rest => do
      let (s, rest) ← readString (rest.length + 1) [] rest
      .ok (.string s, rest)
    | '[' :: rest =>
      match skipSpace rest with
      | ']' :: rest => .ok (.array [], rest)
      | rest => readItems fuel [] rest
    | '\x7b' :: rest =>
      match skipSpace rest with
      | '\x7d' :: rest => .ok (.object [], rest)
      | rest => readMembers fuel [] rest
    | cs => do
      let (t, rest) ← readNumber cs
      .ok (.number t, rest)

-- Items from the first of those still to read.
def readItems : Nat → List Json → List Char → Except Fault (Json × List Char)
  | 0, _, _ => .error .ended
  | fuel + 1, acc, cs => do
    let (v, rest) ← readValue fuel cs
    match skipSpace rest with
    | ',' :: rest => readItems fuel (v :: acc) rest
    | ']' :: rest => .ok (.array (v :: acc).reverse, rest)
    | rest => refuse "after array element" rest

def readMembers : Nat → List (String × Json) → List Char → Except Fault (Json × List Char)
  | 0, _, _ => .error .ended
  | fuel + 1, acc, cs =>
    match skipSpace cs with
    | '"' :: rest => do
      let (name, rest) ← readString (rest.length + 1) [] rest
      match skipSpace rest with
      | ':' :: rest => do
        let (v, rest) ← readValue fuel rest
        match skipSpace rest with
        | ',' :: rest => readMembers fuel ((name, v) :: acc) rest
        | '\x7d' :: rest => .ok (.object ((name, v) :: acc).reverse, rest)
        | rest => refuse "after object key:value pair" rest
      | rest => refuse "after object key" rest
    | rest => refuse "looking for beginning of object key string" rest

end

-- One value from the front of the text. Every value and item takes a character of its own, so
-- twice the length is enough fuel.
def readPrefix (s : String) : Except Fault (Json × List Char) :=
  if (skipSpace s.toList).isEmpty then .error .empty else readValue (2 * s.length + 2) s.toList

-- A text that holds one value and nothing else.
def read? (s : String) : Option Json :=
  match readPrefix s with
  | .ok (v, rest) => if (skipSpace rest).isEmpty then some v else none
  | .error _ => none

end QueryTree.Json
