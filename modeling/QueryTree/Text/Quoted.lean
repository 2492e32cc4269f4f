import QueryTree.Text.Printable
import QueryTree.Text.Utf8

namespace QueryTree.Text

-- Lower case hexadecimal digits of `n`, at least `width` of them.
def hex (width n : Nat) : String :=
  let digits := Nat.toDigits 16 n
  String.ofList (List.replicate (width - digits.length) '0' ++ digits)

-- One character inside a quotation closed by `mark`.
def quoteChar (mark c : Char) : String :=
  if c == mark || c == '\\' then String.ofList ['\\', c]
  else if isPrintable c then c.toString
  else match c.toNat with
    | 7 => "\\a"
    | 8 => "\\b"
    | 9 => "\\t"
    | 10 => "\\n"
    | 11 => "\\v"
    | 12 => "\\f"
    | 13 => "\\r"
    | n =>
      if n < 32 || n == 127 then "\\x" ++ hex 2 n
      else if n < 0x10000 then "\\u" ++ hex 4 n
      else "\\U" ++ hex 8 n

def quoteUnit (mark : Char) : Unit8 → String
  | .char c => quoteChar mark c
  | .stray b => "\\x" ++ hex 2 b.toNat

def quote (s : String) : String :=
  "\"" ++ String.join (s.toList.map (quoteChar '"')) ++ "\""

-- Octets between double quotes; a stray octet is written by its number.
def quoteOctets (bs : List UInt8) : String :=
  "\"" ++ String.join ((Utf8.units bs).map (quoteUnit '"')) ++ "\""

-- A text between double quotes in which other characters than ASCII are written as escapes.
def quoteAscii (s : String) : String :=
  let escaped (c : Char) : String :=
    if c.toNat < 128 then quoteChar '"' c
    else if c.toNat < 0x10000 then "\\u" ++ hex 4 c.toNat
    else "\\U" ++ hex 8 c.toNat
  "\"" ++ String.join (s.toList.map escaped) ++ "\""

-- Whether a text may stand between backquotes as it is.
def isRaw (s : String) : Bool :=
  s.toList.all fun c =>
    c.toNat != 0xfeff && (c == '\t' || 32 ≤ c.toNat) && c != '\x60' && c.toNat != 127

def quoteRune (c : Char) : String := "'" ++ quoteChar '\'' c ++ "'"

end QueryTree.Text
