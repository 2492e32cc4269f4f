import QueryTree.Json.Basic
import QueryTree.Text.Quoted
import QueryTree.Text.Utf8

namespace QueryTree.Json

def escapeChar (c : Char) : String :=
  match c with
  | '"' => "\\\""
  | '\\' => "\\\\"
  | '\n' => "\\n"
  | '\r' => "\\r"
  | '\t' => "\\t"
  | c =>
    let n := c.toNat
    if n == 8 then "\\b"
    else if n == 12 then "\\f"
    else if n < 32 || c == '<' || c == '>' || c == '&' || n == 0x2028 || n == 0x2029 then
      "\\u" ++ Text.hex 4 n
    else c.toString

def quoted (s : String) : String :=
  "\"" ++ String.join (s.toList.map escapeChar) ++ "\""

def escapeUnit : Text.Unit8 → String
  | .char c => escapeChar c
  | .stray _ => "\\ufffd"

def quotedOctets (bs : List UInt8) : String :=
  "\"" ++ String.join ((Text.Utf8.units bs).map escapeUnit) ++ "\""

mutual

-- Compact text.
def write : Json → String
  | .null => "null"
  | .bool true => "true"
  | .bool false => "false"
  | .number t => t
  | .string s => quoted s
  | .octets bs => quotedOctets bs
  | .array items => "[" ++ ",".intercalate (writeItems items) ++ "]"
  | .object members => "\x7b" ++ ",".intercalate (writeMembers members) ++ "\x7d"

def writeItems : List Json → List String
  | [] => []
  | v :: rest => v.write :: writeItems rest

def writeMembers : List (String × Json) → List String
  | [] => []
  | (n, v) :: rest => (quoted n ++ ":" ++ v.write) :: writeMembers rest

end

def indentation (depth : Nat) : String := "\n" ++ String.join (List.replicate depth "  ")

mutual

-- Text with one member or item a line, two blanks a level.
def writeIndented (depth : Nat) : Json → String
  | .array [] => "[]"
  | .array items =>
    "[" ++ ",".intercalate (indentedItems (depth + 1) items) ++ indentation depth ++ "]"
  | .object [] => "\x7b\x7d"
  | .object members =>
    "\x7b" ++ ",".intercalate (indentedMembers (depth + 1) members) ++ indentation depth ++ "\x7d"
  | v => v.write

def indentedItems (depth : Nat) : List Json → List String
  | [] => []
  | v :: rest => (indentation depth ++ v.writeIndented depth) :: indentedItems depth rest

def indentedMembers (depth : Nat) : List (String × Json) → List String
  | [] => []
  | (n, v) :: rest =>
    (indentation depth ++ quoted n ++ ": " ++ v.writeIndented depth) :: indentedMembers depth rest

end

end QueryTree.Json
