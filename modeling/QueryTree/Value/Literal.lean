import QueryTree.Value.Display

namespace QueryTree.Value

def intLiteral (k : IntKind) (n : Int) : String :=
  if k.signed then toString n else "0x" ++ Text.hex 1 n.toNat

mutual

-- The source form inside another value. Lists, arrays and maps go by the name of a declared type.
def innerLiteral : Value → String
  | .null => "interface \x7b\x7d(nil)"
  | .bool b => toString b
  | .int k n => intLiteral k n
  | .float k x => displayFloat k x
  | .text s => Text.quote s
  | .octets bs => Text.quoteOctets bs
  | .named n (.list _ vs) | .named n (.array _ vs) =>
    n ++ "\x7b" ++ ", ".intercalate (literals vs) ++ "\x7d"
  | .named n (.nilList _) => n ++ "(nil)"
  | .named n (.map _ _ es) => n ++ "\x7b" ++ ", ".intercalate (entryLiterals es) ++ "\x7d"
  | .named _ v => v.innerLiteral
  | .time t => t.literalText
  | .uuid u => "uuid.UUID\x7b" ++
      ", ".intercalate (u.octets.map fun b => "0x" ++ Text.hex 1 b.toNat) ++ "\x7d"
  | .list t vs => "[]" ++ t.describe ++ "\x7b" ++ ", ".intercalate (literals vs) ++ "\x7d"
  | .nilList t => "[]" ++ t.describe ++ "(nil)"
  | .array t vs =>
    "[" ++ toString vs.length ++ "]" ++ t.describe ++ "\x7b" ++ ", ".intercalate (literals vs) ++
      "\x7d"
  | .map k t es =>
    (Ty.map k t).describe ++ "\x7b" ++ ", ".intercalate (entryLiterals es) ++ "\x7d"
  | .record n fs => n ++ "\x7b" ++ ", ".intercalate (fieldLiterals fs) ++ "\x7d"
  | .pointer v => "&" ++ v.innerLiteral
  | .nilPointer t => "(*" ++ t.describe ++ ")(nil)"
  | .channel t => "(" ++ (Ty.channel t).describe ++ ")"
  | .node n _ fs => "&" ++ n ++ "\x7b" ++ ", ".intercalate (fieldLiterals fs) ++ "\x7d"

def literals : List Value → List String
  | [] => []
  | v :: vs => v.innerLiteral :: literals vs

def entryLiterals : List (Value × Value) → List String
  | [] => []
  | (k, v) :: es => (k.innerLiteral ++ ":" ++ v.innerLiteral) :: entryLiterals es

def fieldLiterals : List (String × Value) → List String
  | [] => []
  | (n, v) :: fs => (n ++ ":" ++ v.innerLiteral) :: fieldLiterals fs

end

-- The source form of a whole value. An octet list goes by its short name there.
def literal : Value → String
  | .null => "<nil>"
  | .list (.int .uint8) vs => "[]byte\x7b" ++ ", ".intercalate (literals vs) ++ "\x7d"
  | .nilList (.int .uint8) => "[]byte(nil)"
  | v => v.innerLiteral

end QueryTree.Value
