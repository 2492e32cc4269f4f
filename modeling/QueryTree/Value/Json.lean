import QueryTree.Json.Reader
import QueryTree.Json.Writer
import QueryTree.Text.Base64
import QueryTree.Value.Display

namespace QueryTree

inductive EncodeError where
  | unsupportedNumber (text : String)
  | unsupportedType (type : String)
  | invalidNumber (text : String)
  | yearOutOfRange
deriving DecidableEq, Inhabited

def EncodeError.message : EncodeError → String
  | .unsupportedNumber t => "json: unsupported value: " ++ t
  | .unsupportedType t => "json: unsupported type: " ++ t
  | .invalidNumber t => "json: invalid number literal " ++ Text.quote t
  | .yearOutOfRange =>
    "json: error calling MarshalJSON for type time.Time: Time.MarshalJSON: year outside of range [0,9999]"

namespace Value

-- A negative exponent of one digit is written without a leading zero.
def trimExponent (s : String) : String :=
  match s.toList.reverse with
  | d :: '0' :: '-' :: 'e' :: rest => String.ofList (rest.reverse ++ ['e', '-', d])
  | _ => s

def floatJson (k : FloatKind) (x : Binary) : Except EncodeError Json :=
  match x with
  | .finite .. => .ok (.number (trimExponent (x.write .interchange (floatFormat k) "+Inf")))
  | _ => .error (.unsupportedNumber (x.write .display (floatFormat k) "+Inf"))

-- Whether a text is a number of the interchange form.
def isJsonNumber (s : String) : Bool :=
  match Json.readNumber s.toList with
  | .ok (_, []) => true
  | _ => false

def numberJson (s : String) : Except EncodeError Json :=
  if s.isEmpty then .ok (.number "0")
  else if isJsonNumber s then .ok (.number s) else .error (.invalidNumber s)

def isExported (name : String) : Bool :=
  match name.toList with
  | c :: _ => c.isUpper
  | [] => false

mutual

def toJson : Value → Except EncodeError Json
  | .null | .nilPointer _ | .nilList _ => .ok .null
  | .bool b => .ok (.bool b)
  | .int _ n => .ok (.ofInt n)
  | .float k x => floatJson k x
  | .text s => .ok (.string s)
  | .octets bs => .ok (.octets bs)
  | .named t v => namedJson t v
  | .time t =>
    if 0 ≤ t.date.year && t.date.year ≤ 9999 then .ok (.string t.isoText)
    else .error .yearOutOfRange
  | .uuid u => .ok (.string u.text)
  | .list (.int .uint8) vs => .ok (.string (String.ofList (Text.Base64.encode (octetItems vs))))
  | .list _ vs | .array _ vs => do return .array (← jsonItems vs)
  | .map _ _ es => do return .object (Json.sorted (← jsonEntries es))
  | .record _ fs => do return .object (← jsonFields fs)
  | .pointer v => v.toJson
  | .channel t => .error (.unsupportedType (Ty.channel t).describe)
  | .node _ _ fs => do return .object (← jsonFields fs)

def namedJson (t : String) : Value → Except EncodeError Json
  | .text s => if t == "json.Number" then numberJson s else .ok (.string s)
  | .int _ n => .ok (.ofInt n)
  | .float k x => floatJson k x
  | .bool b => .ok (.bool b)
  | .octets bs => .ok (.octets bs)
  | v => v.toJson

def jsonItems : List Value → Except EncodeError (List Json)
  | [] => .ok []
  | v :: vs => do return (← v.toJson) :: (← jsonItems vs)

-- Keys are written as texts.
def jsonEntries : List (Value × Value) → Except EncodeError (List (String × Json))
  | [] => .ok []
  | (k, v) :: es => do return (k.under.display, ← v.toJson) :: (← jsonEntries es)

def jsonFields : List (String × Value) → Except EncodeError (List (String × Json))
  | [] => .ok []
  | (n, v) :: fs =>
    if isExported n then do return (n, ← v.toJson) :: (← jsonFields fs) else jsonFields fs

end

end Value
end QueryTree
