import QueryTree.Value.Time
import QueryTree.Value.Ty
import QueryTree.Value.Uuid

namespace QueryTree

-- A `map` keeps its entries in ascending order of their keys. `octets` is a text whose octets
-- are not UTF-8. `named` puts a value under a declared type. `node` is a pointer to a node of an
-- expression, with its reading form and members.
inductive Value where
  | null
  | bool (b : Bool)
  | int (kind : IntKind) (n : Int)
  | float (kind : FloatKind) (x : Binary)
  | text (s : String)
  | octets (bs : List UInt8)
  | named (type : String) (v : Value)
  | time (t : Time)
  | uuid (u : Uuid)
  | list (elem : Ty) (items : List Value)
  | nilList (elem : Ty)
  | array (elem : Ty) (items : List Value)
  | map (key elem : Ty) (entries : List (Value × Value))
  | record (type : String) (fields : List (String × Value))
  | pointer (target : Value)
  | nilPointer (target : Ty)
  | channel (elem : Ty)
  | node (type text : String) (fields : List (String × Value))
deriving Inhabited

namespace Value

abbrev int64 (n : Int) : Value := .int .int64 n

abbrev float64 (x : Binary) : Value := .float .float64 x

-- The list whose items may be of any type.
abbrev items (vs : List Value) : Value := .list .any vs

-- The octets of a text, in the form without strays where there are none.
def ofOctets (bs : List UInt8) : Value :=
  match Text.Utf8.decode? bs with
  | some s => .text s
  | none => .octets bs

def under : Value → Value
  | .named _ v => v.under
  | v => v

def isText (v : Value) : Bool :=
  match v.under with
  | .text _ | .octets _ => true
  | _ => false

def isNull : Value → Bool
  | .null => true
  | _ => false

-- The type of a value; the null value has none.
def ty? : Value → Option Ty
  | .null => none
  | .bool _ => some .bool
  | .int k _ => some (.int k)
  | .float k _ => some (.float k)
  | .text _ | .octets _ => some .text
  | .named n v => some (.named n v.isText)
  | .time _ => some (.named "time.Time")
  | .uuid _ => some (.named "uuid.UUID")
  | .list t _ | .nilList t => some (.list t)
  | .array t vs => some (.array vs.length t)
  | .map k t _ => some (.map k t)
  | .record n _ => some (.named n)
  | .pointer v => some (.pointer (v.ty?.getD .any))
  | .nilPointer t => some (.pointer t)
  | .channel t => some (.channel t)
  | .node n _ _ => some (.pointer (.named n))

-- The name of the type, as it stands in messages.
def typeName (v : Value) : String :=
  match v.ty? with
  | some t => t.describe
  | none => "<nil>"

-- Booleans and numbers may be written into a statement.
def isPrimitive (v : Value) : Bool :=
  match v.under with
  | .bool _ | .int .. | .float .. => true
  | _ => false

-- The items of a list or array. The octets of an identifier are its items.
def items? (v : Value) : Option (List Value) :=
  match v.under with
  | .list _ vs | .array _ vs => some vs
  | .nilList _ => some []
  | .uuid u => some (u.octets.map fun b => .int .uint8 b.toNat)
  | _ => none

-- Octet lists are one value of the database; every other list is a collection of values.
def isOctetList : Value → Bool
  | .list (.int .uint8) _ | .nilList (.int .uint8) => true
  | _ => false

def collection? (v : Value) : Option (List Value) :=
  if v.isOctetList then none else v.items?

def octetItems (vs : List Value) : List UInt8 :=
  vs.map fun
    | .int _ n => n.toNat.toUInt8
    | _ => 0

-- Order of map keys: numbers by size, texts by characters.
def keyLess (v w : Value) : Bool :=
  match v.under, w.under with
  | .bool b, .bool c => !b && c
  | .int _ m, .int _ n => m < n
  | .text s, .text t => s < t
  | v, w => keyOctets v < keyOctets w
where
  keyOctets : Value → List UInt8
    | .text s => Text.Utf8.encode s
    | .octets bs => bs
    | _ => []

-- A map from entries in any order; a later entry of a key replaces an earlier one.
def mapOf (key elem : Ty) (entries : List (Value × Value)) : Value :=
  .map key elem (entries.foldl insert [])
where
  insert (es : List (Value × Value)) (e : Value × Value) : List (Value × Value) :=
    match es with
    | [] => [e]
    | x :: rest =>
      if keyLess e.1 x.1 then e :: x :: rest
      else if keyLess x.1 e.1 then x :: insert rest e
      else e :: rest

end Value
end QueryTree
