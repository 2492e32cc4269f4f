import QueryTree.Value.Basic

namespace QueryTree.Value

-- Whole numbers below `2 ^ 53` become integers.
def normalFloat (x : Binary) : Value :=
  match x.integral? with
  | some n => if n.natAbs < Nat.pow 2 53 then int64 n else float64 x
  | none => float64 x

def normalInt (n : Int) : Value :=
  if n ≤ 9223372036854775807 then int64 n else .int .uint64 n

-- A number kept as text is the integer or else the double that it spells.
def normalNumber (s : String) : Value :=
  match Number.readInt64? s.toList with
  | some n => int64 n
  | none =>
    match Number.readBinary? s.toList with
    | some x => normalFloat x
    | none => .text s

def numberType : String := "json.Number"

mutual

def normalize : Value → Value
  | .int _ n => normalInt n
  | .float _ x => normalFloat x
  | .named t v => normalNamed t v
  | .uuid u => .items (u.octets.map fun b => int64 b.toNat)
  | .list (.int .uint8) vs => .list (.int .uint8) vs
  | .list _ vs => .items (normalizeAll vs)
  | .nilList (.int .uint8) => .nilList (.int .uint8)
  | .nilList _ => .items []
  | .array _ vs => .items (normalizeAll vs)
  | .map k t es => if k.isText then .map .text .any (normalizeEntries es) else .map k t es
  | v => v

-- A value of a declared type goes by its structure; of the texts, only numbers do. No declared
-- type is the type of octet lists.
def normalNamed (t : String) : Value → Value
  | .text s => if t == numberType then normalNumber s else .named t (.text s)
  | .octets bs => if t == numberType then .octets bs else .named t (.octets bs)
  | .int _ n => normalInt n
  | .float _ x => normalFloat x
  | .uuid u => .items (u.octets.map fun b => int64 b.toNat)
  | .list _ vs | .array _ vs => .items (normalizeAll vs)
  | .nilList _ => .items []
  | .map k e es => if k.isText then .map .text .any (normalizeEntries es) else .named t (.map k e es)
  | v => .named t v

def normalizeAll : List Value → List Value
  | [] => []
  | v :: vs => v.normalize :: normalizeAll vs

def normalizeEntries : List (Value × Value) → List (Value × Value)
  | [] => []
  | (k, v) :: es => (k.under, v.normalize) :: normalizeEntries es

end

mutual

-- Equality in depth. No NaN equals anything.
def deepEq : Value → Value → Bool
  | .null, .null => true
  | .bool b, .bool c => b == c
  | .int k m, .int l n => k == l && m == n
  | .float k x, .float l y => k == l && x.same y
  | .text s, .text t => s == t
  | .octets s, .octets t => s == t
  | .named t v, .named u w => t == u && v.deepEq w
  | .time s, .time t => s == t
  | .uuid u, .uuid v => u == v
  | .list t vs, .list u ws => t == u && deepEqAll vs ws
  | .nilList t, .nilList u => t == u
  | .array t vs, .array u ws => t == u && deepEqAll vs ws
  | .map k t es, .map l u fs => k == l && t == u && deepEqEntries es fs
  | .record t fs, .record u gs => t == u && deepEqFields fs gs
  | .pointer v, .pointer w => v.deepEq w
  | .nilPointer t, .nilPointer u => t == u
  | .node t s fs, .node u r gs => t == u && s == r && deepEqFields fs gs
  | _, _ => false

def deepEqAll : List Value → List Value → Bool
  | [], [] => true
  | v :: vs, w :: ws => v.deepEq w && deepEqAll vs ws
  | _, _ => false

def deepEqEntries : List (Value × Value) → List (Value × Value) → Bool
  | [], [] => true
  | (k, v) :: es, (l, w) :: fs => k.deepEq l && v.deepEq w && deepEqEntries es fs
  | _, _ => false

def deepEqFields : List (String × Value) → List (String × Value) → Bool
  | [], [] => true
  | (n, v) :: fs, (m, w) :: gs => n == m && v.deepEq w && deepEqFields fs gs
  | _, _ => false

end

-- Equality of literals: equal canonical forms.
def same (v w : Value) : Bool := v.normalize.deepEq w.normalize

end QueryTree.Value
