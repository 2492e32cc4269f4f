import QueryTree.Value.Types

namespace QueryTree

namespace Value

-- The first instant of the calendar.
def zeroTime : Value := .time { seconds := -62135596800, nanos := 0 }

def zeroUuid : Value := .uuid ⟨List.replicate 16 0⟩

-- The value of a type that nothing was assigned to, records to a depth.
def zeroAt (ts : Types) : Nat → Ty → Value
  | _, .any => .null
  | _, .bool => .bool false
  | _, .text => .text ""
  | _, .int k => .int k 0
  | _, .float k => .float k .zero
  | _, .list t => .nilList t
  | _, .map k t => .map k t []
  | _, .pointer t => .nilPointer t
  | 0, _ => .null
  | n + 1, .array size t => .array t (List.replicate size (zeroAt ts n t))
  | n + 1, .record fields => .record "" (fields.map fun f => (f.name, zeroAt ts n f.type))
  | n + 1, .named name b =>
    if Ty.named name b == Types.timeType then zeroTime
    else if Ty.named name b == Types.uuidType then zeroUuid
    else match ts.under (.named name b) with
      | .record fields => .record name (fields.map fun f => (f.name, zeroAt ts n f.type))
      | .named .. => .null
      | t => .named name (zeroAt ts n t)
  | _, _ => .null

def zeroOf (ts : Types) (t : Ty) : Value := zeroAt ts 16 t

mutual

def isZero : Value → Bool
  | .null | .nilPointer _ | .nilList _ => true
  | .bool b => !b
  | .int _ n => n == 0
  | .float _ x => x.isZero
  | .text s => s.isEmpty
  | .octets bs => bs.isEmpty
  | .named _ v => v.isZero
  | .time t => t.seconds == -62135596800 && t.nanos == 0 && t.zone == .utc
  | .uuid u => u.octets.all (· == 0)
  | .list .. | .map .. | .pointer _ | .channel _ | .node .. => false
  | .array _ vs => areZero vs
  | .record _ fs => fieldsAreZero fs

def areZero : List Value → Bool
  | [] => true
  | v :: vs => v.isZero && areZero vs

def fieldsAreZero : List (String × Value) → Bool
  | [] => true
  | (_, v) :: fs => v.isZero && fieldsAreZero fs

end

def textOctets? (v : Value) : Option (List UInt8) :=
  match v.under with
  | .text s => some (Text.Utf8.encode s)
  | .octets bs => some bs
  | _ => none

-- The text of one code point; what is no code point becomes the replacement character.
def codeText (n : Int) : String :=
  if 0 ≤ n && n ≤ 0x10ffff && !(0xd800 ≤ n && n < 0xe000) then (Char.ofNat n.toNat).toString
  else Text.replacement.toString

-- The integer part of a number, cut to 64 bits. Out of range it is the least integer.
def truncated (signed : Bool) (x : Binary) : Int :=
  match x.truncate? with
  | some n =>
    if -9223372036854775808 ≤ n && n ≤ 9223372036854775807 then n
    else if !signed && 0 ≤ n && n ≤ 18446744073709551615 then n
    else -9223372036854775808
  | none => -9223372036854775808

def toFloat (k : FloatKind) (x : Binary) : Value :=
  .float k (match k with
    | .float32 => x.narrow
    | .float64 => x)

-- A value in the structure of a type that is not a declared one.
def reshape? (v : Value) (t : Ty) : Option Value :=
  match v.under, t with
  | .int _ n, .int k => some (.int k (k.wrap n))
  | .int _ n, .float k => some (toFloat k (.ofInt n))
  | .int _ n, .text => some (.text (codeText n))
  | .float _ x, .int k => some (.int k (k.wrap (truncated k.signed x)))
  | .float _ x, .float k => some (toFloat k x)
  | .bool b, .bool => some (.bool b)
  | .text s, .text => some (.text s)
  | .octets bs, .text => some (.octets bs)
  | .list (.int .uint8) vs, .text => some (.ofOctets (octetItems vs))
  | .nilList (.int .uint8), .text | .nilList (.int .int32), .text => some (.text "")
  | .list (.int .int32) vs, .text =>
    some (.text (String.join (vs.map fun
      | .int _ n => codeText n
      | _ => "")))
  | .text s, .list (.int .uint8) =>
    some (.list .byte ((Text.Utf8.encode s).map fun b => .int .uint8 b.toNat))
  | .octets bs, .list (.int .uint8) => some (.list .byte (bs.map fun b => .int .uint8 b.toNat))
  | .text s, .list (.int .int32) =>
    some (.list (.int .int32) (s.toList.map fun c => .int .int32 c.toNat))
  | w, t => if w.ty? == some t then some w else none

def convert? (ts : Types) (v : Value) (t : Ty) : Option Value :=
  if v.isNull then none
  else if v.ty? == some t || t == .any then some v
  else match t with
    | .named n _ => (v.reshape? (ts.under t)).map (.named n)
    | t => v.reshape? t

-- Hands a value over where a type is wanted. Null is the zero of every type, and numbers are
-- not taken for texts.
def assign? (ts : Types) (v : Value) (t : Ty) : Option Value :=
  if v.isNull then some (zeroOf ts t)
  else if v.ty? == some t || t == .any then some v
  else if ts.under t == .text && v.textOctets?.isNone then none
  else convert? ts v t

end Value
end QueryTree
