namespace QueryTree.Text

inductive Unit8 where
  | char (c : Char)
  | stray (octet : UInt8)
deriving DecidableEq, Inhabited

def replacement : Char := Char.ofNat 0xfffd

def Unit8.char? : Unit8 → Option Char
  | .char c => some c
  | .stray _ => none

def Unit8.shown : Unit8 → Char
  | .char c => c
  | .stray _ => replacement

namespace Utf8

def isTail (b : UInt8) : Bool := 0x80 ≤ b && b ≤ 0xbf

-- The second octet of a longer sequence has a narrower range after some first octets.
def isSecond (a b : UInt8) : Bool :=
  if a == 0xe0 then 0xa0 ≤ b && b ≤ 0xbf
  else if a == 0xed then 0x80 ≤ b && b ≤ 0x9f
  else if a == 0xf0 then 0x90 ≤ b && b ≤ 0xbf
  else if a == 0xf4 then 0x80 ≤ b && b ≤ 0x8f
  else isTail b

def low (b : UInt8) : Nat := b.toNat % 64

-- The first unit of a nonempty octet list and the number of octets it takes.
def first (a : UInt8) (rest : List UInt8) : Unit8 × Nat :=
  if a < 0x80 then (.char (Char.ofNat a.toNat), 1)
  else if 0xc2 ≤ a && a ≤ 0xdf then
    match rest with
    | b :: _ => if isTail b then (.char (Char.ofNat (a.toNat % 32 * 64 + low b)), 2) else (.stray a, 1)
    | _ => (.stray a, 1)
  else if 0xe0 ≤ a && a ≤ 0xef then
    match rest with
    | b :: c :: _ =>
      if isSecond a b && isTail c then
        (.char (Char.ofNat ((a.toNat % 16 * 64 + low b) * 64 + low c)), 3)
      else (.stray a, 1)
    | _ => (.stray a, 1)
  else if 0xf0 ≤ a && a ≤ 0xf4 then
    match rest with
    | b :: c :: d :: _ =>
      if isSecond a b && isTail c && isTail d then
        (.char (Char.ofNat (((a.toNat % 8 * 64 + low b) * 64 + low c) * 64 + low d)), 4)
      else (.stray a, 1)
    | _ => (.stray a, 1)
  else (.stray a, 1)

-- Reads all units; each takes at least one octet.
def units : List UInt8 → List Unit8
  | [] => []
  | a :: rest =>
    let (u, n) := first a rest
    u :: units (rest.drop (n - 1))
termination_by bs => bs.length
decreasing_by simp only [List.length_drop, List.length_cons]; omega

-- The text of an octet list without strays.
def decode? (bs : List UInt8) : Option String :=
  ((units bs).mapM Unit8.char?).map String.ofList

-- The text of any octet list, each stray shown as the replacement character.
def decode (bs : List UInt8) : String :=
  String.ofList ((units bs).map Unit8.shown)

def encode (s : String) : List UInt8 := s.toUTF8.toList

end Utf8
end QueryTree.Text
