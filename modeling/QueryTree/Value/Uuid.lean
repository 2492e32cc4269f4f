import QueryTree.Number.Reader
import QueryTree.Text.Quoted

namespace QueryTree

structure Uuid where
  octets : List UInt8
deriving DecidableEq, Inhabited

namespace Uuid

def hexText (bs : List UInt8) : String := String.join (bs.map fun b => Text.hex 2 b.toNat)

def text (u : Uuid) : String :=
  let o := u.octets
  "-".intercalate
    [hexText (o.take 4), hexText ((o.drop 4).take 2), hexText ((o.drop 6).take 2),
      hexText ((o.drop 8).take 2), hexText (o.drop 10)]

-- Pairs of hexadecimal digits as octets.
def readHex? : List Char → Option (List UInt8)
  | [] => some []
  | a :: b :: rest => do
    let n ← Number.readDigits? 16 [a, b]
    let more ← readHex? rest
    some (n.toUInt8 :: more)
  | _ => none

def read? (s : String) : Option Uuid := do
  let bs ← readHex? (s.toList.filter (· != '-'))
  if bs.length == 16 then some ⟨bs⟩ else none

def versionType : String := "uuid.Version"

def variantType : String := "uuid.Variant"

def variantNames : List String := ["Invalid", "RFC4122", "Reserved", "Microsoft", "Future"]

-- How the identifier was made.
def version (u : Uuid) : Nat := (u.octets.getD 6 0).toNat / 16

-- Which layout it has, as a place in `variantNames`.
def variant (u : Uuid) : Nat :=
  let n := (u.octets.getD 8 0).toNat
  if n / 64 == 2 then 1 else if n / 32 == 6 then 3 else if n / 32 == 7 then 4 else 2

end Uuid
end QueryTree
