import QueryTree.Expr.Pipeline
import QueryTree.Text.Fnv
import QueryTree.Value.Literal
import QueryTree.Value.Normal

namespace QueryTree

namespace Expr

open Text (Fnv.text Fnv.octets Fnv.wordOctets Fnv.start)

def hashTag (h : UInt64) (tag : String) (n : UInt64) : UInt64 :=
  Fnv.octets (Fnv.text h tag) (Fnv.wordOctets n)

def hashText (h : UInt64) (s : String) : UInt64 :=
  Fnv.text (hashTag h "s" s.utf8ByteSize.toUInt64) s

def hashTexts (h : UInt64) (ss : List String) : UInt64 := ss.foldl hashText h

def bit (b : Bool) : UInt64 := if b then 1 else 0

def word (n : Int) : UInt64 := (n % (Nat.pow 2 64 : Nat)).toNat.toUInt64

def hashLiteral (h : UInt64) (v : Value) : UInt64 := Fnv.text h v.normalize.literal

def hashValue (h : UInt64) (v : Value) (const : Bool) : UInt64 :=
  match v with
  | .null => hashTag h "null" 0
  | v => hashLiteral (hashTag h "value" (bit const)) v

-- Absorbs the distinct hashes in ascending order.
def hashMembers (h : UInt64) (sums : List UInt64) : UInt64 :=
  (sums.eraseDups.mergeSort (· ≤ ·)).foldl (hashTag · "m" ·) h

mutual

def hashInto (h : UInt64) : Expr → UInt64
  | .value v const => hashValue h v const
  | .property owner name => hashText (hashText (hashTag h "prop" 0) owner) name
  | .unary op x => x.hashInto (hashTag h "unary" op.code.toUInt64)
  | .compare op l r => r.hashInto (l.hashInto (hashTag h "lbin" op.code.toUInt64))
  | .compute op l r => r.hashInto (l.hashInto (hashTag h "vbin" op.code.toUInt64))
  | .call name args =>
    hashAll (hashText (hashTag h "func" args.length.toUInt64) name) args
  | .aggregate name arg distinct =>
    hashOption (hashText (hashTag h "agg" (bit distinct)) name) arg
  | .set kind items =>
    let h := hashTag h "set" kind.code.toUInt64
    if kind.isLogical then hashMembers h (hashes items) else hashAll h items
  | .related relation label inner tableArgs =>
    let h := hashTag h "foreign" tableArgs.length.toUInt64
    hashOption (hashTexts (hashText (hashText h relation) label) tableArgs) inner
  | .fragment key arg => hashLiteral (hashText (hashTag h "sql" 0) key) arg
  | .query q => hashQuery h q

def hashAll (h : UInt64) : List Expr → UInt64
  | [] => h
  | e :: es => hashAll (e.hashInto h) es

-- The hash of each expression on its own.
def hashes : List Expr → List UInt64
  | [] => []
  | e :: es => e.hashInto Fnv.start :: hashes es

def hashOption (h : UInt64) : Option Expr → UInt64
  | none => hashTag h "nil" 0
  | some e => e.hashInto h

def hashQuery (h : UInt64) : Query → UInt64
  | .rows object => hashText (hashTag h "from" 0) object
  | .filter q p => p.hashInto (hashQuery (hashTag h "where" 0) q)
  | .group q keys => hashAll (hashQuery (hashTag h "groupby" keys.length.toUInt64) q) keys
  | .having q p => p.hashInto (hashQuery (hashTag h "having" 0) q)
  | .order q keys => hashKeys (hashQuery (hashTag h "orderby" keys.length.toUInt64) q) keys
  | .window q offset limit =>
    hashQuery (hashTag (hashTag h "section" (word offset)) "take" (word limit)) q
  | .select q columns =>
    hashColumns (hashQuery (hashTag h "select" columns.length.toUInt64) q) columns

def hashKeys (h : UInt64) : List (SortKey Expr) → UInt64
  | [] => h
  | ⟨e, asc⟩ :: ks => hashKeys (e.hashInto (hashTag h "key" (bit asc))) ks

def hashColumns (h : UInt64) : List (Column Expr) → UInt64
  | [] => h
  | ⟨e, label⟩ :: cs => hashColumns (e.hashInto (hashText h label)) cs

end

def hash (e : Expr) : UInt64 := e.hashInto Fnv.start

end Expr
end QueryTree
