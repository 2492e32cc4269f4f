namespace QueryTree.Text.Fnv

def start : UInt64 := 14695981039346656037

def prime : UInt64 := 1099511628211

def octet (state : UInt64) (b : UInt8) : UInt64 := (state ^^^ b.toUInt64) * prime

def octets (state : UInt64) (bs : List UInt8) : UInt64 := bs.foldl octet state

def text (state : UInt64) (s : String) : UInt64 := octets state s.toUTF8.toList

-- The eight octets of a word, the lowest first.
def wordOctets (n : UInt64) : List UInt8 :=
  (List.range 8).map fun i => (n >>> (8 * i).toUInt64).toUInt8

end QueryTree.Text.Fnv
