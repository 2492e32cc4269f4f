namespace QueryTree

-- A text whose octets are not UTF-8 is kept by its octets.
inductive Json where
  | null
  | bool (b : Bool)
  | number (text : String)
  | string (s : String)
  | octets (bs : List UInt8)
  | array (items : List Json)
  | object (members : List (String × Json))
deriving Inhabited

namespace Json

-- The last member of a name; later members replace earlier ones.
def last? (members : List (String × Json)) (name : String) : Option Json :=
  match members with
  | [] => none
  | (n, v) :: rest =>
    match last? rest name with
    | some w => some w
    | none => if n == name then some v else none

def isNull : Json → Bool
  | .null => true
  | _ => false

def text? : Json → Option String
  | .string s => some s
  | _ => none

def ofInt (n : Int) : Json := .number (toString n)

-- Members in ascending order of their names.
def sorted (members : List (String × Json)) : List (String × Json) :=
  members.mergeSort fun a b => !(b.1 < a.1)

end Json
end QueryTree
