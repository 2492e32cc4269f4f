import QueryTree.Number.Kind
import QueryTree.Text.Quoted

namespace QueryTree

-- A member of a record type. The tag names its column.
structure Field (α : Type) where
  name : String
  type : α
  tag : Option String := none
  embedded : Bool := false
deriving Inhabited

-- The values of a declared type marked `text` are texts under another name.
inductive Ty where
  | any
  | bool
  | text
  | int (kind : IntKind)
  | float (kind : FloatKind)
  | named (name : String) (text : Bool := false)
  | list (elem : Ty)
  | array (size : Nat) (elem : Ty)
  | map (key elem : Ty)
  | pointer (target : Ty)
  | record (fields : List (Field Ty))
  | func (params : List Ty) (variadic : Bool) (results : List Ty)
  | channel (elem : Ty)
deriving Inhabited

namespace Ty

abbrev byte : Ty := .int .uint8

mutual

def same : Ty → Ty → Bool
  | .any, .any | .bool, .bool | .text, .text => true
  | .int k, .int l => k == l
  | .float k, .float l => k == l
  | .named n a, .named m b => n == m && a == b
  | .list t, .list u => t.same u
  | .array n t, .array m u => n == m && t.same u
  | .map k t, .map l u => k.same l && t.same u
  | .pointer t, .pointer u => t.same u
  | .record fs, .record gs => sameFields fs gs
  | .func ps v rs, .func qs w ss => sameAll ps qs && v == w && sameAll rs ss
  | .channel t, .channel u => t.same u
  | _, _ => false

def sameAll : List Ty → List Ty → Bool
  | [], [] => true
  | t :: ts, u :: us => t.same u && sameAll ts us
  | _, _ => false

def sameFields : List (Field Ty) → List (Field Ty) → Bool
  | [], [] => true
  | ⟨n, t, a, e⟩ :: fs, ⟨m, u, b, f⟩ :: gs =>
    n == m && t.same u && a == b && e == f && sameFields fs gs
  | _, _ => false

end

instance : BEq Ty := ⟨same⟩

mutual

def describe : Ty → String
  | .any => "interface \x7b\x7d"
  | .bool => "bool"
  | .text => "string"
  | .int k => k.name
  | .float k => k.name
  | .named n _ => n
  | .list t => "[]" ++ t.describe
  | .array n t => "[" ++ toString n ++ "]" ++ t.describe
  | .map k t => "map[" ++ k.describe ++ "]" ++ t.describe
  | .pointer t => "*" ++ t.describe
  | .record [] => "struct \x7b\x7d"
  | .record fs => "struct \x7b " ++ "; ".intercalate (describeFields fs) ++ " \x7d"
  | .func ps v rs =>
    "func(" ++ ", ".intercalate (describeParams v ps) ++ ")" ++
      (match describeAll rs with
        | [] => ""
        | [r] => " " ++ r
        | rs => " (" ++ ", ".intercalate rs ++ ")")
  | .channel t => "chan " ++ t.describe

def describeAll : List Ty → List String
  | [] => []
  | t :: ts => t.describe :: describeAll ts

-- The last parameter of a variadic function is written by its items.
def describeParams (variadic : Bool) : List Ty → List String
  | [] => []
  | [.list t] => if variadic then ["..." ++ t.describe] else ["[]" ++ t.describe]
  | t :: ts => t.describe :: describeParams variadic ts

def describeFields : List (Field Ty) → List String
  | [] => []
  | ⟨n, t, tag, _⟩ :: fs =>
    (n ++ " " ++ t.describe ++
      (match tag with
        | some c => " " ++ Text.quote ("db:" ++ Text.quote c)
        | none => "")) :: describeFields fs

end

def isText : Ty → Bool
  | .text | .named _ true => true
  | _ => false

def indirect : Ty → Ty
  | .pointer t => t.indirect
  | t => t

end Ty
end QueryTree
