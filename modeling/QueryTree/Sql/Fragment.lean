import QueryTree.Expr.Build
import QueryTree.Sql.Dialect

namespace QueryTree

inductive FragmentStep where
  | done (sql : Sql)
  | fail (cause : Error)
  | bind (v : Value) (next : Sql → FragmentStep)
  | column (path : String) (next : Sql → FragmentStep)
  | render (e : Expr) (next : Sql → FragmentStep)

-- What a fragment does with its argument.
abbrev Fragment := Dialect → Value → FragmentStep

structure FragmentHandle where
  key : String
  fragment : Fragment

-- Registrations in their order. In a strict registry a key may be taken once; elsewhere the
-- first registration of a key stays and later ones are given its handle.
structure Fragments where
  strict : Bool := false
  handles : List FragmentHandle := []

namespace Fragments

def find? (r : Fragments) (key : String) : Option FragmentHandle :=
  r.handles.find? (·.key == key)

def lookup (r : Fragments) (key : String) : Option Fragment := (r.find? key).map (·.fragment)

def register (r : Fragments) (key : String) (fragment : Option Fragment) :
    Except Error (Fragments × FragmentHandle) := do
  checkIdentifier "fragment" key
  match fragment with
  | none => .error (.noFunction key)
  | some f =>
    match r.find? key with
    | some h =>
      if r.strict then .error (.duplicate ("fragment " ++ key)) else return (r, h)
    | none =>
      let h := ⟨key, f⟩
      return ({ r with handles := r.handles ++ [h] }, h)

def keys (r : Fragments) : List String :=
  (r.handles.map (·.key)).mergeSort fun a b => !(b < a)

end Fragments
end QueryTree
