import QueryTree.Expr.Equal
import QueryTree.Expr.Members
import QueryTree.Value.Convert

namespace QueryTree

-- A function with its type. `run` gives no operand when there is no result.
structure HostFunction where
  params : List Ty
  variadic : Bool := false
  results : List Ty
  run : List Operand → Except EvalError (Option Operand)

namespace HostFunction

def ty (f : HostFunction) : Ty := .func f.params f.variadic f.results

-- The type wanted of the argument at an index. The last parameter may take any number of them.
def paramAt (f : HostFunction) (i : Nat) : Ty :=
  if f.variadic && i + 1 ≥ f.params.length then
    match f.params.getLast? with
    | some (.list t) => t
    | _ => .any
  else f.params.getD i .any

def takes (f : HostFunction) (count : Nat) : Bool :=
  if f.variadic then f.params.length ≤ count + 1 else count == f.params.length

end HostFunction

inductive Host where
  | value (v : Value)
  | expr (e : Expr)
  | func (f : HostFunction)

instance : Inhabited Host := ⟨.value .null⟩

-- A method of a declared type. One on pointers takes what the pointer points to.
structure Method where
  type : String
  name : String
  onPointer : Bool := false
  params : List Ty := []
  results : List Ty
  run : Value → List Operand → Except EvalError (Option Operand)

-- The types and methods that lambdas meet, and the time it is.
structure World where
  types : Types := Types.standard
  methods : List Method := []
  clock : Time := default

-- The method of a declared type by name. Only pointers have those on pointers.
def World.methodOf? (world : World) (t : Option Ty) (name : String) (onPointer : Bool) :
    Option Method :=
  match t with
  | some (.named n _) => world.methods.find? fun m =>
      m.type == n && m.name == name && (onPointer || !m.onPointer)
  | _ => none

namespace Method

def boundTo (m : Method) (receiver : Value) : HostFunction :=
  { params := m.params, results := m.results, run := m.run receiver }

-- The method of a pointer to nothing breaks off when it is called.
def unbound (m : Method) : HostFunction :=
  { params := m.params, results := m.results, run := fun _ => .error (.aborted none) }

end Method

namespace Host

def null : Host := .value .null

def isNull : Host → Bool
  | .value v => v.isNull
  | _ => false

def exprTy (e : Expr) : Ty := .pointer (.named ("types." ++ e.kindName))

def ty? : Host → Option Ty
  | .value v => v.ty?
  | .expr e => some (exprTy e)
  | .func f => some f.ty

def typeName (h : Host) : String := (h.ty?.map Ty.describe).getD "<nil>"

def ofOperand : Operand → Host
  | .value v => .value v
  | .expr e => .expr e

-- Equality of host values: values by their canonical forms, functions never.
def same : Host → Host → Bool
  | .value v, .value w => v.same w
  | .expr d, .expr e => d.same e
  | _, _ => false

def isZero : Host → Bool
  | .value v => v.isZero
  | _ => false

-- A host value where a type is wanted.
def assign (world : World) (h : Host) (t : Ty) : Except EvalError Operand :=
  match h with
  | .value v =>
    match v.assign? world.types t with
    | some w => .ok (.value w)
    | none => .error (.cannotUse h.typeName t.describe)
  | .expr e => if t == .any then .ok (.expr e) else .error (.cannotUse h.typeName t.describe)
  | .func _ => .error (.cannotUse h.typeName t.describe)

-- The method of a value by name. Pointers have the methods of what they point to as well.
def method? (world : World) (v : Value) (name : String) : Option HostFunction :=
  match v with
  | .pointer w => (world.methodOf? w.ty? name true).map (·.boundTo w)
  | .nilPointer t => (world.methodOf? (some t) name true).map (·.unbound)
  | v => (world.methodOf? v.ty? name false).map (·.boundTo v)

def textFunction (s : String) : HostFunction :=
  { params := [], results := [.text], run := fun _ => .ok (some (.value (.text s))) }

def exprFunction (params : List Ty) (variadic : Bool) (f : List Operand → Option Expr) :
    HostFunction :=
  { params, variadic, results := [.named "types.Expr"],
    run := fun args =>
      match f args with
      | some e => .ok (some (.expr e))
      | none => .error (.aborted none) }

-- A method that makes an expression of its receiver and one argument.
def exprFunction1 (f : Operand → Expr) : HostFunction :=
  exprFunction [.any] false fun
    | [a] => some (f a)
    | _ => none

-- Methods of a property other than comparisons and matches.
def propertyMethod? (p : Expr) : String → Option HostFunction
  | "In" => some (exprFunction [.list .any] true fun args => some (p.isIn args))
  | "NotIn" => some (exprFunction [.list .any] true fun args => some (p.notIn args))
  | "IsNull" => some (exprFunction [] false fun _ => some (.compare .equal p .null))
  | "IsNotNull" => some (exprFunction [] false fun _ => some (.compare .notEqual p .null))
  | "Between" => some (exprFunction [.any, .any] false fun
    | [a, b] => some (p.between a b)
    | _ => none)
  | "Plus" => some (exprFunction1 (Expr.computeWith .add (.expr p)))
  | "Minus" => some (exprFunction1 (Expr.computeWith .subtract (.expr p)))
  | "Concat" => some (exprFunction1 (Expr.computeWith .concatenate (.expr p)))
  | _ => none

-- Methods of an expression: its text, comparisons, and what properties have besides.
def exprMethod? (e : Expr) (name : String) : Option HostFunction :=
  if name == "String" then some (textFunction e.display)
  else match LogicOp.comparisonMethod? name with
    | some op => if e.isComparable then some (exprFunction1 (Expr.compareWith op e)) else none
    | none =>
      match e with
      | .property owner n =>
        if name == "Path" then some (textFunction (Expr.path owner n))
        else match LogicOp.patternMethod? name with
          | some op => some (exprFunction1 (Expr.compareWith op e))
          | none => propertyMethod? e name
      | _ => none

-- What a value is behind its pointers; a pointer to nothing has its type.
def behind : Value → Except Ty Value
  | .pointer v => behind v
  | .nilPointer t => .error (.pointer t)
  | v => .ok v

def memberOf (v : Value) (name : String) : Except EvalError Value :=
  match v with
  | .record type fields =>
    match fields.lookup name with
    | some w => if Types.isExported name then .ok w else .error (.noExportedMember type name)
    | none => .error (.noExportedMember type name)
  | .time _ => .error (.noExportedMember v.typeName name)
  | .map .text _ entries =>
    match entries.find? fun (k, _) => k.deepEq (.text name) with
    | some (_, w) => .ok w
    | none => .error (.noMember v.typeName name)
  | v => .error (.noMember v.typeName name)

def member (world : World) (h : Host) (name : String) : Except EvalError Host :=
  match h with
  | .value .null => .error (.memberOfNil name)
  | .value v =>
    match method? world v name with
    | some f => .ok (.func f)
    | none =>
      match behind v with
      | .error t => .error (.memberOfNilPointer name t.describe)
      | .ok w => (memberOf w name).map .value
  | .expr e =>
    match exprMethod? e name, e, name with
    | some f, _, _ => .ok (.func f)
    | none, .property owner _, "Alias" => .ok (.value (.text owner))
    | none, .property _ n, "Name" => .ok (.value (.text n))
    | none, e, name => .error (.noExportedMember ("types." ++ e.kindName) name)
  | .func f => .error (.noMember f.ty.describe name)

end Host
end QueryTree
