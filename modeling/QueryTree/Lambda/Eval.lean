import QueryTree.Lambda.Constant
import QueryTree.Lambda.Library
import QueryTree.Lambda.Scope

namespace QueryTree.Lambda

structure Result where
  value : Host
  constant : Bool := false

namespace Literal

def toValue (text : String) : Literal → Except EvalError Value
  | .int n => if Constant.isInt64 n then .ok (.int .int n) else .error (.integerOverflow text)
  | .float x => .ok (.float64 x)
  | .imaginary => .error (.unsupportedLiteral text)
  | .char n => .ok (.int .int32 n)
  | .text s => .ok (.text s)
  | .octets bs => .ok (.octets bs)

end Literal

namespace Scope

def evalIdent (sc : Scope) (name : String) : Except EvalError Result :=
  match name with
  | "true" => .ok ⟨.value (.bool true), true⟩
  | "false" => .ok ⟨.value (.bool false), true⟩
  | "nil" => .ok ⟨.null, true⟩
  | name =>
    match (sc.env.lookup name).or (sc.funcs.lookup name) with
    | some h => .ok ⟨h, false⟩
    | none => .error (.undefined name)

-- A function of a package. Those that the host adds come before the ones always there.
def packageMember? (sc : Scope) (x : Node) (name : String) : Option Host :=
  match x with
  | .ident _ pkg =>
    if sc.isBound pkg then none
    else
      let full := pkg ++ "." ++ name
      (sc.funcs.lookup full).or (((functions sc.world.clock).lookup full).map .func)
  | _ => none

def length (h : Host) : Except EvalError Nat :=
  match h with
  | .value v =>
    match v.under with
    | .text s => .ok s.utf8ByteSize
    | .octets bs => .ok bs.length
    | .map _ _ es => .ok es.length
    | .channel _ => .ok 0
    | w =>
      match w.items? with
      | some vs => .ok vs.length
      | none => .error (.lengthOf h.typeName)
  | h => .error (.lengthOf h.typeName)

-- A result converted to a basic type; every value is of the type `any` already.
def converted (sc : Scope) (r : Result) (t : Ty) : Except EvalError Result :=
  if t == .any then .ok r
  else match r.value with
    | .value v =>
      match v.convert? sc.world.types t with
      | some w => .ok ⟨.value w, r.constant⟩
      | none => .error (.cannotConvert r.value.typeName t.describe)
    | h => .error (.cannotConvert h.typeName t.describe)

def addressOf (h : Host) : Except EvalError Host :=
  match h with
  | .value .null => .error .addressOfNil
  | .value v => .ok (.value (.pointer v))
  | h => .ok h

def dereference (h : Host) : Except EvalError Host :=
  match h with
  | .value (.pointer v) => .ok (.value v)
  | h => .error (.dereference h.typeName)

def prefixResult (op : PrefixOp) (r : Result) : Except EvalError Result :=
  if op == .address then (addressOf r.value).map (⟨·, false⟩)
  else
    let type := r.value.typeName
    match r.value with
    | .value v =>
      match Constant.ofValue? v with
      | some (x, cls) => do return ⟨.value (← Constant.prefixValue op type x cls), r.constant⟩
      | none => .error (.operator op.symbol type)
    | _ => .error (.operator op.symbol type)

def constant? : Host → Option (Constant × Class)
  | .value v => Constant.ofValue? v
  | _ => none

-- Equality that is not one of constants: instants by the moment, all else by canonical form.
def sameHost : Host → Host → Bool
  | .value (.time s), .value (.time t) => s.sameInstant t
  | g, h => g.same h

def infixResult (op : InfixOp) (l r : Result) : Except EvalError Result := do
  let const := l.constant && r.constant
  match constant? l.value, constant? r.value with
  | some (x, c), some (y, d) =>
    if Class.combines c d then
      return ⟨.value (← Constant.infixValue op l.value.typeName x c y d), const⟩
    else throw (.mismatched l.value.typeName r.value.typeName)
  | some _, none => throw (.operator op.symbol r.value.typeName)
  | none, _ =>
    if op == .eq || op == .ne then
      return ⟨.value (.bool (sameHost l.value r.value == (op == .eq))), const⟩
    else throw (.operator op.symbol l.value.typeName)

-- Whether the left operand alone decides.
def decides (op : InfixOp) (l : Result) : Bool :=
  match l.value with
  | .value (.bool b) => (op == .both && !b) || (op == .either && b)
  | _ => false

-- The item of a list, an octet of a text, or the entry of a map.
def itemAt (sc : Scope) (base key : Host) : Except EvalError Host :=
  let nth (items : List Value) : Except EvalError Host :=
    match key with
    | .value (.int .int i) =>
      if i < 0 then .error (.indexRange i items.length)
      else match items[i.toNat]? with
        | some v => .ok (.value v)
        | none => .error (.indexRange i items.length)
    | key => .error (.indexType key.typeName)
  match base with
  | .value v =>
    match v.under with
    | .map kt et entries => do
      match ← key.assign sc.world kt with
      | .value k =>
        match entries.find? fun (k', _) => k'.deepEq k with
        | some (_, w) => return .value w
        | none => return .value (Value.zeroOf sc.world.types et)
      | .expr _ => return .value (Value.zeroOf sc.world.types et)
    | w =>
      match w.textOctets?, w.items? with
      | some bs, _ => nth (bs.map fun b => .int .uint8 b.toNat)
      | none, some vs => nth vs
      | none, none => .error (.cannotIndex base.typeName)
  | base => .error (.cannotIndex base.typeName)

-- The type of the items of a composite list: a basic type by its name, or any.
def itemType : Node → Ty
  | .ident _ n => (basicType? n).getD .any
  | _ => .any

def plainItem : Operand → Except EvalError Value
  | .value v => .ok v
  | .expr e => .error (.cannotUse (Host.exprTy e).describe Ty.any.describe)

-- Calls that are not calls of a host function.
inductive SpecialCall where
  | length
  | conversion (t : Ty)
  | firstNonZero

def specialCall? : Node → Option SpecialCall
  | .ident _ "len" => some .length
  | .ident _ n => (basicType? n).map .conversion
  | .selector _ (.ident _ "cmp") "Or" => some .firstNonZero
  | _ => none

def asFunction (sc : Scope) (fn : Node) (count : Nat) (h : Host) : Except EvalError HostFunction :=
  match h with
  | .func f =>
    if f.takes count then .ok f else .error (.arity (sc.text fn) f.params.length count)
  | _ => .error (.notFunction (sc.text fn))

def assignArg (sc : Scope) (fn : Node) (f : HostFunction) (i : Nat) (h : Host) :
    Except EvalError Operand :=
  match h.assign sc.world (f.paramAt i) with
  | .ok a => .ok a
  | .error e => .error (.argument i (sc.text fn) e)

def finish (sc : Scope) (fn : Node) (f : HostFunction) (args : List Operand) :
    Except EvalError Result := do
  match ← f.run args with
  | some out => return ⟨Host.ofOperand out, false⟩
  | none => throw (.noResult (sc.text fn))

mutual

-- Evaluates a node. `enclosed` tells whether it stands in parentheses, which messages name.
def eval (sc : Scope) (enclosed : Bool) : Node → Except EvalError Result
  | .paren _ x => sc.eval true x
  | .literal s v => do
    return ⟨.value (← v.toValue (sc.text (.literal s v))), true⟩
  | .ident _ n => sc.evalIdent n
  | .selector _ x name =>
    match sc.packageMember? x name with
    | some h => .ok ⟨h, false⟩
    | none => do
      let r ← sc.eval false x
      return ⟨← r.value.member sc.world name, false⟩
  | .call _ fn args =>
    match specialCall? fn, args with
    | some .length, [a] => do
      let r ← sc.eval false a
      return ⟨.value (.int .int (← length r.value)), r.constant⟩
    | some .length, _ => .error .lengthArity
    | some (.conversion t), [a] => do sc.converted (← sc.eval false a) t
    | some (.conversion t), _ => .error (.conversionArity t.describe)
    | some .firstNonZero, args => sc.evalFirst ⟨.null, false⟩ args
    | none, args => do
      let r ← sc.eval false fn
      let f ← sc.asFunction fn args.length r.value
      sc.finish fn f (← sc.evalArgs fn f 0 args)
  | .prefixed _ op x => do prefixResult op (← sc.eval false x)
  | .infixed _ op x y => do
    let l ← sc.eval false x
    if decides op l then return l
    infixResult op l (← sc.eval false y)
  | .index _ x key => do
    let base ← sc.eval false x
    let key ← sc.eval false key
    return ⟨← sc.itemAt base.value key.value, false⟩
  | .star _ x => do
    let r ← sc.eval false x
    return ⟨← dereference r.value, false⟩
  | .composite s (some (.arrayType t size elem)) items => do
    let ty := itemType elem
    let values ← sc.evalItems (.composite s (some (.arrayType t size elem)) items) ty items
    return ⟨.value (.list ty values), false⟩
  | .composite s type items => .error (.composite (sc.text (.composite s type items)))
  | n => .error (.unsupportedSyntax (if enclosed then "*ast.ParenExpr" else n.kindName))

-- The first argument that is not zero, else the last one.
def evalFirst (sc : Scope) (last : Result) : List Node → Except EvalError Result
  | [] => .ok last
  | a :: rest => do
    let r ← sc.eval false a
    if r.value.isZero then sc.evalFirst r rest else return r

def evalArgs (sc : Scope) (fn : Node) (f : HostFunction) (i : Nat) :
    List Node → Except EvalError (List Operand)
  | [] => .ok []
  | a :: rest => do
    let r ← sc.eval false a
    let v ← sc.assignArg fn f i r.value
    return v :: (← sc.evalArgs fn f (i + 1) rest)

-- The items of the composite list `whole`.
def evalItems (sc : Scope) (whole : Node) (ty : Ty) : List Node → Except EvalError (List Value)
  | [] => .ok []
  | .pair .. :: _ => .error (.keyedItems (sc.text whole))
  | a :: rest => do
    let r ← sc.eval false a
    let v ← plainItem (← r.value.assign sc.world ty)
    return v :: (← sc.evalItems whole ty rest)

end

def evalFailure (sc : Scope) (n : Node) : EvalError → Error
  | .aborted text => .aborted text
  | cause => .evaluation (sc.text n) cause

def evalResult (sc : Scope) (n : Node) : Except Error Result :=
  match sc.eval false n with
  | .ok r => .ok r
  | .error e => .error (sc.evalFailure n e)

-- A part without a row as a literal. Constant booleans and numbers stay constant.
def fold (sc : Scope) (n : Node) : Except Error Expr := do
  let r ← sc.evalResult n
  match r.value with
  | .expr e => return e
  | .value .null => return .null
  | .value v => return .value v (r.constant && v.isPrimitive)
  | .func _ => throw (.unsupported (sc.text n) "a function is not a value")

def isZero (sc : Scope) (n : Node) : Except Error Bool :=
  if sc.depends n then .ok false
  else match sc.eval false n with
    | .error (.aborted text) => .error (.aborted text)
    | .error _ => .ok false
    | .ok r => .ok ((constant? r.value).any fun (c, _) => c.isZero)

end Scope
end QueryTree.Lambda
