import QueryTree.Lambda.Eval

namespace QueryTree.Lambda.Scope

-- An expression built under a checked name; a name that is refused is a reason.
def checked (sc : Scope) (n : Node) (r : Except Error Expr) : Except Error Expr :=
  match r with
  | .ok e => .ok e
  | .error e => sc.unsupported n e.message

-- The property at a path. Rows other than the innermost one are named.
def property (sc : Scope) (n : Node) (depth : Nat) (frame : Frame) (path : List String) :
    Except Error Expr :=
  let name := ".".intercalate path
  sc.checked n (Expr.ofPath (if depth == 0 then name else frame.name ++ "." ++ name))

def rowName : Option Ty → String
  | none => "row"
  | some t => t.indirect.describe

-- Members of a column, by their handlers.
def columnMembers (sc : Scope) (n : Node) (e : Expr) (leaf : Option Ty) :
    List String → Except Error Expr
  | [] => .ok e
  | name :: rest =>
    match sc.handlers.member? leaf name with
    | none => sc.unsupported n ("no member handler for " ++ name)
    | some h => do sc.columnMembers n (← h e) none rest

-- Members from a row down to a column. In a row without a type the last member may have a handler.
def rowMembers (sc : Scope) (n : Node) (depth : Nat) (frame : Frame) (row : Option Ty)
    (path : List String) : List String → Except Error Expr
  | [] => sc.property n depth frame path
  | name :: rest =>
    match (if row.isNone && !path.isEmpty && rest.isEmpty then
        sc.handlers.member? none name else none) with
    | some h => do h (← sc.property n depth frame path)
    | none =>
      match sc.world.types.column? row name with
      | none => .error (.unknownProperty (rowName row) name)
      | some (column, type) =>
        let path := path ++ [column]
        if rest.isEmpty || sc.world.types.isLeaf type then do
          sc.columnMembers n (← sc.property n depth frame path) (type.map Ty.indirect) rest
        else sc.rowMembers n depth frame type path rest

def selection (sc : Scope) (n : Node) : Except Error Expr :=
  match sc.rowChain? n with
  | none => sc.unsupported n "member access on a computed value"
  | some (depth, frame, names) => sc.rowMembers n depth frame frame.row [] names

def chainType (sc : Scope) (row : Option Ty) : List String → Option Ty
  | [] => row
  | name :: rest =>
    match sc.world.types.column? row name with
    | some (_, some t) => sc.chainType (some t) rest
    | _ => none

def textCallType? (name : String) : Option Ty :=
  if ["ToUpper", "ToLower", "TrimSpace"].contains name then some .text
  else if ["HasPrefix", "HasSuffix", "Contains"].contains name then some .bool
  else none

def staticType (sc : Scope) : Node → Option Ty
  | .paren _ x => sc.staticType x
  | .literal _ v =>
    match v with
    | .text _ | .octets _ => some .text
    | .int _ => some (.int .int)
    | .float _ => some (.float .float64)
    | .char _ => some (.int .int32)
    | .imaginary => none
  | .ident _ n =>
    if n == "true" || n == "false" then some .bool else (sc.env.lookup n).bind Host.ty?
  | .selector s x name =>
    match sc.rowChain? (.selector s x name) with
    | some (_, frame, names) => sc.chainType frame.row names
    | none => none
  | .star _ x => (sc.staticType x).map Ty.indirect
  | .prefixed _ op x => if op == .not then some .bool else sc.staticType x
  | .infixed _ op x y =>
    if Constant.isComparison op || op == .both || op == .either then some .bool
    else (sc.staticType x).or (sc.staticType y)
  | .call _ (.ident _ n) _ => basicType? n
  | .call _ (.selector _ (.ident _ pkg) name) _ =>
    if pkg == "strings" && sc.isPackage pkg then textCallType? name else none
  | _ => none

def isPlainText : Value → Bool
  | .text _ | .octets _ => true
  | _ => false

-- Whether a converted node is a text, so that a sum with it joins texts.
def isStringy (sc : Scope) (n : Node) : Expr → Bool
  | .value v _ => isPlainText v
  | .compute op _ _ => op == .concatenate
  | .set kind _ => kind == .concat
  | _ => sc.world.types.isText (sc.staticType n)

-- Whether a converted node is a predicate, so that bit operators on it are logical.
def isPredicate (sc : Scope) (n : Node) : Expr → Bool
  | .compare .. | .related .. => true
  | .unary op _ => op == .not
  | .set kind _ => kind.isLogical
  | .value v _ => match v with
    | .bool _ => true
    | _ => false
  | _ => sc.world.types.isBool (sc.staticType n)

def comparison? : InfixOp → Option LogicOp
  | .eq => some .equal
  | .ne => some .notEqual
  | .lt => some .less
  | .le => some .lessOrEqual
  | .gt => some .greater
  | .ge => some .greaterOrEqual
  | _ => none

-- The comparison that holds when its operands change places.
def mirrored : InfixOp → InfixOp
  | .lt => .gt
  | .le => .ge
  | .gt => .lt
  | .ge => .le
  | op => op

def arithmetic? : InfixOp → Option ValueOp
  | .add => some .add
  | .sub => some .subtract
  | .mul => some .multiply
  | .quo => some .divide
  | .rem => some .modulo
  | .bitAnd => some .bitAnd
  | .bitOr => some .bitOr
  | .bitXor => some .bitXor
  | _ => none

-- Calls that compare two values: `pkg.Compare(a, b)` and `a.Compare(b)`.
def isCompareCall (sc : Scope) : Node → Bool
  | .paren _ x => sc.isCompareCall x
  | .call _ (.selector _ (.ident _ pkg) "Compare") args =>
    args.length == (if sc.isPackage pkg then 2 else 1)
  | .call _ (.selector _ _ "Compare") args => args.length == 1
  | _ => false

def asLogic (sc : Scope) (n : Node) (r : Except Error Expr) : Except Error Expr := do
  let e ← r
  if e.isLogic then return e else sc.unsupported n "not a predicate"

def junction (sc : Scope) (kind : SetKind) (x y : Node) (left right : Except Error Expr) :
    Except Error Expr := do
  let l ← sc.asLogic x left
  let r ← sc.asLogic y right
  return Expr.join kind [l, r]

def compared (op : LogicOp) (left right : Except Error Expr) : Except Error Expr := do
  let l ← left
  let r ← right
  return .compare op l r

-- Two converted operands under an operator that is no comparison.
def computed (sc : Scope) (n : Node) (op : InfixOp) (x y : Node) (left right : Except Error Expr) :
    Except Error Expr := do
  let l ← left
  let r ← right
  if (op == .bitAnd || op == .bitOr) && sc.isPredicate x l && sc.isPredicate y r then
    sc.junction (if op == .bitAnd then .and else .or) x y (.ok l) (.ok r)
  else if op == .add && (sc.isStringy x l || sc.isStringy y r) then
    return .compute .concatenate l r
  else match arithmetic? op with
    | some o => return .compute o l r
    | none => sc.unsupported n ("operator " ++ op.symbol)

def databaseCall (sc : Scope) (n : Node) (name : String) (arity : Option Nat)
    (args : List (Except Error Expr)) : Except Error Expr := do
  match arity with
  | some k =>
    if args.length != k then
      sc.unsupported n (name ++ " takes " ++ toString k ++ " argument(s)")
  | none => pure ()
  sc.checked n (Expr.func name (← args.mapM id))

def pattern (sc : Scope) (n : Node) (op : LogicOp) (args : List (Except Error Expr)) :
    Except Error Expr :=
  match args with
  | [x, y] => compared op x y
  | _ => sc.unsupported n "expected two arguments"

-- Membership of the second argument in the first one, which must not depend on a row.
def membership (sc : Scope) (n : Node) (nodes : List Node) (args : List (Except Error Expr)) :
    Except Error Expr :=
  match nodes, args with
  | [list, _], [x, y] =>
    if sc.depends list then sc.unsupported list "use slices.ContainsFunc for relations"
    else compared .isIn y x
  | _, _ => sc.unsupported n "expected two arguments"

def aggregated (sc : Scope) (n : Node) (name : String) (distinct : Bool)
    (arg : Option (Except Error Expr)) : Except Error Expr := do
  match arg with
  | none => sc.checked n (Expr.aggregated name none distinct)
  | some x => sc.checked n (Expr.aggregated name (some (← x)) distinct)

def aggregate? : String → Option (String × Bool)
  | "Count" => some ("COUNT", false)
  | "CountDistinct" => some ("COUNT", true)
  | "Sum" => some ("SUM", false)
  | "Avg" => some ("AVG", false)
  | "Min" => some ("MIN", false)
  | "Max" => some ("MAX", false)
  | _ => none

-- The functions of the query package. Only rows are counted without an argument.
def queryCall (sc : Scope) (n : Node) (name : String) (args : List (Except Error Expr)) :
    Except Error Expr :=
  match aggregate? name, args with
  | some (agg, distinct), [x] => sc.aggregated n agg distinct (some x)
  | some (agg, distinct), [] =>
    if name == "Count" then sc.aggregated n agg distinct none
    else sc.unsupported n (name ++ " takes one argument")
  | some _, _ => sc.unsupported n (name ++ " takes one argument")
  | none, args =>
    if name == "Like" then sc.pattern n .like args
    else sc.unsupported n ("unknown query function " ++ name)

-- Calls of packages over converted arguments, those that take a function apart.
def packageCall (sc : Scope) (n : Node) (pkg name : String) (nodes : List Node)
    (args : List (Except Error Expr)) : Except Error Expr :=
  match pkg ++ "." ++ name with
  | "strings.HasPrefix" => sc.pattern n .startsWith args
  | "strings.HasSuffix" => sc.pattern n .endsWith args
  | "strings.Contains" => sc.pattern n .contains args
  | "strings.ToUpper" => sc.databaseCall n "UPPER" (some 1) args
  | "strings.ToLower" => sc.databaseCall n "LOWER" (some 1) args
  | "strings.TrimSpace" => sc.databaseCall n "TRIM" (some 1) args
  | "cmp.Or" => sc.databaseCall n "COALESCE" none args
  | "slices.Contains" => sc.membership n nodes args
  | _ =>
    if pkg == queryPackage then sc.queryCall n name args
    else if name == "Compare" then sc.unsupported n "Compare must be compared with 0"
    else sc.databaseCall n name none args

def receiverType (sc : Scope) (x : Node) : Expr → Option Ty
  | .value v _ => if v.isNull then (sc.staticType x).map Ty.indirect else v.ty?
  | _ => (sc.staticType x).map Ty.indirect

-- A method call on a converted receiver: by the handler for its type or name, else as a function
-- of the database with the receiver in front.
def methodCall (sc : Scope) (fn x : Node) (name : String) (receiver : Except Error Expr)
    (args : List (Except Error Expr)) : Except Error Expr := do
  let r ← receiver
  let args ← args.mapM id
  match sc.handlers.method? (sc.receiverType x r) name with
  | some h => h r args
  | none => sc.checked fn (Expr.func name (r :: args))

-- The relation that `slices.ContainsFunc` looks through, and the type of its rows.
def relation (sc : Scope) (n : Node) : Except Error (String × Option Ty) :=
  match n.unparen with
  | .selector s x name =>
    match sc.rowChain? (.selector s x name) with
    | some (depth, frame, [member]) =>
      if depth != 0 then
        sc.unsupported n "relations of an outer parameter are not supported"
      else match frame.row with
        | none => .ok (member, none)
        | some row =>
          match sc.world.types.column? (some row) member with
          | none => .error (.unknownProperty (rowName (some row)) member)
          | some (_, type) => .ok (member, type.map sc.world.types.rowOf)
    | _ => sc.unsupported n "expected a relation member"
  | _ => sc.unsupported n "expected a relation member"

-- Why a function is not a lambda over one row.
def lambdaFault (sc : Scope) (n : Node) (param : Option String) (statements : Nat) :
    Except Error α :=
  if param.isNone then sc.unsupported n "lambda must take exactly one parameter"
  else if statements != 1 then sc.unsupported n "lambda body must be a single return statement"
  else sc.unsupported n "lambda body must return one value"

def inside (sc : Scope) (param : String) (row : Option Ty) : Scope :=
  { sc with frames := ⟨param, row⟩ :: sc.frames }

def package? (sc : Scope) : Node → Option String
  | .ident _ n => if sc.isPackage n then some n else none
  | _ => none

def isContainsFunc (sc : Scope) : Node → Bool
  | .selector _ (.ident _ "slices") "ContainsFunc" => sc.isPackage "slices"
  | _ => false

mutual

def convert (sc : Scope) : Node → Except Error Expr
  | .paren _ x => sc.convert x
  | .selector s x name =>
    let n := Node.selector s x name
    if sc.depends n then sc.selection n else sc.fold n
  | .star s x => if sc.depends x then sc.convert x else sc.fold (.star s x)
  | .prefixed s op x =>
    let n := Node.prefixed s op x
    if sc.depends n then
      match op with
      | .not => do return .unary .not (← sc.asLogic x (sc.convert x))
      | .minus => do return .unary .negate (← sc.convert x)
      | .complement => do return .unary .bitwiseNot (← sc.convert x)
      | .plus => sc.convert x
      | op => sc.unsupported n ("operator " ++ op.symbol)
    else sc.fold n
  | .infixed s op x y =>
    let n := Node.infixed s op x y
    if sc.depends n then
      match comparison? op, op with
      | some o, op => do
        if sc.isCompareCall x && (← sc.isZero y) then sc.comparands o x
        else if sc.isCompareCall y && (← sc.isZero x) then
          sc.comparands ((comparison? (mirrored op)).getD o) y
        else compared o (sc.convert x) (sc.convert y)
      | none, .both => sc.junction .and x y (sc.convert x) (sc.convert y)
      | none, .either => sc.junction .or x y (sc.convert x) (sc.convert y)
      | none, op => sc.computed n op x y (sc.convert x) (sc.convert y)
    else sc.fold n
  | .call s fn args =>
    let n := Node.call s fn args
    if sc.depends n then
      if sc.isContainsFunc fn then
        match args with
        | [rel, body] => do
          let (member, row) ← sc.relation rel
          let (label, inner) ← sc.convertBody body row body
          sc.checked n (Expr.existing member label (some inner) [])
        | _ => sc.unsupported n "expected two arguments"
      else
        match fn with
        | .ident _ name =>
          if sc.isParam name then sc.unsupported n "a row is not callable"
          else if name == "len" then sc.databaseCall n "LENGTH" (some 1) (sc.convertEach args)
          else match (if args.length == 1 then basicType? name else none), sc.convertEach args with
            | some _, [x] => x
            | _, xs => sc.databaseCall n name none xs
        | .selector t x name =>
          match sc.package? x with
          | some pkg => sc.packageCall n pkg name args (sc.convertEach args)
          | none => sc.methodCall (.selector t x name) x name (sc.convert x) (sc.convertEach args)
        | _ => sc.unsupported n "unsupported call"
    else sc.fold n
  | .composite s type items =>
    let n := Node.composite s type items
    if sc.depends n then do return Expr.join .list (← (sc.convertEach items).mapM id)
    else sc.fold n
  | .ident s name =>
    if sc.isParam name then sc.unsupported (.ident s name) "a row is not a value"
    else sc.fold (.ident s name)
  | n => if sc.depends n then sc.unsupported n ("unsupported syntax " ++ n.kindName) else sc.fold n

-- The conversions of several nodes. Of a pair only the value counts.
def convertEach (sc : Scope) : List Node → List (Except Error Expr)
  | [] => []
  | .pair _ _ v :: rest => sc.convert v :: sc.convertEach rest
  | x :: rest => sc.convert x :: sc.convertEach rest

-- The comparison that a compare call stands for when it is compared with zero.
def comparands (sc : Scope) (op : LogicOp) : Node → Except Error Expr
  | .paren _ x => sc.comparands op x
  | .call _ (.selector _ _ _) [a, b] => compared op (sc.convert a) (sc.convert b)
  | .call _ (.selector _ x _) [a] => compared op (sc.convert x) (sc.convert a)
  | n => sc.unsupported n "unsupported call"

-- The parameter and the predicate of a function over rows of a type. `whole` is the function
-- with the parentheses around it.
def convertBody (sc : Scope) (whole : Node) (row : Option Ty) : Node → Except Error (String × Expr)
  | .paren _ x => sc.convertBody whole row x
  | .lambda s param statements result =>
    match param, result with
    | some p, some body =>
      if statements == 1 then do
        let inner := sc.inside p row
        return (p, ← inner.asLogic body (inner.convert body))
      else sc.lambdaFault (.lambda s param statements none) param statements
    | _, _ => sc.lambdaFault (.lambda s param statements none) param statements
  | _ => sc.unsupported whole "expected a function literal"

end

end QueryTree.Lambda.Scope
