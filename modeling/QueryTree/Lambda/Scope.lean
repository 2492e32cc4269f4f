import QueryTree.Lambda.Handlers
import QueryTree.Lambda.Host
import QueryTree.Lambda.Node

namespace QueryTree.Lambda

-- The name of the only parameter of a source that is not a function.
def defaultParam : String := "x"

-- The name of the query in a source that is not a function.
def queryRoot : String := "q"

def queryPackage : String := "query"

-- Converts lambdas over rows of one type; without a type, members are taken by their names.
structure Converter where
  row : Option Ty := none
  object : String := ""
  param : String := defaultParam
  env : List (String × Host) := []
  funcs : List (String × Host) := []
  handlers : Handlers := {}
  world : World := {}

-- A converter for rows of a type, whose name is that of the object.
def Converter.ofRow (world : World) (row : Option Ty) : Converter :=
  let row := row.map Ty.indirect
  { row, object := (row.map Ty.localName).getD "", world }

structure Frame where
  name : String
  row : Option Ty

-- A source under conversion, with the parameters in scope, the innermost one first.
structure Scope extends Converter where
  source : List Char
  frames : List Frame

namespace Scope

def text (sc : Scope) (n : Node) : String :=
  String.ofList ((sc.source.drop n.span.start).take (n.span.stop - n.span.start))

def unsupported (sc : Scope) (n : Node) (reason : String) : Except Error α :=
  .error (.unsupported (sc.text n) reason)

-- The innermost parameter of a name, and how many are inside it.
def frame? (sc : Scope) (name : String) : Option (Nat × Frame) :=
  (sc.frames.zipIdx.find? fun (f, _) => f.name == name).map fun (f, i) => (i, f)

def isParam (sc : Scope) (name : String) : Bool := sc.frames.any (·.name == name)

def isBound (sc : Scope) (name : String) : Bool := (sc.env.lookup name).isSome

-- Whether a name before a dot is a package and not a value.
def isPackage (sc : Scope) (name : String) : Bool := !sc.isParam name && !sc.isBound name

-- Calls of query functions are converted even where they do not mention a row.
def isQueryCall (sc : Scope) : Node → Bool
  | .selector _ (.ident _ pkg) _ => pkg == queryPackage && sc.isPackage pkg
  | _ => false

mutual

-- Whether a node mentions a parameter in scope. Functions and query calls always count.
def depends (sc : Scope) : Node → Bool
  | .ident _ n => sc.isParam n
  | .literal .. => false
  | .selector _ x _ => sc.depends x
  | .call _ fn args => sc.isQueryCall fn || sc.depends fn || sc.anyDepends args
  | .prefixed _ _ x | .star _ x | .paren _ x => sc.depends x
  | .infixed _ _ x y | .index _ x y => sc.depends x || sc.depends y
  | .composite _ type items => sc.optionDepends type || sc.anyDepends items
  | .pair _ (.ident ..) v => sc.depends v
  | .pair _ k v => sc.depends k || sc.depends v
  | .lambda .. => true
  | .arrayType _ size elem => sc.optionDepends size || sc.depends elem
  | .other _ _ parts => sc.anyDepends parts

def optionDepends (sc : Scope) : Option Node → Bool
  | none => false
  | some x => sc.depends x

def anyDepends (sc : Scope) : List Node → Bool
  | [] => false
  | x :: xs => sc.depends x || sc.anyDepends xs

end

-- A chain of members: the name it starts from, and the members in order.
def chain : Node → Option (String × List String)
  | .ident _ n => some (n, [])
  | .selector _ x name => (chain x).map fun (root, names) => (root, names ++ [name])
  | .paren _ x | .star _ x => chain x
  | _ => none

def rowChain? (sc : Scope) (n : Node) : Option (Nat × Frame × List String) := do
  let (root, names) ← chain n
  let (i, f) ← sc.frame? root
  return (i, f, names)

end Scope

-- The types that values are converted to by name.
def basicType? : String → Option Ty
  | "bool" => some .bool
  | "string" => some .text
  | "int" => some (.int .int)
  | "int8" => some (.int .int8)
  | "int16" => some (.int .int16)
  | "int32" | "rune" => some (.int .int32)
  | "int64" => some (.int .int64)
  | "uint" => some (.int .uint)
  | "uint8" | "byte" => some (.int .uint8)
  | "uint16" => some (.int .uint16)
  | "uint32" => some (.int .uint32)
  | "uint64" => some (.int .uint64)
  | "float32" => some (.float .float32)
  | "float64" => some (.float .float64)
  | "any" => some .any
  | _ => none

end QueryTree.Lambda
