import QueryTree.Sql.Render

namespace QueryTree

-- A statement and its parameters by position.
structure Statement where
  tokens : Sql
  dialect : Dialect
  params : List DriverValue

namespace Statement

def text (s : Statement) : String := s.dialect.text s.tokens

-- Whether parameters are given to the driver by name.
def isNamed (s : Statement) : Bool := s.dialect.capabilities.namedParameters

def named (s : Statement) : List (String × DriverValue) :=
  s.params.zipIdx.map fun (v, i) => (parameterName i, v)

end Statement

-- Where fragments are looked up, the first registry that has the key winning.
abbrev FragmentSources := List Fragments

def FragmentSources.lookup (sources : FragmentSources) (key : String) : Option Fragment :=
  sources.findSome? (·.lookup key)

namespace Render

def runSteps (frag : FragmentRenderer) (ctx : Context) : FragmentStep → Render Sql
  | .done s => return s
  | .fail cause => fail cause
  | .bind v next => do runSteps frag ctx (next (← bind ctx v))
  | .column path next => do
    match ← ofExcept (Expr.ofPath path) with
    | .property owner name => runSteps frag ctx (next (← column ctx owner name))
    | _ => runSteps frag ctx (next [])
  | .render e next => do runSteps frag ctx (next (← expr frag ctx .operand e))

def withStep (step : String) (r : Render α) : Render α := fun out =>
  match r out with
  | .ok x => .ok x
  | .error (.aborted m) => .error (.aborted m)
  | .error cause => .error (.within step cause)

-- Renders fragments that render further fragments, down to a number of levels.
def fragment (sources : FragmentSources) : Nat → FragmentRenderer
  | 0 => fun _ _ _ => fail (.aborted none)
  | levels + 1 => fun ctx key arg =>
    match sources.lookup key with
    | none =>
      unsupported (Expr.fragment key arg).display ("no fragment registered for " ++ key)
    | some f =>
      withStep ("fragment " ++ key) (runSteps (fragment sources levels) ctx (f ctx.dialect arg))

-- How deep fragments may call each other.
def fragmentLevels : Nat := 1000

end Render

-- What a compilation needs. The object is the one whose rows a condition is about; the label
-- names those rows inside nested conditions.
structure Compilation where
  resolver : Option Resolver
  dialect : Option Dialect
  object : String := ""
  label : String := ""
  sources : FragmentSources := []

namespace Compilation

def checkNames (c : Compilation) : Except Error Unit := do
  unless c.object.isEmpty do checkIdentifier "object" c.object
  unless c.label.isEmpty do checkIdentifier "alias" c.label

-- The rows that a condition is about, if an object is given.
def scope (c : Compilation) (resolver : Resolver) : Except Error Scope :=
  if c.object.isEmpty then return { label := c.label }
  else do return { object := c.object, table := ← resolver.table c.object, label := c.label }

def render (c : Compilation) (resolver : Resolver) (dialect : Dialect) (e : Expr) :
    Except Error (Sql × Output) := do
  let scope ← c.scope resolver
  let frag := Render.fragment c.sources Render.fragmentLevels
  match e with
  | .query q => do
    let table ← resolver.table q.object
    let scope : Scope := { object := q.object, table, label := c.label }
    (Render.statement frag { dialect, resolver, scope } q).run {}
  | e => (Render.expr frag { dialect, resolver, scope } .condition e).run {}

-- The statement of a rendering that binds no more parameters than the dialect allows.
def bounded (dialect : Dialect) (tokens : Sql) (out : Output) : Except Error Statement :=
  let bound := dialect.capabilities.maxParameters
  if bound > 0 && out.params.size > bound then
    .error (.feature dialect.name (toString out.params.size ++ " parameters")
      ("at most " ++ toString bound ++ " parameters may be bound"))
  else return { tokens, dialect, params := out.params.toList }

def run (c : Compilation) (e : Option Expr) : Except Error Statement := do
  c.checkNames
  match e with
  | none => .error (.unsupported "<nil>" "nothing to compile")
  | some e =>
    match c.resolver, c.dialect with
    | some resolver, some dialect =>
      let (tokens, out) ← c.render resolver dialect e
      bounded dialect tokens out
    | _, _ => .error (.incomplete e.display)

end Compilation
end QueryTree
