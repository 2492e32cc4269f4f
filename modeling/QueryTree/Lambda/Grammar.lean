import QueryTree.Lambda.Node

namespace QueryTree.Lambda

-- The words to come, where the last one stopped, and how deep in brackets they stand. At a
-- negative depth a brace after a name opens a block.
structure Reading where
  tokens : List Token
  last : Nat := 0
  depth : Int := 0

abbrev Parser := StateT Reading Option

-- A statement is known by the values it returns, if it is a return.
abbrev Statement := Option (List Node)

-- The parsers of nested parts. `infixes` reads operators that bind at least so strongly.
structure Deeper where
  infixes : Nat → Parser Node
  type? : Parser (Option Node)
  statement : Parser Statement

namespace Parser

def peek : Parser (Option Lexeme) := do return (← get).tokens.head?.map (·.lexeme)

def here : Parser Nat := do
  let s ← get
  return (s.tokens.head?.map (·.start)).getD s.last

def advance : Parser Unit :=
  modify fun s =>
    match s.tokens with
    | [] => s
    | t :: rest => { s with tokens := rest, last := t.stop }

def atMark (mark : String) : Parser Bool := do
  match ← peek with
  | some (.mark m) => return m == mark
  | _ => return false

def atKeyword (word : String) : Parser Bool := do
  match ← peek with
  | some (.keyword w) => return w == word
  | _ => return false

def atName : Parser Bool := do
  match ← peek with
  | some (.ident _) => return true
  | _ => return false

def atBreak : Parser Bool := do
  match ← peek with
  | some .newline => return true
  | some (.mark m) => return m == ";"
  | _ => return false

def accept (mark : String) : Parser Bool := do
  if ← atMark mark then
    advance
    return true
  else return false

def acceptKeyword (word : String) : Parser Bool := do
  if ← atKeyword word then
    advance
    return true
  else return false

def expect (mark : String) : Parser Unit := do
  unless ← accept mark do failure

def expectKeyword (word : String) : Parser Unit := do
  unless ← acceptKeyword word do failure

-- The end of a statement, which a closing bracket makes needless.
def expectBreak : Parser Unit := do
  unless (← atMark ")") || (← atMark "\x7d") do
    if ← atBreak then advance else failure

def spanFrom (start : Nat) : Parser Span := do return ⟨start, (← get).last⟩

def bracketed (p : Parser α) : Parser α := do
  let depth := (← get).depth
  modify fun s => { s with depth := depth + 1 }
  let a ← p
  modify fun s => { s with depth }
  return a

-- Runs a parser where a brace opens a block.
def heading (p : Parser α) : Parser α := do
  let depth := (← get).depth
  modify fun s => { s with depth := -1 }
  let a ← p
  modify fun s => { s with depth }
  return a

-- One round goes on with another state or stops with a result.
def loop : Nat → (α → Parser (α ⊕ β)) → α → Parser β
  | 0, _, _ => failure
  | n + 1, step, a => do
    match ← step a with
    | .inl a => loop n step a
    | .inr b => return b

-- Repeats a round that reads at least one word each time it goes on.
def repeatedly (step : α → Parser (α ⊕ β)) (a : α) : Parser β := do
  loop ((← get).tokens.length + 1) step a

-- Items between commas up to a closing mark, a comma before which is allowed.
def commaList (item : Parser α) (closing : String) : Parser (List α) :=
  repeatedly (fun items => do
    if ← atMark closing then return .inr items
    let items := items ++ [← item]
    if ← accept "," then return .inl items
    else if ← atMark closing then return .inr items
    else failure) []

def someList (item : Parser α) : Parser (List α) := do
  let first ← item
  repeatedly (fun items => do
    if ← accept "," then return .inl (items ++ [← item]) else return .inr items) [first]

def name : Parser Node := do
  let start ← here
  match ← peek with
  | some (.ident n) =>
    advance
    return .ident (← spanFrom start) n
  | _ => failure

def expr (g : Deeper) : Parser Node := g.infixes 1

def type (g : Deeper) : Parser Node := do
  match ← g.type? with
  | some t => return t
  | none => failure

def member (start : Nat) (x : Node) : Parser Node := do
  match ← name with
  | .ident _ n => return .selector (← spanFrom start) x n
  | _ => failure

def instantiated (g : Deeper) (start : Nat) (t : Node) : Parser Node := do
  if ← accept "[" then
    let args ← bracketed (commaList (type g) "]")
    expect "]"
    match args with
    | [] => failure
    | [a] => return .index (← spanFrom start) t a
    | args => return .other (← spanFrom start) .indexList (t :: args)
  else return t

def typeName (g : Deeper) : Parser Node := do
  let start ← here
  let t ← name
  let t ← if ← accept "." then member start t else pure t
  instantiated g start t

def arrayType (g : Deeper) (start : Nat) : Parser Node := do
  let size ← bracketed do
    let at_ ← here
    if ← accept "..." then return some (Node.other (← spanFrom at_) .ellipsis [])
    else if ← atMark "]" then return none
    else return some (← expr g)
  expect "]"
  let elem ← type g
  return .arrayType (← spanFrom start) size elem

-- After the name `x`: a list or array type, or else `x` instantiated.
def arrayOrInstance (g : Deeper) (x : Node) : Parser (Option Node × Node) := do
  let start ← here
  expect "["
  if ← accept "]" then
    let elem ← type g
    return (some x, .arrayType (← spanFrom start) none elem)
  let args ← bracketed (commaList (expr g) "]")
  expect "]"
  match args with
  | [a] =>
    match ← g.type? with
    | some elem => return (some x, .arrayType (← spanFrom start) (some a) elem)
    | none => return (none, .index (← spanFrom x.span.start) x a)
  | args => return (none, .other (← spanFrom x.span.start) .indexList (x :: args))

def atType : Parser Bool := do
  match ← peek with
  | some (.mark m) => return ["*", "<-", "[", "("].contains m
  | some (.keyword w) => return ["func", "chan", "map", "struct", "interface"].contains w
  | _ => return false

-- The type of a last parameter that takes any number of arguments.
def dots (g : Deeper) : Parser Node := do
  let start ← here
  expect "..."
  let t ← type g
  return .other (← spanFrom start) .ellipsis [t]

-- One entry of a parameter list: a name, a type, or both.
def paramEntry (g : Deeper) : Parser (Option Node × Option Node) := do
  if ← atMark "..." then return (none, some (← dots g))
  else if ← atName then
    let x ← name
    if ← atMark "..." then return (some x, some (← dots g))
    else if ← atMark "[" then
      let (x, t) ← arrayOrInstance g x
      return (x, some t)
    else if ← accept "." then
      let t ← member x.span.start x
      return (none, some (← instantiated g x.span.start t))
    else if (← atName) || (← atType) then return (some x, some (← type g))
    else return (some x, none)
  else return (none, some (← type g))

-- Parameters that share one type.
structure Group where
  names : List Node
  type : Node

def Group.parts (p : Group) : List Node := p.names ++ [p.type]

-- Gives names without a type the type after them. Either all parameters have a name or none has.
def grouped (pending : List Node) : List (Option Node × Option Node) → Option (List Group)
  | [] => if pending.isEmpty then some [] else none
  | (some x, some t) :: rest => do return ⟨pending ++ [x], t⟩ :: (← grouped [] rest)
  | (some x, none) :: rest => grouped (pending ++ [x]) rest
  | (none, _) :: _ => none

def groupsOf (entries : List (Option Node × Option Node)) : Option (List Group) :=
  if entries.any fun (x, t) => x.isSome && t.isSome then grouped [] entries
  else entries.mapM fun (x, t) => (t <|> x).map fun t => ⟨[], t⟩

def params (g : Deeper) : Parser (List Group) := do
  expect "("
  let entries ← commaList (paramEntry g) ")"
  expect ")"
  match groupsOf entries with
  | some groups => return groups
  | none => failure

def results (g : Deeper) : Parser (List Group) := do
  if ← atMark "(" then params g
  else match ← g.type? with
    | some t => return [⟨[], t⟩]
    | none => return []

-- Parameters and results after the name or the word `func`.
def signature (g : Deeper) : Parser (List Group × List Group) := do
  let ps ← params g
  let rs ← results g
  return (ps, rs)

def funcType (start : Nat) (ps rs : List Group) : Parser Node := do
  return .other (← spanFrom start) .funcType ((ps ++ rs).flatMap Group.parts)

def field (g : Deeper) : Parser (List Node) := do
  let parts ← if ← atMark "*" then
      let start ← here
      advance
      let t ← typeName g
      pure [Node.star (← spanFrom start) t]
    else
      let x ← name
      match ← peek with
      | some (.literal (.text _)) | some .newline => pure [x]
      | some (.mark ".") => do
        advance
        let t ← member x.span.start x
        pure [← instantiated g x.span.start t]
      | some (.mark ";") | some (.mark "\x7d") => pure [x]
      | some (.mark "[") => do
        let (x, t) ← arrayOrInstance g x
        pure (x.toList ++ [t])
      | _ => do
        let more ← if ← accept "," then someList name else pure []
        let t ← type g
        pure ((x :: more) ++ [t])
  match ← peek with
  | some (.literal (.text _)) => advance
  | _ => pure ()
  expectBreak
  return parts

-- Entries up to a closing brace.
def braced (entry : Parser (List Node)) : Parser (List Node) := do
  expect "\x7b"
  repeatedly (fun parts => do
    if ← accept "\x7d" then return .inr parts
    else return .inl (parts ++ (← entry))) []

-- A method of an interface, or a union of types.
def interfaceEntry (g : Deeper) : Parser (List Node) := do
  let term : Parser Node := do
    discard (accept "~")
    type g
  let start ← here
  let parts ← if ← atName then
      let x ← name
      if ← atMark "(" then
        let (ps, rs) ← signature g
        pure [x, ← funcType start ps rs]
      else
        let t ← if ← accept "." then member start x else pure x
        let t ← instantiated g start t
        repeatedly (fun ts => do
          if ← accept "|" then return .inl (ts ++ [← term]) else return .inr ts) [t]
    else
      let t ← term
      repeatedly (fun ts => do
        if ← accept "|" then return .inl (ts ++ [← term]) else return .inr ts) [t]
  expectBreak
  return parts

def keywordType (g : Deeper) (start : Nat) : String → Parser (Option Node)
  | "struct" => do
    advance
    let parts ← braced (field g)
    return some (.other (← spanFrom start) .structType parts)
  | "interface" => do
    advance
    let parts ← braced (interfaceEntry g)
    return some (.other (← spanFrom start) .interfaceType parts)
  | "map" => do
    advance
    expect "["
    let key ← type g
    expect "]"
    let elem ← type g
    return some (.other (← spanFrom start) .mapType [key, elem])
  | "chan" => do
    advance
    discard (accept "<-")
    let elem ← type g
    return some (.other (← spanFrom start) .chanType [elem])
  | "func" => do
    advance
    let (ps, rs) ← signature g
    return some (← funcType start ps rs)
  | _ => return none

def type? (g : Deeper) : Parser (Option Node) := do
  let start ← here
  match ← peek with
  | some (.ident _) => return some (← typeName g)
  | some (.keyword w) => keywordType g start w
  | some (.mark m) =>
    if m == "[" then
      advance
      return some (← arrayType g start)
    else if m == "*" then
      advance
      let t ← type g
      return some (.star (← spanFrom start) t)
    else if m == "<-" then
      advance
      expectKeyword "chan"
      let elem ← type g
      return some (.other (← spanFrom start) .chanType [elem])
    else if m == "(" then
      advance
      let t ← type g
      expect ")"
      return some (.paren (← spanFrom start) t)
    else return none
  | _ => return none

def statements (g : Deeper) : Parser (List Statement) :=
  repeatedly (fun done => do
    if (← atMark "\x7d") || (← atKeyword "case") || (← atKeyword "default") then return .inr done
    else return .inl (done ++ [← g.statement])) []

def block (g : Deeper) : Parser (List Statement) := do
  expect "\x7b"
  let body ← statements g
  expect "\x7d"
  return body

def lambdaNode (span : Span) (ps : List Group) (body : List Statement) : Node :=
  let param := match ps with
    | [⟨[.ident _ n], _⟩] => some n
    | _ => none
  let result := match body with
    | [some [e]] => some e.unparen
    | _ => none
  .lambda span param body.length result

-- A function type, or a function when a body follows.
def func (g : Deeper) : Parser Node := do
  let start ← here
  expectKeyword "func"
  let (ps, rs) ← signature g
  if ← atMark "\x7b" then
    let body ← bracketed (block g)
    return lambdaNode (← spanFrom start) ps body
  else funcType start ps rs

def elements (value : Parser Node) : Parser (List Node) := do
  expect "\x7b"
  let items ← bracketed (commaList (do
    let start ← here
    let key ← value
    if ← accept ":" then
      let v ← value
      return Node.pair (← spanFrom start) key v
    else return key) "\x7d")
  expect "\x7d"
  return items

-- Composite values inside others may leave out their type. They nest at most so deep.
def element (g : Deeper) : Nat → Parser Node
  | 0 => failure
  | n + 1 => do
    if ← atMark "\x7b" then
      let start ← here
      let items ← elements (element g n)
      return .composite (← spanFrom start) none items
    else expr g

def composite (g : Deeper) (start : Nat) (type : Node) : Parser Node := do
  let items ← elements (element g ((← get).tokens.length + 1))
  return .composite (← spanFrom start) (some type) items

def arguments (g : Deeper) : Parser (List Node) := do
  expect "("
  let args ← bracketed (repeatedly (fun args => do
    if ← atMark ")" then return .inr args
    let args := args ++ [← expr g]
    if ← accept "..." then
      discard (accept ",")
      return .inr args
    else if ← accept "," then return .inl args
    else if ← atMark ")" then return .inr args
    else failure) [])
  expect ")"
  return args

-- The bounds of a slice after the first one. Of three the last two are required.
def bounds (g : Deeper) : Parser (List Node) := do
  let bound : Parser (Option Node) := do
    if (← atMark ":") || (← atMark "]") then return none else return some (← expr g)
  expect ":"
  let middle ← bound
  if ← accept ":" then
    let last ← bound
    match middle, last with
    | some m, some l => return [m, l]
    | _, _ => failure
  else return middle.toList

def indexed (g : Deeper) (start : Nat) (x : Node) : Parser Node := do
  expect "["
  let node ← bracketed do
    if ← atMark ":" then return Sum.inl (x :: (← bounds g))
    let first ← expr g
    if ← atMark ":" then return Sum.inl (x :: first :: (← bounds g))
    else if ← accept "," then return Sum.inr (first :: (← commaList (type g) "]"))
    else return Sum.inr [first]
  expect "]"
  let span ← spanFrom start
  match node with
  | .inl parts => return .other span .slice parts
  | .inr [key] => return .index span x key
  | .inr keys => return .other span .indexList (x :: keys)

-- Whether a brace after `x` opens a composite value of that type.
def takesBrace (x : Node) : Parser Bool := do
  let depth := (← get).depth
  match x with
  | .ident .. | .selector .. | .index .. | .other _ .indexList _ => return depth ≥ 0
  | .arrayType .. | .other _ .structType _ | .other _ .mapType _ => return true
  | _ => return false

def operand (g : Deeper) : Parser Node := do
  let start ← here
  match ← peek with
  | some (.ident _) => name
  | some (.literal v) =>
    advance
    return .literal (← spanFrom start) v
  | some (.keyword "func") => func g
  | some (.mark "(") =>
    advance
    let x ← bracketed (expr g)
    expect ")"
    return .paren (← spanFrom start) x
  | _ =>
    match ← type? g with
    | some t => return t
    | none => failure

-- A type in a dynamic test; the word `type` asks for the type itself.
def asserted (g : Deeper) (start : Nat) (x : Node) : Parser Node := do
  expect "("
  let parts ← if ← acceptKeyword "type" then pure [x] else do
    let t ← type g
    pure [x, t]
  expect ")"
  return .other (← spanFrom start) .typeAssert parts

def primary (g : Deeper) : Parser Node := do
  let start ← here
  let first ← operand g
  repeatedly (fun x => do
    if ← accept "." then
      if ← atMark "(" then return .inl (← asserted g start x)
      else return .inl (← member start x)
    else if ← atMark "[" then return .inl (← indexed g start x)
    else if ← atMark "(" then
      let args ← arguments g
      return .inl (.call (← spanFrom start) x args)
    else if ← atMark "\x7b" then
      if ← takesBrace x.unparen then
        match x with
        | .paren .. => failure
        | x => return .inl (← composite g start x)
      else return .inr x
    else return .inr x) first

def prefixed (g : Deeper) : Parser Node := do
  let start ← here
  match ← peek with
  | some (.mark "*") =>
    advance
    let x ← g.infixes 6
    return .star (← spanFrom start) x
  | some (.mark m) =>
    match PrefixOp.ofMark? m with
    | none => primary g
    | some op => do
      advance
      if op == .receive && (← atKeyword "chan") then
        match ← type? g with
        | some (.other _ _ parts) => return .other (← spanFrom start) .chanType parts
        | _ => failure
      else
        let x ← g.infixes 6
        return .prefixed (← spanFrom start) op x
  | _ => primary g

-- Operators that bind at least so strongly, those of one strength from left to right.
def infixes (g : Deeper) (strength : Nat) : Parser Node := do
  let start ← here
  let first ← prefixed g
  repeatedly (fun x => do
    match ← peek with
    | some (.mark m) =>
      match InfixOp.ofMark? m with
      | none => return .inr x
      | some (op, s) =>
        if s < strength then return .inr x
        else
          advance
          let y ← g.infixes (s + 1)
          return .inl (.infixed (← spanFrom start) op x y)
    | _ => return .inr x) first

end Parser
end QueryTree.Lambda
