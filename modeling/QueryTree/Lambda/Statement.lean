import QueryTree.Lambda.Grammar

namespace QueryTree.Lambda
namespace Parser

-- What a simple statement is where it matters to the statement around it.
inductive Simple where
  | expr (x : Node)
  | guard
  | range
  | label
  | other

-- Where a simple statement stands: labels and ranges have places of their own.
inductive Place where
  | plain | labelled | loop
deriving DecidableEq

def assignments : List String :=
  [":=", "=", "+=", "-=", "*=", "/=", "%=", "&=", "|=", "^=", "<<=", ">>=", "&^="]

-- The question for a type in the head of a switch.
def isTypeGuard : Node → Bool
  | .other _ .typeAssert [_] => true
  | _ => false

def assignment (g : Deeper) (place : Place) (count : Nat) (mark : String) : Parser Simple := do
  advance
  if place == .loop && (mark == ":=" || mark == "=") && (← acceptKeyword "range") then
    discard (expr g)
    return .range
  match ← someList (expr g) with
  | [y] =>
    if isTypeGuard y && count == 1 then
      if mark == ":=" then return .guard else if mark == "=" then failure else return .other
    else return .other
  | _ => return .other

def simple (g : Deeper) (place : Place) : Parser Simple := do
  let xs ← someList (expr g)
  match ← peek, xs with
  | some (.mark m), xs =>
    if assignments.contains m then assignment g place xs.length m
    else match xs with
      | [x] =>
        if m == ":" then
          match place, x with
          | .labelled, .ident .. =>
            advance
            discard g.statement
            return .label
          | .plain, _ => return if isTypeGuard x then .guard else .expr x
          | _, _ => failure
        else if m == "<-" then
          advance
          discard (expr g)
          return .other
        else if m == "++" || m == "--" then
          advance
          return .other
        else return if isTypeGuard x then .guard else .expr x
      | _ => failure
  | _, [x] => return if isTypeGuard x then .guard else .expr x
  | _, _ => failure

def ensureExpr : Simple → Parser Unit
  | .expr _ | .guard => return ()
  | _ => failure

-- The condition of a branch, perhaps after another statement.
def condition (g : Deeper) : Parser Unit :=
  heading do
    let first ← if ← atBreak then pure none else some <$> simple g .plain
    if ← atMark "\x7b" then
      match first with
      | some s => ensureExpr s
      | none => failure
    else
      if ← atBreak then advance else failure
      ensureExpr (← simple g .plain)

-- A branch after the word `if`. Branches follow each other at most so often.
def branch (g : Deeper) : Nat → Parser Unit
  | 0 => failure
  | n + 1 => do
    condition g
    discard (block g)
    if ← acceptKeyword "else" then
      if ← acceptKeyword "if" then branch g n
      else
        discard (block g)
        expectBreak
    else expectBreak

def iteration (g : Deeper) : Parser Unit := do
  unless ← atMark "\x7b" do
    heading do
      if ← acceptKeyword "range" then discard (expr g)
      else
        let first ← if ← atBreak then pure none else some <$> simple g .loop
        match first with
        | some .range => return ()
        | _ =>
          if ← atBreak then
            advance
            unless ← atBreak do
              if ← atMark "\x7b" then failure
              discard (simple g .plain)
            expectBreak
            unless ← atMark "\x7b" do discard (simple g .plain)
          else match first with
            | some s => ensureExpr s
            | none => failure
  discard (block g)
  expectBreak

-- The clauses of a switch in braces. `head` reads what follows the word `case`.
def clauses (g : Deeper) (head : Parser Unit) : Parser Unit := do
  expect "\x7b"
  repeatedly (fun _ => do
    if ← acceptKeyword "case" then
      head
      expect ":"
      discard (statements g)
      return .inl ()
    else if ← acceptKeyword "default" then
      expect ":"
      discard (statements g)
      return .inl ()
    else return .inr ()) ()
  expect "\x7d"
  expectBreak

-- A choice by value or by type, after the word `switch`.
def choice (g : Deeper) : Parser Unit := do
  unless ← atMark "\x7b" do
    heading do
      let first ← if ← atBreak then pure none else some <$> simple g .plain
      if ← atBreak then
        advance
        unless ← atMark "\x7b" do ensureExpr (← simple g .plain)
      else match first with
        | some s => ensureExpr s
        | none => return ()
  clauses g (discard (someList (expr g)))

-- What a clause of a selection waits for.
def communication (g : Deeper) : Parser Unit := do
  let xs ← someList (expr g)
  if ← accept "<-" then
    if xs.length > 1 then failure
    discard (expr g)
  else if (← accept ":=") || (← accept "=") then
    if xs.length > 2 then failure
    discard (expr g)
  else if xs.length > 1 then failure

-- The rest of a declaration after its word.
def declared (g : Deeper) (word : String) : Parser Unit := do
  if word == "type" then
    discard name
    discard (accept "=")
    discard (type g)
  else
    discard (someList name)
    if word == "var" then
      if ← accept "=" then discard (someList (expr g))
      else
        discard (type g)
        if ← accept "=" then discard (someList (expr g))
    else unless (← atBreak) || (← atMark ")") do
      discard g.type?
      if ← accept "=" then discard (someList (expr g))
  expectBreak

def declaration (g : Deeper) (word : String) : Parser Unit := do
  if ← accept "(" then
    repeatedly (fun _ => do
      if ← accept ")" then return .inr ()
      declared g word
      return .inl ()) ()
    expectBreak
  else declared g word

-- Words that begin an expression besides names and literals.
def startsExpr : Lexeme → Bool
  | .ident _ | .literal _ => true
  | .keyword w => ["func", "struct", "map", "chan", "interface"].contains w
  | .mark m => ["(", "[", "+", "-", "*", "&", "^", "<-", "!"].contains m
  | .newline => false

def keywordStatement (g : Deeper) (word : String) : Parser Statement := do
  advance
  match word with
  | "return" =>
    let values ← if (← atBreak) || (← atMark "\x7d") then pure [] else someList (expr g)
    expectBreak
    return some values
  | "var" | "const" | "type" => declaration g word
  | "go" | "defer" =>
    match ← expr g with
    | .call .. => expectBreak
    | _ => failure
  | "break" | "continue" | "goto" =>
    if ← atName then advance
    expectBreak
  | "fallthrough" => expectBreak
  | "if" => branch g ((← get).tokens.length + 1)
  | "for" => iteration g
  | "switch" => choice g
  | "select" => clauses g (communication g)
  | _ => failure
  return none

def statement (g : Deeper) : Parser Statement := do
  match ← peek with
  | none => failure
  | some lexeme =>
    if startsExpr lexeme then
      match ← simple g .labelled with
      | .label => return none
      | _ =>
        expectBreak
        return none
    else if ← atBreak then
      advance
      return none
    else if ← atMark "\x7d" then return none
    else if ← atMark "\x7b" then
      discard (block g)
      expectBreak
      return none
    else match lexeme with
      | .keyword w => keywordStatement g w
      | _ => failure

-- The rules at a depth of nesting.
def rules : Nat → Deeper
  | 0 => ⟨fun _ => failure, failure, failure⟩
  | n + 1 =>
    let g := rules n
    ⟨infixes g, type? g, statement g⟩

-- A whole source as one expression. A line break may follow it.
def source : Parser Node := do
  let tokens := (← get).tokens
  let x ← (rules (4 * (tokens.length + 2))).infixes 1
  if let some .newline ← peek then advance
  match (← get).tokens with
  | [] => return x
  | _ => failure

end Parser

def Node.read? (cs : List Char) : Option Node := do
  let tokens ← Token.all? cs
  let (x, _) ← Parser.source.run { tokens }
  return x

end QueryTree.Lambda
