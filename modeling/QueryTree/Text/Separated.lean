namespace QueryTree.Text.Separated

inductive Fault where
  -- A quote inside a field without quotes.
  | bareQuote
  -- A quote that neither ends its field nor is doubled, or one that is missing.
  | strayQuote
deriving DecidableEq, Inhabited

def Fault.message : Fault → String
  | .bareQuote => "bare \" in non-quoted field"
  | .strayQuote => "extraneous or missing \" in quoted-field"

-- A place in the text: its line, and the octet within the line.
structure Position where
  line : Nat
  column : Nat
deriving DecidableEq, Inhabited

def Position.next (p : Position) (c : Char) : Position :=
  { p with column := p.column + c.utf8Size }

structure Misread where
  start : Nat
  position : Position
  fault : Fault
deriving DecidableEq, Inhabited

def Misread.message (e : Misread) : String :=
  let place := "parse error on line " ++ toString e.position.line ++ ", column " ++
    toString e.position.column ++ ": " ++ e.fault.message
  if e.start == e.position.line then place
  else "record on line " ++ toString e.start ++ "; " ++ place

-- Where a reader stands: in a field without quotes, in one with them, or right after a quote
-- that may end it.
inductive Place where
  | opening
  | bare
  | quoted
  | closing (quote : Position)
deriving DecidableEq, Inhabited

-- Line ends of two characters count as one, and a return at the end is dropped.
def plainLines : List Char → List Char
  | '\r' :: '\n' :: cs => '\n' :: plainLines cs
  | ['\r'] => []
  | c :: cs => c :: plainLines cs
  | [] => []

-- Reads the fields up to the end of the record. `field` is the present one in reverse.
def fields (start : Nat) (place : Place) (here : Position) (field : List Char) :
    List Char → Except Misread (List String)
  | [] =>
    match place with
    | .quoted => .error ⟨start, here, .strayQuote⟩
    | _ => .ok [String.ofList field.reverse]
  | c :: cs =>
    let ended (rest : Except Misread (List String)) : Except Misread (List String) :=
      rest.map (String.ofList field.reverse :: ·)
    match place with
    | .opening =>
      if c == '"' then fields start .quoted (here.next c) field cs
      else if c == ',' then ended (fields start .opening (here.next c) [] cs)
      else if c == '\n' then .ok [String.ofList field.reverse]
      else fields start .bare (here.next c) (c :: field) cs
    | .bare =>
      if c == '"' then .error ⟨start, here, .bareQuote⟩
      else if c == ',' then ended (fields start .opening (here.next c) [] cs)
      else if c == '\n' then .ok [String.ofList field.reverse]
      else fields start .bare (here.next c) (c :: field) cs
    | .quoted =>
      if c == '"' then fields start (.closing here) (here.next c) field cs
      else if c == '\n' && !cs.isEmpty then
        fields start .quoted ⟨here.line + 1, 1⟩ (c :: field) cs
      else fields start .quoted (here.next c) (c :: field) cs
    | .closing quote =>
      if c == '"' then fields start .quoted (here.next c) (c :: field) cs
      else if c == ',' then ended (fields start .opening (here.next c) [] cs)
      else if c == '\n' then .ok [String.ofList field.reverse]
      else .error ⟨start, quote, .strayQuote⟩

-- The first record of a text that has one; empty lines before it are skipped.
def record (s : String) : Except Misread (List String) :=
  let (blank, cs) := (plainLines s.toList).span (· == '\n')
  fields (blank.length + 1) .opening ⟨blank.length + 1, 1⟩ [] cs

end QueryTree.Text.Separated
