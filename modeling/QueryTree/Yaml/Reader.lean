import QueryTree.Yaml.Basic

namespace QueryTree.Yaml

-- What is left to read, the column and line it starts in, and the nodes that have a name.
structure Cursor where
  rest : List Char
  column : Nat := 0
  line : Nat := 0
  anchors : List (String × Yaml) := []
deriving Inhabited

abbrev Reader := StateT Cursor Option

namespace Reader

-- Characters that a document may hold.
def isAllowed (c : Char) : Bool :=
  c == '\t' || c == '\n' || c == '\r' || (' ' ≤ c && c ≤ '~') || c == '\x85' ||
    ('\xa0' ≤ c && c.toNat ≤ 0xfffd && c.toNat != 0xfeff) || c.toNat ≥ 0x10000

-- Line ends in one spelling.
def unixLines : List Char → List Char
  | '\r' :: '\n' :: cs => '\n' :: unixLines cs
  | '\r' :: cs => '\n' :: unixLines cs
  | c :: cs => c :: unixLines cs
  | [] => []

def isBreak (c : Char) : Bool := c == '\n'

def isBlank (c : Char) : Bool := c == ' ' || c == '\t' || c == '\n'

-- Whether a blank or the end comes next.
def blankNext : List Char → Bool
  | [] => true
  | c :: _ => isBlank c

def isFlowSign (c : Char) : Bool := [',', '[', ']', '\x7b', '\x7d'].contains c

def advance (c : Char) (cur : Cursor) (rest : List Char) : Cursor :=
  if isBreak c then { cur with rest, column := 0, line := cur.line + 1 }
  else { cur with rest, column := cur.column + 1 }

def next : Reader Char := do
  let cur ← get
  match cur.rest with
  | [] => failure
  | c :: cs =>
    set (advance c cur cs)
    return c

def skip (n : Nat) : Reader Unit :=
  modify fun cur => { cur with rest := cur.rest.drop n, column := cur.column + n }

-- Passes over blanks, line ends and comments.
def skipSpaceFrom (comment : Bool) (cur : Cursor) : List Char → Cursor
  | [] => { cur with rest := [] }
  | c :: cs =>
    if isBreak c then skipSpaceFrom false (advance c cur cs) cs
    else if comment || isBlank c then skipSpaceFrom comment (advance c cur cs) cs
    else if c == '#' then skipSpaceFrom true (advance c cur cs) cs
    else { cur with rest := c :: cs }

def skipSpace : Reader Unit := modify fun cur => skipSpaceFrom false cur cur.rest

-- Whether a tab stands where a block may begin: first on a line, or anywhere on this line unless
-- `tabs` are fine here.
def tabAhead (tabs : Bool) : List Char → Bool
  | [] => false
  | '\t' :: cs => !tabs || tabAhead tabs cs
  | ' ' :: cs => tabAhead tabs cs
  | '\n' :: cs => tabAhead false cs
  | '#' :: cs => afterComment cs
  | _ => false
where
  afterComment : List Char → Bool
    | [] => false
    | '\n' :: cs => tabAhead false cs
    | _ :: cs => afterComment cs

-- Passes over blanks, line ends and comments between the parts of a block.
def skipBlock (tabs : Bool) : Reader Unit := do
  if tabAhead tabs (← get).rest then failure else skipSpace

-- Passes over blanks within a line.
def skipInline : Reader Unit := modify fun cur =>
  let (blanks, rest) := cur.rest.span fun c => c == ' ' || c == '\t'
  { cur with rest, column := cur.column + blanks.length }

-- Blanks and line ends between two parts of a scalar; gives the number of line ends.
def skipBreaks : Reader Nat := do
  let cur ← get
  let (blanks, rest) := cur.rest.span isBlank
  let breaks := blanks.countP isBreak
  let last := blanks.reverse.takeWhile fun c => !isBreak c
  set { cur with
    rest, line := cur.line + breaks,
    column := if breaks == 0 then cur.column + blanks.length else last.length }
  return breaks

-- What line ends inside a scalar stand for: one is a space, more are one fewer.
def folded (breaks : Nat) : List Char :=
  if breaks == 1 then [' '] else List.replicate (breaks - 1) '\n'

def dropTrailing (cs : List Char) : List Char :=
  (cs.reverse.dropWhile fun c => c == ' ' || c == '\t').reverse

-- The length of a plain scalar on this line.
def plainLength (flow : Bool) (before : Char) : List Char → Nat
  | [] => 0
  | c :: cs =>
    if isBreak c then 0
    else if c == ':' && blankNext cs then 0
    else if c == '#' && (before == ' ' || before == '\t') then 0
    else if flow && (isFlowSign c || c == '?') then 0
    else plainLength flow c cs + 1

-- One line of a plain scalar, without blanks at its end.
def plainLine (flow : Bool) : Reader (List Char) := do
  let cur ← get
  let n := plainLength flow 'x' cur.rest
  let part := dropTrailing (cur.rest.take n)
  skip part.length
  return part

-- Document marks at the start of a line.
def isMark (cur : Cursor) : Bool :=
  cur.column == 0 && (cur.rest.take 3 == ['-', '-', '-'] || cur.rest.take 3 == ['.', '.', '.']) &&
    blankNext (cur.rest.drop 3)

-- A plain scalar goes on over lines that are indented deeper than `indent`.
def plainRest (flow : Bool) (indent : Int) : Nat → List Char → Reader (List Char)
  | 0, _ => failure
  | fuel + 1, acc => do
    let here ← get
    let breaks ← skipBreaks
    let cur ← get
    let goesOn := breaks > 0 && !cur.rest.isEmpty && cur.rest.head? != some '#' && !isMark cur &&
      (flow || (cur.column : Int) > indent) && plainLength flow 'x' cur.rest > 0
    if goesOn then do
      let part ← plainLine flow
      plainRest flow indent fuel (acc ++ folded breaks ++ part)
    else
      set here
      return acc

def startsPlain (flow : Bool) : List Char → Bool
  | [] => false
  | c :: cs =>
    if c == '-' then !blankNext cs
    else if c == '?' || c == ':' then !flow && !blankNext cs
    else !(isBlank c || isFlowSign c ||
      ['#', '&', '*', '!', '|', '>', '\'', '"', '%', '@', '\x60'].contains c)

def singleQuoted : Nat → List Char → Reader (List Char)
  | 0, _ => failure
  | fuel + 1, acc => do
    let cur ← get
    match cur.rest with
    | [] => failure
    | '\'' :: '\'' :: _ => do skip 2; singleQuoted fuel (acc ++ ['\''])
    | '\'' :: _ => do skip 1; return acc
    | c :: _ =>
      if isBreak c then do
        let breaks ← skipBreaks
        singleQuoted fuel (dropTrailing acc ++ folded breaks)
      else do
        let _ ← next
        singleQuoted fuel (acc ++ [c])

def hexDigit? (c : Char) : Option Nat :=
  if '0' ≤ c && c ≤ '9' then some (c.toNat - '0'.toNat)
  else if 'a' ≤ c && c ≤ 'f' then some (c.toNat - 'a'.toNat + 10)
  else if 'A' ≤ c && c ≤ 'F' then some (c.toNat - 'A'.toNat + 10)
  else none

-- A character by its number, in so many hexadecimal digits.
def codeChar (width : Nat) : Reader Char := do
  let cur ← get
  let ds := cur.rest.take width
  if ds.length < width then failure
  else match ds.foldlM (fun n c => (hexDigit? c).map (n * 16 + ·)) 0 with
    | none => failure
    | some n =>
      if n > 0x10ffff || (0xd800 ≤ n && n ≤ 0xdfff) then failure
      else do skip width; return Char.ofNat n

def escapes : List (Char × Char) :=
  [('0', '\x00'), ('a', '\x07'), ('b', '\x08'), ('t', '\t'), ('\t', '\t'), ('n', '\n'),
    ('v', '\x0b'), ('f', '\x0c'), ('r', '\r'), ('e', '\x1b'), (' ', ' '), ('"', '"'), ('/', '/'),
    ('\'', '\''), ('\\', '\\'), ('N', '\x85'), ('_', '\xa0'), ('L', '\u2028'), ('P', '\u2029')]

def escaped : Reader Char := do
  let c ← next
  match c with
  | 'x' => codeChar 2
  | 'u' => codeChar 4
  | 'U' => codeChar 8
  | c =>
    match escapes.lookup c with
    | some e => return e
    | none => failure

-- `kept` counts the characters at the front that folding may not trim.
def doubleQuoted : Nat → Nat → List Char → Reader (List Char)
  | 0, _, _ => failure
  | fuel + 1, kept, acc => do
    let cur ← get
    match cur.rest with
    | [] => failure
    | '"' :: _ => do skip 1; return acc
    | '\\' :: '\n' :: _ => do
      skip 1
      let breaks ← skipBreaks
      let acc := acc ++ List.replicate (breaks - 1) '\n'
      doubleQuoted fuel acc.length acc
    | '\\' :: _ => do
      skip 1
      let c ← escaped
      doubleQuoted fuel (acc.length + 1) (acc ++ [c])
    | c :: _ =>
      if isBreak c then do
        let breaks ← skipBreaks
        let acc := acc.take kept ++ dropTrailing (acc.drop kept) ++ folded breaks
        doubleQuoted fuel acc.length acc
      else do
        let _ ← next
        doubleQuoted fuel kept (acc ++ [c])

def scalar (flow : Bool) (indent : Int) (fuel : Nat) : Reader Yaml := do
  let cur ← get
  match cur.rest with
  | '\'' :: _ => do skip 1; return .scalar (String.ofList (← singleQuoted fuel [])) .text
  | '"' :: _ => do skip 1; return .scalar (String.ofList (← doubleQuoted fuel 0 [])) .text
  | cs =>
    if startsPlain flow cs then do
      let part ← plainLine flow
      let after := (← get).rest.dropWhile fun c => c == ' ' || c == '\t'
      match after with
      | ':' :: _ => return .scalar (String.ofList part) .plain
      | _ => return .scalar (String.ofList (← plainRest flow indent fuel part)) .plain
    else failure

-- What becomes of the line ends after a block scalar.
inductive Chomping where
  | strip
  | clip
  | keep
deriving DecidableEq, Inhabited

-- The signs after the mark of a block scalar, in either order: a depth of indentation, and what
-- becomes of the last line ends.
def blockHeader? : List Char → Option (Nat × Chomping × List Char)
  | c :: cs =>
    match chomping? c with
    | some chomp =>
      match cs with
      | d :: rest => if d.isDigit then (depth? d).map (·, chomp, rest) else some (0, chomp, cs)
      | [] => some (0, chomp, [])
    | none =>
      if c.isDigit then (depth? c).map fun depth =>
        match cs with
        | d :: rest =>
          match chomping? d with
          | some chomp => (depth, chomp, rest)
          | none => (depth, .clip, cs)
        | [] => (depth, .clip, [])
      else some (0, .clip, c :: cs)
  | [] => some (0, .clip, [])
where
  chomping? (c : Char) : Option Chomping :=
    if c == '+' then some .keep else if c == '-' then some .strip else none
  depth? (c : Char) : Option Nat := if c == '0' then none else some (c.toNat - '0'.toNat)

-- The text after the rest of a line that holds nothing but blanks and a comment.
def afterHeader? (cs : List Char) : Option (List Char) :=
  match cs.dropWhile fun c => c == ' ' || c == '\t' with
  | [] => some []
  | '#' :: rest => some ((rest.dropWhile (!isBreak ·)).drop 1)
  | c :: rest => if isBreak c then some rest else none

-- The empty lines and the indentation before the next line of a block scalar: their number, the
-- indentation of that line, the deepest one, and the text from there. While no `depth` is known
-- every blank belongs to the indentation. A tab does not.
def blockMargin? (depth : Nat) : Nat → Nat → Nat → List Char →
    Option (Nat × Nat × Nat × List Char)
  | 0, _, _, _ => none
  | fuel + 1, breaks, deepest, cs =>
    let blanks := (cs.takeWhile (· == ' ')).length
    let margin := if depth == 0 then blanks else min blanks depth
    let deepest := max deepest margin
    match cs.drop margin with
    | [] => some (breaks, margin, deepest, [])
    | c :: rest =>
      if c == '\t' && (depth == 0 || margin < depth) then none
      else if isBreak c then blockMargin? depth fuel (breaks + 1) deepest rest
      else some (breaks, margin, deepest, c :: rest)

-- What stands between two lines of a block scalar. When lines are folded, a line end between
-- lines that do not begin with blanks is a space, or nothing before empty lines.
def blockJoint (fold : Bool) (breaks : Nat) : List Char :=
  if fold then (if breaks == 0 then [' '] else List.replicate breaks '\n')
  else List.replicate (breaks + 1) '\n'

def startsBlank (cs : List Char) : Bool := cs.head? == some ' ' || cs.head? == some '\t'

-- The lines of a block scalar from one that is indented by `depth`, with the text after them and
-- its margin.
def blockLines? (folds : Bool) (chomp : Chomping) (depth : Nat) : Nat → List Char →
    Option (List Char × Nat × List Char)
  | 0, _ => none
  | fuel + 1, cs => do
    let (line, rest) := cs.span (!isBreak ·)
    let ended := !rest.isEmpty
    let (breaks, margin, _, after) ← blockMargin? depth (rest.length + 1) 0 0 (rest.drop 1)
    if margin == depth && !after.isEmpty then
      let (more, tail) ← blockLines? folds chomp depth fuel after
      let fold := folds && !startsBlank line && !startsBlank after
      return (line ++ blockJoint fold breaks ++ more, tail)
    else
      let last := if ended then ['\n'] else []
      let tail := match chomp with
        | .strip => []
        | .clip => last
        | .keep => last ++ List.replicate breaks '\n'
      return (line ++ tail, margin, after)

-- A block scalar after its mark, inside a block that is indented by `indent`.
def blockScalar (indent : Int) (folds : Bool) : Reader Yaml := do
  let cur ← get
  let (given, chomp, rest) ← blockHeader? cur.rest
  let body ← afterHeader? rest
  let least : Nat := (max indent 0).toNat
  let (breaks, margin, deepest, start) ←
    blockMargin? (if given == 0 then 0 else least + given) (body.length + 1) 0 0 body
  let depth := if given == 0 then max deepest (max (indent + 1) 1).toNat else least + given
  let blank := List.replicate breaks '\n'
  let (text, column, after) ←
    if margin == depth && !start.isEmpty then do
      let (text, column, after) ← blockLines? folds chomp depth (body.length + 1) start
      pure (blank ++ text, column, after)
    else pure (if chomp == .keep then blank else [], margin, start)
  let passed := cur.rest.countP isBreak - after.countP isBreak
  set { cur with rest := after, column, line := cur.line + passed }
  return .scalar (String.ofList text) .text

-- What may stand before a node: a tag, and the name that others refer to it by.
structure Properties where
  tag : Option String := none
  anchor : Option String := none
deriving DecidableEq, Inhabited

def Properties.isEmpty (p : Properties) : Bool := p.tag.isNone && p.anchor.isNone

def isNameChar (c : Char) : Bool := c.isAlphanum || c == '_' || c == '-'

def anchorName : Reader String := do
  let (name, after) := (← get).rest.span isNameChar
  let ends := blankNext after || after.head?.any ['?', ':', ',', ']', '\x7d', '%', '@', '\x60'].contains
  if name.isEmpty || !ends then failure
  else do
    skip name.length
    return String.ofList name

-- The prefix of the tags that every document knows.
def commonTags : List Char := "tag:yaml.org,2002:".toList

-- A tag in its short form, if its handle is known.
def shortTag? : List Char → Option String
  | ['!'] => some "!"
  | '!' :: '!' :: name => if name.isEmpty then none else some (String.ofList ('!' :: '!' :: name))
  | '!' :: '<' :: name =>
    match name.getLast? with
    | some '>' =>
      let uri := name.dropLast
      if uri.isEmpty then none
      else if commonTags.isPrefixOf uri then
        some (String.ofList ('!' :: '!' :: uri.drop commonTags.length))
      else some (String.ofList uri)
    | _ => none
  | '!' :: name => if name.contains '!' then none else some (String.ofList ('!' :: name))
  | _ => none

def tagText : Reader String := do
  let text := (← get).rest.takeWhile fun c => !(isBlank c || isFlowSign c && c != ',')
  match shortTag? text with
  | some tag => do
    skip text.length
    return tag
  | none => failure

def properties : Nat → Properties → Reader Properties
  | 0, p => return p
  | fuel + 1, p => do
    match (← get).rest with
    | '&' :: _ =>
      if p.anchor.isSome then failure
      else do
        skip 1
        let name ← anchorName
        skipInline
        properties fuel { p with anchor := some name }
    | '!' :: _ =>
      if p.tag.isSome then failure
      else do
        let tag ← tagText
        skipInline
        properties fuel { p with tag := some tag }
    | _ => return p

-- A node with its properties. From here on it may be referred to.
def finished (p : Properties) (y : Yaml) : Reader Yaml := do
  let y := p.tag.elim y y.withTag
  if let some name := p.anchor then
    modify fun cur => { cur with anchors := (name, y) :: cur.anchors }
  return y

def referred : Reader Yaml := do
  skip 1
  let name ← anchorName
  match (← get).anchors.lookup name with
  | some y => return y
  | none => failure

-- Whether nothing but a comment is left on the line.
def lineEnds : Reader Bool := do
  skipInline
  match (← get).rest with
  | [] => return true
  | c :: _ => return isBreak c || c == '#'

-- Whether the sign of a value comes next within a flow collection.
def flowValueNext : Reader Bool := do
  skipSpace
  return (← get).rest.head? == some ':'

mutual

def flowNode : Nat → Reader Yaml
  | 0 => failure
  | fuel + 1 => do
    skipSpace
    let p ← properties 3 {}
    skipSpace
    match (← get).rest with
    | '[' :: _ => do skip 1; finished p (.sequence (← flowItems fuel []))
    | '\x7b' :: _ => do skip 1; finished p (← ofEntries? (← flowEntries fuel []))
    | '*' :: _ => if p.isEmpty then referred else failure
    | c :: _ =>
      if !p.isEmpty && [',', ']', '\x7d', ':'].contains c then finished p .empty
      else do finished p (← scalar true 0 fuel)
    | [] => failure

-- The value after the colon of an entry, perhaps left out.
def flowValue : Nat → Reader Yaml
  | 0 => failure
  | fuel + 1 => do
    skip 1
    skipSpace
    match (← get).rest with
    | c :: _ => if c == ',' || c == ']' || c == '\x7d' then return .empty else flowNode fuel
    | [] => failure

-- The items after an opening bracket. A pair inside a sequence is a mapping of one entry.
def flowItems : Nat → List Yaml → Reader (List Yaml)
  | 0, _ => failure
  | fuel + 1, acc => do
    skipSpace
    match (← get).rest with
    | ']' :: _ => do skip 1; return acc.reverse
    | _ => do
      let item ← flowNode fuel
      let item ← if ← flowValueNext then do
          let v ← flowValue fuel
          ofEntries? [(item, v)]
        else pure item
      skipSpace
      match (← get).rest with
      | ',' :: _ => do skip 1; flowItems fuel (item :: acc)
      | ']' :: _ => flowItems fuel (item :: acc)
      | _ => failure

def flowEntries : Nat → List (Yaml × Yaml) → Reader (List (Yaml × Yaml))
  | 0, _ => failure
  | fuel + 1, acc => do
    skipSpace
    match (← get).rest with
    | '\x7d' :: _ => do skip 1; return acc.reverse
    | _ => do
      let key ← flowNode fuel
      let value ← if ← flowValueNext then flowValue fuel else pure .empty
      skipSpace
      match (← get).rest with
      | ',' :: _ => do skip 1; flowEntries fuel ((key, value) :: acc)
      | '\x7d' :: _ => flowEntries fuel ((key, value) :: acc)
      | _ => failure

end

-- Whether an entry of a block sequence comes next.
def dashNext (cs : List Char) : Bool :=
  match cs with
  | '-' :: rest => blankNext rest
  | _ => false

-- Whether the sign of a value comes next within a line of a block.
def blockValueNext : Reader Bool := do
  skipInline
  match (← get).rest with
  | ':' :: rest => return blankNext rest
  | _ => return false

-- What may stand before the colon of a block mapping.
def blockKey (indent : Int) (fuel : Nat) : Reader Yaml := do
  match (← get).rest with
  | '*' :: _ => referred
  | '[' :: _ | '\x7b' :: _ => flowNode fuel
  | _ => scalar false indent fuel

mutual

-- A value inside a block that is indented by `indent`. Under a key, a sequence may stand as
-- deep as the key itself. No block begins on a line that is `taken` by a key or a document mark,
-- and no key reaches over a line end.
def blockNode (indent : Int) (underKey taken : Bool) : Nat → Reader Yaml
  | 0 => failure
  | fuel + 1 => do
    let line := (← get).line
    skipBlock taken
    let cur ← get
    let taken := taken && cur.line == line
    if cur.rest.isEmpty || isMark cur then return .empty
    else if dashNext cur.rest then
      if taken then failure
      else if (cur.column : Int) > indent || (underKey && (cur.column : Int) == indent) then
        return .sequence (← blockItems cur.column ((cur.column : Int) == indent) fuel [])
      else return .empty
    else if (cur.column : Int) ≤ indent then return .empty
    else do
      let p ← properties 3 {}
      if !p.isEmpty && (← lineEnds) then finished p (← blockNode indent underKey true fuel)
      else match (← get).rest with
        | '|' :: _ => do skip 1; finished p (← blockScalar indent false)
        | '>' :: _ => do skip 1; finished p (← blockScalar indent true)
        | _ => do
          let node ← finished p (← blockKey indent fuel)
          if ← blockValueNext then
            if taken || (← get).line != cur.line then failure
            else ofEntries? (← blockEntries cur.column node fuel [])
          else return node

def blockItems (column : Nat) (sharing : Bool) : Nat → List Yaml → Reader (List Yaml)
  | 0, _ => failure
  | fuel + 1, acc => do
    skip 1
    let item ← blockNode column false false fuel
    skipBlock true
    let cur ← get
    if cur.rest.isEmpty || isMark cur || cur.column < column then return (item :: acc).reverse
    else if cur.column > column then failure
    else if dashNext cur.rest then blockItems column sharing fuel (item :: acc)
    else if sharing then return (item :: acc).reverse
    else failure

-- The entries of a mapping whose first key has been read.
def blockEntries (column : Nat) (key : Yaml) :
    Nat → List (Yaml × Yaml) → Reader (List (Yaml × Yaml))
  | 0, _ => failure
  | fuel + 1, acc => do
    skip 1
    let value ← blockNode column true true fuel
    let acc := (key, value) :: acc
    skipBlock true
    let cur ← get
    if cur.rest.isEmpty || isMark cur || cur.column < column then return acc.reverse
    else if cur.column > column then failure
    else do
      let p ← properties 3 {}
      let key ← finished p (← blockKey column fuel)
      if (← blockValueNext) && (← get).line == cur.line then blockEntries column key fuel acc
      else failure

end

-- The one document that starts here, perhaps after a mark.
def document (fuel : Nat) : Reader Yaml := do
  skipBlock false
  let cur ← get
  if isMark cur && cur.rest.head? == some '-' then
    skip 3
    blockNode (-1) false true fuel
  else blockNode (-1) false false fuel

end Reader

-- The first document of a text. An empty one is a scalar that was left out.
def read? (s : String) : Option Yaml :=
  let cs := s.toList
  let cs := if cs.head? == some '\ufeff' then cs.drop 1 else cs
  if cs.all Reader.isAllowed then
    let cs := Reader.unixLines cs
    ((Reader.document (2 * cs.length + 4)).run { rest := cs }).map (·.1)
  else none

end QueryTree.Yaml
