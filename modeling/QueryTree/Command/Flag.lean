import QueryTree.Error
import QueryTree.Text.Separated

namespace QueryTree

inductive FlagKind where
  | text
  -- On when it stands alone.
  | switch
  -- Names with values, which add up over the whole line.
  | pairs
deriving DecidableEq, Inhabited

structure Flag where
  name : String
  usage : String
  kind : FlagKind := .text
  short : Option Char := none
deriving DecidableEq, Inhabited

namespace Flag

def truths : List (String × Bool) :=
  ["1", "t", "T", "TRUE", "true", "True"].map (·, true) ++
    ["0", "f", "F", "FALSE", "false", "False"].map (·, false)

def unpaired (s : String) : String := s ++ " must be formatted as key=value"

-- A name and its value around the first equals sign.
def pair (s : String) : Except String (String × String) :=
  match s.toList.span (· != '=') with
  | (name, _ :: value) => .ok (String.ofList name, String.ofList value)
  | (_, []) => .error (unpaired s)

def trimQuotes (s : String) : String :=
  let drop (cs : List Char) := cs.dropWhile (· == '"')
  String.ofList (drop (drop s.toList).reverse).reverse

-- The pairs of one value. Several of them are separated by commas.
def pairs (s : String) : Except String (List (String × String)) :=
  match s.toList.count '=' with
  | 0 => .error (unpaired s)
  | 1 => do return [← pair (trimQuotes s)]
  | _ => do (← (Text.Separated.record s).mapError (·.message)).mapM pair

def fault? (f : Flag) (value : String) : Option String :=
  match f.kind with
  | .text => none
  | .switch =>
    if (truths.lookup value).isSome then none
    else some ("strconv.ParseBool: parsing " ++ Text.quote value ++ ": invalid syntax")
  | .pairs =>
    match pairs value with
    | .ok _ => none
    | .error why => some why

-- The flag as it is named in messages.
def title (f : Flag) : String :=
  match f.short with
  | some c => "-" ++ c.toString ++ ", --" ++ f.name
  | none => "--" ++ f.name

-- The value of the flag when it stands alone.
def bareValue? (f : Flag) : Option String := if f.kind == .switch then some "true" else none

def give (f : Flag) (value : String) : Except Error (String × String) :=
  match f.fault? value with
  | some why =>
    .error (.reported ("invalid argument " ++ Text.quote value ++ " for " ++ Text.quote f.title ++
      " flag: " ++ why))
  | none => .ok (f.name, value)

end Flag

-- What one word of a command line says about flags, and whether it takes the next word as a value.
structure Flagged where
  given : List (String × String) := []
  takesNext : Bool := false
deriving DecidableEq, Inhabited

namespace Flagged

def fail (text : String) : Except Error Flagged := .error (.reported text)

def within (f : Flag) (value : String) : Except Error Flagged := do
  return { given := [← f.give value] }

def beside (f : Flag) (value : String) : Except Error Flagged := do
  return { given := [← f.give value], takesNext := true }

-- The octet that a character starts with, as a character of its own.
def leadingOctet (c : Char) : Char :=
  match (Text.Utf8.encode c.toString).head? with
  | some b => Char.ofNat b.toNat
  | none => c

-- The letters of a short form. Flags that need no value may stand before others.
def ofLetters (flags : List Flag) (next : Option String) : List Char → Except Error Flagged
  | [] => .ok {}
  | c :: cs =>
    let letters := "-" ++ String.ofList (c :: cs)
    match flags.find? (·.short == some c) with
    | none =>
      fail ("unknown shorthand flag: " ++ Text.quoteRune (leadingOctet c) ++ " in " ++ letters)
    | some f =>
      match cs, f.bareValue? with
      | '=' :: d :: ds, _ => within f (String.ofList (d :: ds))
      | cs, some value => do
        let first ← f.give value
        let rest ← ofLetters flags next cs
        return { rest with given := first :: rest.given }
      | d :: ds, none => within f (String.ofList (d :: ds))
      | [], none =>
        match next with
        | some value => beside f value
        | none => fail ("flag needs an argument: " ++ Text.quoteRune c ++ " in " ++ letters)

def ofName (flags : List Flag) (next : Option String) (cs : List Char) : Except Error Flagged :=
  let (name, value) := cs.span (· != '=')
  if name.isEmpty || name.head? == some '-' then fail ("bad flag syntax: --" ++ String.ofList cs)
  else
    match flags.find? (·.name == String.ofList name) with
    | none => fail ("unknown flag: --" ++ String.ofList name)
    | some f =>
      match value, f.bareValue?, next with
      | _ :: value, _, _ => within f (String.ofList value)
      | [], some value, _ => within f value
      | [], none, some value => beside f value
      | [], none, none => fail ("flag needs an argument: --" ++ f.name)

end Flagged

-- What a command line says: the values of flags in their order, and the other arguments.
structure Options where
  given : List (String × String) := []
  args : List String := []
deriving DecidableEq, Inhabited

namespace Options

-- Reads a command line. Two dashes alone end the flags.
def read (flags : List Flag) : List String → Except Error Options
  | [] => .ok {}
  | word :: words => do
    let flagged? := match word.toList with
      | ['-', '-'] => none
      | '-' :: '-' :: cs => some (Flagged.ofName flags words.head? cs)
      | '-' :: c :: cs => some (Flagged.ofLetters flags words.head? (c :: cs))
      | _ => none
    match flagged? with
    | some flagged =>
      let flagged ← flagged
      let rest ← match flagged.takesNext, words with
        | true, _ :: others => read flags others
        | _, words => read flags words
      return { rest with given := flagged.given ++ rest.given }
    | none =>
      if word == "--" then return { args := words }
      let rest ← read flags words
      return { rest with args := word :: rest.args }

def values (o : Options) (name : String) : List String :=
  (o.given.filter (·.1 == name)).map (·.2)

def text (o : Options) (name : String) : String := (o.values name).getLast?.getD ""

def isOn (o : Options) (name : String) : Bool := ((Flag.truths.lookup (o.text name))).getD false

-- The pairs of a flag, each name with its last value.
def pairs (o : Options) (name : String) : List (String × String) :=
  ((o.values name).flatMap fun s => (Flag.pairs s).toOption.getD []).foldl
    (fun found (k, v) => found.filter (·.1 != k) ++ [(k, v)]) []

end Options
end QueryTree
