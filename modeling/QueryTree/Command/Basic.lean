import QueryTree.Command.Flag

namespace QueryTree

-- How many arguments a command takes.
inductive Arity where
  | any
  | none
  | atMost (n : Nat)
  | exactly (n : Nat)
deriving DecidableEq, Inhabited

inductive Action where
  | compile
  | convert
  | dialects
  | help
deriving DecidableEq, Inhabited

-- A command. One without an action shows its help.
structure Command where
  name : String
  params : String := ""
  short : String
  long : String := ""
  flags : List Flag := []
  arity : Arity := .any
  action : Option Action := Option.none
deriving Inhabited

-- A program is a command with others below it. Its flags hold for all of them.
structure Program extends Command where
  commands : List Command

namespace Flag

def helpFor (name : String) : Flag :=
  { name := "help", usage := "help for " ++ name, kind := .switch, short := some 'h' }

def label (f : Flag) : String :=
  (match f.short with
    | some c => "  -" ++ c.toString ++ ", --"
    | none => "      --") ++ f.name ++
  (match f.kind with
    | .text => " string"
    | .switch => ""
    | .pairs => " stringToString")

-- What holds when a flag is left out, where that is worth a word.
def standing (f : Flag) : String := if f.kind == .pairs then " (default [])" else ""

def sorted (flags : List Flag) : List Flag := flags.mergeSort fun f g => decide (f.name ≤ g.name)

-- A line for each flag in the order of their names, with the usages in one column.
def usages (flags : List Flag) : String :=
  let width := flags.foldl (fun w f => max w f.label.length) 0
  "\n".intercalate ((sorted flags).map fun f =>
    f.label ++ String.ofList (List.replicate (width - f.label.length + 3) ' ') ++ f.usage ++
      f.standing)

end Flag

namespace Command

def nameWidth : Nat := 11

def padded (name : String) : String :=
  name ++ String.ofList (List.replicate (nameWidth - name.length) ' ')

-- Refuses a wrong number of arguments. `path` is the full name of the command.
def check (c : Command) (path : String) (args : List String) : Except Error Unit :=
  let refuse (wanted : String) : Except Error Unit :=
    .error (.reported ("accepts " ++ wanted ++ " arg(s), received " ++ toString args.length))
  match c.arity with
  | .any => .ok ()
  | .none =>
    match args with
    | [] => .ok ()
    | a :: _ => .error (.reported ("unknown command " ++ Text.quote a ++ " for " ++ Text.quote path))
  | .atMost n => if args.length ≤ n then .ok () else refuse ("at most " ++ toString n)
  | .exactly n => if args.length == n then .ok () else refuse (toString n)

def about (c : Command) : String :=
  (if c.long.isEmpty then c.short else c.long) ++ "\n\n"

end Command

namespace Program

def path (p : Program) (c : Command) : String := p.name ++ " " ++ c.name

def flagsOf (p : Program) (c : Command) : List Flag :=
  c.flags ++ Flag.helpFor c.name :: p.flags

def usage (p : Program) : String :=
  "Usage:\n  " ++ p.name ++ " [command]\n\nAvailable Commands:" ++
  String.join ((p.commands.mergeSort fun c d => decide (c.name ≤ d.name)).map fun c =>
    "\n  " ++ Command.padded c.name ++ " " ++ c.short) ++
  "\n\nFlags:\n" ++ Flag.usages (Flag.helpFor p.name :: p.flags) ++
  "\n\nUse \"" ++ p.name ++ " [command] --help\" for more information about a command.\n"

def help (p : Program) : String := p.about ++ p.usage

def usageOf (p : Program) (c : Command) : String :=
  "Usage:\n  " ++ p.path c ++ (if c.params.isEmpty then "" else " " ++ c.params) ++ " [flags]" ++
  "\n\nFlags:\n" ++ Flag.usages (c.flags ++ [Flag.helpFor c.name]) ++
  "\n\nGlobal Flags:\n" ++ Flag.usages p.flags ++ "\n"

def helpOf (p : Program) (c : Command) : String := c.about ++ p.usageOf c

end Program
end QueryTree
