import QueryTree.Operator
import QueryTree.Sql.Dialect

namespace QueryTree

-- Characters with a meaning in patterns, besides the escape character.
def likeSpecials : List Char := ['%', '_', '[']

def escapeLikeChars (escape : Char) (cs : List Char) : List Char :=
  cs.flatMap fun c => if c == escape || likeSpecials.contains c then [escape, c] else [c]

-- The pattern that matches exactly `s`.
def escapeLike (s : String) (escape : Char) : String :=
  String.ofList (escapeLikeChars escape s.toList)

-- Adds the wildcards that an operator implies.
def wrapPattern (op : LogicOp) (s : String) : String :=
  if op.positive == .startsWith then s ++ "%"
  else if op.positive == .endsWith then "%" ++ s
  else "%" ++ s ++ "%"

-- Escapes the text of an operand inside the statement, the escape character first.
def escapedOperand (escape : Char) (operand : Sql) : Sql :=
  (escape :: likeSpecials).foldl
    (fun s c => .text "REPLACE(" :: s ++
      [.text ", ", .string c.toString, .text ", ", .string (String.ofList [escape, c]), .text ")"])
    operand

-- Puts the wildcards of an operator around an operand.
def wildcards (d : Dialect) (op : LogicOp) (operand : Sql) : Sql :=
  let any : Sql := [.string "%"]
  if op.positive == .startsWith then d.concat [operand, any]
  else if op.positive == .endsWith then d.concat [any, operand]
  else d.concat [any, operand, any]

end QueryTree
