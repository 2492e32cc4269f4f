import QueryTree.Expr.Display
import QueryTree.Value.Json

namespace QueryTree.Codec

-- A document whose constants are still values. Bound values are written first, so a bound value
-- without a JSON form is reported before a constant without one.
inductive Draft where
  | json (j : Json)
  | const (v : Value)
  | array (items : List Draft)
  | object (members : List (String × Draft))

def Draft.text (s : String) : Draft := .json (.string s)

def Draft.int (n : Int) : Draft := .json (.ofInt n)

-- A tagged node; the tag comes first in the order of names.
def Draft.node (tag : String) (members : List (String × Draft)) : Draft :=
  .object (("$", .text tag) :: members)

def boundJson (v : Value) : Except Error Json :=
  match v.toJson with
  | .ok j => .ok j
  | .error e => .error (.within ("encode parameter " ++ v.display) (.reported e.message))

-- Whether the first member of an object is one that marks a node.
def needsWrap : Json → Bool
  | .object ((name, _) :: _) => name == "@" || name == "$"
  | _ => false

def draftValue (v : Value) (const : Bool) : Except Error Draft :=
  match v with
  | .null => .ok (.json .null)
  | v =>
    if const then .ok (.node "const" [("v", .const v)])
    else do
      let j ← boundJson v
      return if needsWrap j then .node "value" [("v", .json j)] else .json j

mutual

def draft : Expr → Except Error Draft
  | .value v const => draftValue v const
  | .property owner name => .ok (.object [("@", .text (Expr.path owner name))])
  | .unary op x => do
    let x ← draft x
    return .node "unary" [("op", .text op.name), ("x", x)]
  | .compare op l r => do
    let l ← draft l
    let r ← draft r
    return .node "bin" [("l", l), ("op", .text op.name), ("r", r)]
  | .compute op l r => do
    let l ← draft l
    let r ← draft r
    return .node "bin" [("l", l), ("op", .text op.name), ("r", r)]
  | .call name args => do
    let args ← draftAll args
    return .node "func" [("args", .array args), ("name", .text name)]
  | .aggregate name arg distinct => do
    let arg ← draftOption "arg" arg
    let distinct := if distinct then [("distinct", Draft.json (.bool true))] else []
    return .node "aggregate" (arg ++ distinct ++ [("name", .text name)])
  | .set kind items => do
    let items ← draftAll items
    return .node "set" [("items", .array items), ("kind", .text kind.name)]
  | .related relation label inner tableArgs => do
    let label := if label.isEmpty then [] else [("alias", Draft.text label)]
    let inner ← draftOption "inner" inner
    let args := if tableArgs.isEmpty then [] else [("args", Draft.array (tableArgs.map .text))]
    return .node "foreign" (label ++ args ++ inner ++ [("relation", .text relation)])
  | .fragment key arg =>
    match arg with
    | .null => .ok (.node "sql" [("key", .text key)])
    | arg => do
      let j ← boundJson arg
      return .node "sql" [("arg", .json j), ("key", .text key)]
  | .query q => draftQuery q

def draftAll : List Expr → Except Error (List Draft)
  | [] => .ok []
  | e :: es => do
    let d ← draft e
    let ds ← draftAll es
    return d :: ds

def draftOption (name : String) : Option Expr → Except Error (List (String × Draft))
  | none => .ok []
  | some e => do
    let d ← draft e
    return [(name, d)]

def draftQuery : Query → Except Error Draft
  | .rows object => .ok (.node "from" [("object", .text object)])
  | .filter q p => do
    let q ← draftQuery q
    let p ← draft p
    return .node "where" [("predicate", p), ("source", q)]
  | .group q keys => do
    let q ← draftQuery q
    let keys ← draftAll keys
    return .node "groupby" [("keys", .array keys), ("source", q)]
  | .having q p => do
    let q ← draftQuery q
    let p ← draft p
    return .node "having" [("predicate", p), ("source", q)]
  | .order q keys => do
    let q ← draftQuery q
    let keys ← draftKeys keys
    return .node "orderby" [("keys", .array keys), ("source", q)]
  | .window q offset limit => do
    let q ← draftQuery q
    let take := if limit == noLimit then [] else [("take", Draft.int limit)]
    return .node "section" ([("skip", .int offset), ("source", q)] ++ take)
  | .select q columns => do
    let q ← draftQuery q
    let columns ← draftColumns columns
    return .node "select" [("columns", .array columns), ("source", q)]

def draftKeys : List (SortKey Expr) → Except Error (List Draft)
  | [] => .ok []
  | ⟨e, asc⟩ :: ks => do
    let d ← draft e
    let ds ← draftKeys ks
    return .object [("asc", .json (.bool asc)), ("x", d)] :: ds

def draftColumns : List (Column Expr) → Except Error (List Draft)
  | [] => .ok []
  | ⟨e, label⟩ :: cs => do
    let d ← draft e
    let ds ← draftColumns cs
    let label := if label.isEmpty then [] else [("as", Draft.text label)]
    return .object (label ++ [("x", d)]) :: ds

end

theorem draft_value (v : Value) (const : Bool) : draft (.value v const) = draftValue v const := by
  rw [draft]

theorem draftAll_nil : draftAll [] = .ok [] := by
  rw [draftAll]

theorem draftOption_none (name : String) : draftOption name none = .ok [] := by
  rw [draftOption]

theorem draftQuery_rows (object : String) :
    draftQuery (.rows object) = .ok (.node "from" [("object", .text object)]) := by
  rw [draftQuery]

theorem draftKeys_nil : draftKeys [] = .ok [] := by
  rw [draftKeys]

theorem draftColumns_nil : draftColumns [] = .ok [] := by
  rw [draftColumns]

mutual

def Draft.finish : Draft → Except Error Json
  | .json j => .ok j
  | .const v => v.toJson.mapError fun e => .reported e.message
  | .array items => do return .array (← finishAll items)
  | .object members => do return .object (← finishMembers members)

def finishAll : List Draft → Except Error (List Json)
  | [] => .ok []
  | d :: ds => do return (← d.finish) :: (← finishAll ds)

def finishMembers : List (String × Draft) → Except Error (List (String × Json))
  | [] => .ok []
  | (n, d) :: ds => do return (n, ← d.finish) :: (← finishMembers ds)

end

def encode (e : Expr) : Except Error Json := do (← draft e).finish

def encodeText (e : Expr) : Except Error String := do return (← encode e).write

end QueryTree.Codec
