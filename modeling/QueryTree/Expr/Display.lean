import QueryTree.Expr.Pipeline
import QueryTree.Value.Display

namespace QueryTree

namespace Expr

def displayValue (v : Value) (const : Bool) : String :=
  match v with
  | .null => "NULL"
  | v =>
    if const then v.display
    else match v with
      | .text s => "@" ++ Text.quote s
      | .octets bs => "@" ++ Text.quoteOctets bs
      | v => "@" ++ v.display

def separator (kind : SetKind) : String :=
  if kind == .and then " AND "
  else if kind == .or then " OR "
  else if kind == .concat then " || "
  else ", "

def displayFragment (key : String) (arg : Value) : String :=
  if arg.isNull then "SQL[" ++ key ++ "]" else "SQL[" ++ key ++ "](" ++ arg.display ++ ")"

mutual

def display : Expr → String
  | .value v const => displayValue v const
  | .property owner name => path owner name
  | .unary op x => if op == .identity then x.display else op.symbol ++ x.display
  | .compare op l r => "(" ++ l.display ++ " " ++ op.symbol ++ " " ++ r.display ++ ")"
  | .compute op l r => "(" ++ l.display ++ " " ++ op.symbol ++ " " ++ r.display ++ ")"
  | .call name args => name ++ "(" ++ ", ".intercalate (displayAll args) ++ ")"
  | .aggregate name arg distinct =>
    name ++ "(" ++ (if distinct then "DISTINCT " else "") ++ (displayOption arg).getD "*" ++ ")"
  | .set kind items => "(" ++ (separator kind).intercalate (displayAll items) ++ ")"
  | .related relation label inner tableArgs =>
    "EXISTS(" ++ relation ++
      (if tableArgs.isEmpty then "" else "[" ++ ",".intercalate tableArgs ++ "]") ++
      (if label.isEmpty then "" else " " ++ label) ++
      (match displayOption inner with
        | some p => ": " ++ p
        | none => "") ++ ")"
  | .fragment key arg => displayFragment key arg
  | .query q => displayQuery q

def displayAll : List Expr → List String
  | [] => []
  | e :: es => e.display :: displayAll es

def displayOption : Option Expr → Option String
  | none => none
  | some e => some e.display

def displayQuery : Query → String
  | .rows object => "From(" ++ object ++ ")"
  | .filter q p => displayQuery q ++ ".Where(" ++ p.display ++ ")"
  | .group q keys => displayQuery q ++ ".GroupBy(" ++ ", ".intercalate (displayAll keys) ++ ")"
  | .having q p => displayQuery q ++ ".Having(" ++ p.display ++ ")"
  | .order q keys => displayQuery q ++ ".OrderBy(" ++ ", ".intercalate (displayKeys keys) ++ ")"
  | .window q offset limit =>
    displayQuery q ++
      (if limit == noLimit then ".Skip(" ++ toString offset ++ ")"
        else ".Section(" ++ toString offset ++ ", " ++ toString limit ++ ")")
  | .select q columns =>
    displayQuery q ++ ".Select(" ++ ", ".intercalate (displayColumns columns) ++ ")"

def displayKeys : List (SortKey Expr) → List String
  | [] => []
  | ⟨e, asc⟩ :: ks => (e.display ++ (if asc then " ASC" else " DESC")) :: displayKeys ks

def displayColumns : List (Column Expr) → List String
  | [] => []
  | ⟨e, label⟩ :: cs =>
    (e.display ++ (if label.isEmpty then "" else " AS " ++ label)) :: displayColumns cs

end

end Expr
end QueryTree
