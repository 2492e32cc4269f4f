import QueryTree.Expr.Display
import QueryTree.Json.Reader
import QueryTree.Value.Normal

namespace QueryTree

mutual

-- The canonical value of a JSON document.
def Value.ofJson : Json → Value
  | .null => .null
  | .bool b => .bool b
  | .number t => Value.normalNumber t
  | .string s => .text s
  | .octets bs => .text (Text.Utf8.decode bs)
  | .array items => .items (Value.ofJsonItems items)
  | .object members => .mapOf .text .any (Value.ofJsonMembers members)

def Value.ofJsonItems : List Json → List Value
  | [] => []
  | j :: js => Value.ofJson j :: Value.ofJsonItems js

def Value.ofJsonMembers : List (String × Json) → List (Value × Value)
  | [] => []
  | (n, j) :: ms => (.text n, Value.ofJson j) :: Value.ofJsonMembers ms

end

namespace Codec

theorem sizeOf_last? {members : List (String × Json)} {name : String} {v : Json}
    (h : Json.last? members name = some v) : sizeOf v < sizeOf members := by
  induction members with
  | nil => simp [Json.last?] at h
  | cons m rest ih =>
    obtain ⟨n, w⟩ := m
    simp only [Json.last?] at h
    split at h
    · next u hu =>
      cases h
      have := ih hu
      simp only [List.cons.sizeOf_spec]
      omega
    · split at h
      · cases h
        simp only [List.cons.sizeOf_spec, Prod.mk.sizeOf_spec]
        omega
      · cases h

abbrev Members := List (String × Json)

def child (path key : String) : String := path ++ "." ++ key

def index (path : String) (i : Nat) : String := path ++ "[" ++ toString i ++ "]"

def fail (path reason : String) : Except Error α := .error (.decode path reason)

-- A member that is absent or null counts as missing.
def present? (ms : Members) (key : String) : Option Json :=
  match Json.last? ms key with
  | some .null | none => none
  | some v => some v

def requiredText (path : String) (ms : Members) (key : String) : Except Error String :=
  match present? ms key with
  | none => fail (child path key) "missing"
  | some (.string s) => .ok s
  | some _ => fail (child path key) "must be a string"

def optionalText (path : String) (ms : Members) (key : String) : Except Error String :=
  match present? ms key with
  | none => .ok ""
  | some (.string s) => .ok s
  | some _ => fail (child path key) "must be a string"

def flag (path : String) (ms : Members) (key : String) : Except Error Bool :=
  match present? ms key with
  | none => .ok false
  | some (.bool b) => .ok b
  | some _ => fail (child path key) "must be a boolean"

def number (path : String) (ms : Members) (key : String) (default : Int) : Except Error Int :=
  match present? ms key with
  | none => .ok default
  | some (.number t) =>
    match Number.readInt64? t.toList with
    | some n => .ok n
    | none => fail (child path key) "must be an integer"
  | some _ => fail (child path key) "must be a number"

-- The items of an array member; a missing one has none.
def items (path : String) (ms : Members) (key : String) : Except Error (List Json) :=
  match Json.last? ms key with
  | none | some .null => .ok []
  | some (.array js) => .ok js
  | some _ => fail (child path key) "must be an array"

theorem sizeOf_members_pos (ms : Members) : 0 < sizeOf ms := by
  cases ms with
  | nil => simp only [List.nil.sizeOf_spec]; omega
  | cons m rest => simp only [List.cons.sizeOf_spec]; omega

theorem sizeOf_items {path key : String} {ms : Members} {js : List Json}
    (h : items path ms key = .ok js) : sizeOf js < sizeOf ms + 1 := by
  have hpos := sizeOf_members_pos ms
  unfold items at h
  split at h
  · cases h
    simp only [List.nil.sizeOf_spec]
    omega
  · cases h
    simp only [List.nil.sizeOf_spec]
    omega
  · next ks hk =>
    cases h
    have := sizeOf_last? hk
    simp only [Json.array.sizeOf_spec] at this
    omega
  · cases h

def texts (path : String) : Nat → List Json → Except Error (List String)
  | _, [] => .ok []
  | i, .string s :: js => do return s :: (← texts path (i + 1) js)
  | i, _ :: _ => fail (index path i) "must be a string"

-- Puts a refused value at its place in the document.
def refused (path : String) (r : Except Error α) : Except Error α :=
  r.mapError (.decodeCause path)

def logicAt (path : String) (e : Expr) : Except Error Expr :=
  if e.isLogic then .ok e else fail path (e.display ++ " is not a predicate")

def checkLogic (path : String) : Nat → List Expr → Except Error Unit
  | _, [] => .ok ()
  | i, e :: es => do
    discard (logicAt (index path i) e)
    checkLogic path (i + 1) es

def boundValue (j : Json) : Expr := Expr.bound (Value.ofJson j)

def decodeProperty (path : String) (ms : Members) : Except Error Expr :=
  match Json.last? ms "@" with
  | some (.string s) => refused (child path "@") (Expr.ofPath s)
  | _ => fail (child path "@") "property path must be a string"

def decodeConst (path : String) (ms : Members) : Except Error Expr :=
  match present? ms "v" with
  | none => .ok .null
  | some v => refused (child path "v") (Expr.constant (Value.ofJson v))

def binaryOf (path op : String) (l r : Expr) : Except Error Expr :=
  match LogicOp.ofName? op with
  | some o => .ok (.compare o l r)
  | none =>
    match ValueOp.ofName? op with
    | some o => .ok (.compute o l r)
    | none => fail (child path "op") ("unknown operator " ++ Text.quote op)

def queryOf (path : String) : Expr → Except Error Query
  | .query q => .ok q
  | e => fail path (e.display ++ " is not a query")

-- A stage after a query that does not allow it.
def misplaced (path stage : String) (q : Query) : Except Error α :=
  .error (.decodeCause (child path "source") (.pipeline stage q.stage))

mutual

def decodeAt (path : String) (j : Json) : Except Error Expr :=
  match j with
  | .object (("@", v) :: ms) => decodeProperty path (("@", v) :: ms)
  | .object (("$", v) :: ms) =>
    match Json.last? (("$", v) :: ms) "$" with
    | some (.string tag) => decodeNode path (("$", v) :: ms) tag
    | _ => fail (child path "$") "tag must be a string"
  | j => .ok (boundValue j)
termination_by (sizeOf j, 2)

def decodeNode (path : String) (ms : Members) (tag : String) : Except Error Expr :=
  match tag with
  | "value" => .ok (boundValue ((Json.last? ms "v").getD .null))
  | "const" => decodeConst path ms
  | "bin" => do
    let op ← requiredText path ms "op"
    let l ← decodeMember path ms "l"
    let r ← decodeMember path ms "r"
    binaryOf path op l r
  | "unary" => do
    let name ← requiredText path ms "op"
    match UnaryOp.ofName? name with
    | none => fail (child path "op") ("unknown operator " ++ Text.quote name)
    | some op =>
      let x ← decodeMember path ms "x"
      return .unary op x
  | "func" => do
    let name ← requiredText path ms "name"
    let args ← decodeList path ms "args"
    refused (child path "name") (Expr.func name args)
  | "aggregate" => do
    let name ← requiredText path ms "name"
    let arg ← decodeOption path ms "arg"
    let distinct ← flag path ms "distinct"
    refused (child path "name") (Expr.aggregated name arg distinct)
  | "set" => do
    let name ← requiredText path ms "kind"
    match SetKind.ofName? name with
    | none => fail (child path "kind") ("unknown set kind " ++ Text.quote name)
    | some kind =>
      let es ← decodeList path ms "items"
      if kind.isLogical then checkLogic (child path "items") 0 es
      return Expr.join kind es
  | "foreign" => do
    let relation ← requiredText path ms "relation"
    let label ← optionalText path ms "alias"
    let inner ← decodeOption path ms "inner"
    if let some e := inner then discard (logicAt (child path "inner") e)
    let args ← texts (child path "args") 0 (← items path ms "args")
    refused path (Expr.existing relation label inner args)
  | "sql" => do
    let key ← requiredText path ms "key"
    let arg := (Json.last? ms "arg").elim .null Value.ofJson
    refused (child path "key") (Expr.sql key arg)
  | "from" => do
    let object ← requiredText path ms "object"
    return .query (← refused (child path "object") (Query.ofObject object))
  | "where" | "groupby" | "having" | "orderby" | "section" | "select" => do
    let source ← decodeMember path ms "source"
    let q ← queryOf (child path "source") source
    decodeStage path ms tag q
  | tag => fail (child path "$") ("unknown tag " ++ Text.quote tag)
termination_by (sizeOf ms, 3)

def decodeStage (path : String) (ms : Members) (tag : String) (q : Query) : Except Error Expr :=
  match tag with
  | "where" =>
    if q.isFilterable then do
      let p ← decodeMember path ms "predicate"
      return .query (.filter q (← logicAt (child path "predicate") p))
    else misplaced path "Where" q
  | "groupby" =>
    if q.isPlain then do
      let keys ← decodeList path ms "keys"
      return .query (.group q keys)
    else misplaced path "GroupBy" q
  | "having" =>
    if q.isGroup then do
      let p ← decodeMember path ms "predicate"
      return .query (.having q (← logicAt (child path "predicate") p))
    else misplaced path "Having" q
  | "orderby" =>
    if q.isPlain then do
      match _h : items path ms "keys" with
      | .error e => .error e
      | .ok js =>
        let keys ← decodeKeys (child path "keys") 0 js
        return .query (.order q keys)
    else misplaced path "OrderBy" q
  | "section" =>
    if q.isPlain then do
      let skip ← number path ms "skip" 0
      let take ← number path ms "take" noLimit
      if skip < 0 then fail (child path "skip") "must not be negative"
      else return .query (.window q skip (if take < 0 then noLimit else take))
    else misplaced path "Section" q
  | _ =>
    if q.isProjectable then do
      match _h : items path ms "columns" with
      | .error e => .error e
      | .ok js =>
        let columns ← decodeColumns (child path "columns") 0 js
        return .query (.select q columns)
    else misplaced path "Select" q
termination_by (sizeOf ms, 2)
decreasing_by
  all_goals try have bound := sizeOf_items _h
  all_goals omega

def decodeMember (path : String) (ms : Members) (key : String) : Except Error Expr :=
  match _h : Json.last? ms key with
  | none => fail (child path key) "missing"
  | some v => decodeAt (child path key) v
termination_by (sizeOf ms, 0)
decreasing_by
  have := sizeOf_last? _h
  omega

-- A member that may be absent or null.
def decodeOption (path : String) (ms : Members) (key : String) : Except Error (Option Expr) :=
  match _h : Json.last? ms key with
  | none | some .null => .ok none
  | some v => do return some (← decodeAt (child path key) v)
termination_by (sizeOf ms, 0)
decreasing_by
  have := sizeOf_last? _h
  omega

def decodeList (path : String) (ms : Members) (key : String) : Except Error (List Expr) :=
  match _h : items path ms key with
  | .error e => .error e
  | .ok js => decodeItems (child path key) 0 js
termination_by (sizeOf ms, 1)
decreasing_by
  have := sizeOf_items _h
  omega

def decodeItems (path : String) (i : Nat) (js : List Json) : Except Error (List Expr) :=
  match js with
  | [] => .ok []
  | j :: js => do
    let e ← decodeAt (index path i) j
    let es ← decodeItems path (i + 1) js
    return e :: es
termination_by (sizeOf js, 0)

def decodeKeys (path : String) (i : Nat) (js : List Json) : Except Error (List (SortKey Expr)) :=
  match js with
  | [] => .ok []
  | .object ms :: js => do
    let e ← decodeMember (index path i) ms "x"
    let asc ← flag (index path i) ms "asc"
    let ks ← decodeKeys path (i + 1) js
    return ⟨e, asc⟩ :: ks
  | _ :: _ => fail (index path i) "order key must be an object"
termination_by (sizeOf js, 0)

def decodeColumns (path : String) (i : Nat) (js : List Json) : Except Error (List (Column Expr)) :=
  match js with
  | [] => .ok []
  | .object ms :: js => do
    let e ← decodeMember (index path i) ms "x"
    let label ← optionalText (index path i) ms "as"
    unless label.isEmpty do
      refused (child (index path i) "as") (checkIdentifier "alias" label)
    let cs ← decodeColumns path (i + 1) js
    return ⟨e, label⟩ :: cs
  | _ :: _ => fail (index path i) "column must be an object"
termination_by (sizeOf js, 0)

end

section Equations

variable {path : String} {ms : Members} {i : Nat}

theorem decodeAt_null : decodeAt path .null = .ok .null := by
  rw [decodeAt]
  · rfl
  · simp
  · simp

theorem decodeNode_value :
    decodeNode path ms "value" = .ok (boundValue ((Json.last? ms "v").getD .null)) := by
  rw [decodeNode]

theorem decodeStage_group {q : Query} (h : q.isPlain = true) :
    decodeStage path ms "groupby" q = do
      let keys ← decodeList path ms "keys"
      return .query (.group q keys) := by
  rw [decodeStage, if_pos h]

theorem decodeItems_nil : decodeItems path i [] = .ok [] := by
  rw [decodeItems]

theorem decodeKeys_nil : decodeKeys path i [] = .ok [] := by
  rw [decodeKeys]

theorem decodeColumns_nil : decodeColumns path i [] = .ok [] := by
  rw [decodeColumns]

end Equations

def decode (j : Json) : Except Error Expr := decodeAt "$" j

-- The expression at the front of a text.
def decodeText (s : String) : Except Error Expr :=
  match Json.readPrefix s with
  | .ok (j, _) => decode j
  | .error fault => .error (.invalidJson fault.message)

end Codec
end QueryTree
