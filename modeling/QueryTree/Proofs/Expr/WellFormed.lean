import QueryTree.Proofs.Expr.Outline
import QueryTree.Proofs.Sql.Engine
import QueryTree.Proofs.Value.Portable

namespace QueryTree

open Number (isInt64)
open Text (isIdentifier)

-- An empty label is none.
def isLabel (label : String) : Bool := label.isEmpty || isIdentifier label

namespace Query

-- Stages follow each other as they may, and a window holds numbers of 64 bits.
def isProper : Query → Bool
  | .rows object => isIdentifier object
  | .filter q p => q.isProper && q.isFilterable && p.isLogic
  | .group q _ => q.isProper && q.isPlain
  | .having q p => q.isProper && q.isGroup && p.isLogic
  | .order q _ => q.isProper && q.isPlain
  | .window q offset limit =>
    q.isProper && q.isPlain && 0 ≤ offset && noLimit ≤ limit && isInt64 offset && isInt64 limit
  | .select q columns => q.isProper && q.isProjectable && columns.all (isLabel ·.label)

end Query

namespace Expr

-- The owner of a property: nothing, or identifiers between dots.
def isOwner (owner : String) : Bool :=
  owner.isEmpty || (segments owner.toList).all fun seg => isIdentifier (String.ofList seg)

def isSetOf (kind : SetKind) : Expr → Bool
  | .set k _ => k == kind
  | _ => false

-- The test of one node. The null literal counts as constant; other constants are booleans and
-- numbers.
def isProper : Expr → Bool
  | .value v const => v.isPortable && if v.isNull then const else !const || v.isPrimitive
  | .property owner name => isOwner owner && isIdentifier name
  | .unary op _ => op.isValid
  | .compare op _ _ => op.isValid
  | .compute op _ _ => op.isValid
  | .call name _ => isIdentifier name
  | .aggregate name arg _ => isIdentifier name && arg.all (!·.isNull)
  | .set kind items =>
    kind.isValid && items.all (!·.isSetOf kind) && (!kind.isLogical || items.all isLogic)
  | .related relation label inner tableArgs =>
    isIdentifier relation && isLabel label && inner.all (fun p => p.isLogic && !p.isNull) &&
      tableArgs.all isIdentifier
  | .fragment key arg => isIdentifier key && arg.isPortable
  | .query q => q.isProper

def isWellFormed (e : Expr) : Bool := e.everywhere isProper

-- Null is a constant, and other constants are primitive.
theorem literal_of_isProper {v : Value} {const : Bool} (h : (value v const).isProper = true) :
    v.isPortable = true ∧ (v.isNull = true → const = true) ∧
      (const = true → v.isNull = true ∨ v.isPrimitive = true) := by
  obtain ⟨hportable, hconst⟩ := Bool.and_eq_true_iff.mp h
  refine ⟨hportable, fun hnull => by rwa [if_pos hnull] at hconst, ?_⟩
  rintro rfl
  cases hnull : v.isNull with
  | true => exact .inl rfl
  | false =>
    rw [hnull] at hconst
    exact .inr hconst

end Expr

section Names

theorem LogicOp.ofName?_name {op : LogicOp} (hop : op.isValid = true) :
    LogicOp.ofName? op.name = some op := by
  have table : ∀ x ∈ LogicOp.table, LogicOp.ofName? x.1.name = some x.1 := by decide
  obtain ⟨s, hs⟩ := Option.isSome_iff_exists.mp hop
  exact table (op, s) (mem_of_lookup hs)

-- The names of the two families of operators differ.
theorem ValueOp.ofName?_name {op : ValueOp} (hop : op.isValid = true) :
    LogicOp.ofName? op.name = none ∧ ValueOp.ofName? op.name = some op := by
  have table : ∀ x ∈ ValueOp.table,
      LogicOp.ofName? x.1.name = none ∧ ValueOp.ofName? x.1.name = some x.1 := by decide
  obtain ⟨s, hs⟩ := Option.isSome_iff_exists.mp hop
  exact table (op, s) (mem_of_lookup hs)

theorem UnaryOp.ofName?_name {op : UnaryOp} (hop : op.isValid = true) :
    UnaryOp.ofName? op.name = some op := by
  have table : ∀ x ∈ UnaryOp.table, UnaryOp.ofName? x.1.name = some x.1 := by decide
  obtain ⟨s, hs⟩ := Option.isSome_iff_exists.mp hop
  exact table (op, s) (mem_of_lookup hs)

theorem SetKind.ofName?_name {kind : SetKind} (hkind : kind.isValid = true) :
    SetKind.ofName? kind.name = some kind := by
  have table : ∀ x ∈ SetKind.table, SetKind.ofName? x.1.name = some x.1 := by decide
  obtain ⟨s, hs⟩ := Option.isSome_iff_exists.mp hkind
  exact table (kind, s) (mem_of_lookup hs)

theorem checkIdentifier_eq_ok {s : String} (hs : isIdentifier s = true) (kind : String) :
    checkIdentifier kind s = .ok () :=
  if_pos hs

theorem forM_checkIdentifier {names : List String} (h : ∀ s ∈ names, isIdentifier s = true)
    (kind : String) : names.forM (checkIdentifier kind) = .ok () := by
  induction names with
  | nil => rfl
  | cons s names ih =>
    obtain ⟨hs, hnames⟩ := List.forall_mem_cons.mp h
    change (checkIdentifier kind s >>= fun _ => names.forM (checkIdentifier kind)) = _
    rw [checkIdentifier_eq_ok hs]
    exact ih hnames

end Names

end QueryTree
