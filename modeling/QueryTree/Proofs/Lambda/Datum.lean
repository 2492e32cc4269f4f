import QueryTree.Lambda.Convert
import QueryTree.Proofs.Text.Utf8

namespace QueryTree

inductive Kind where
  | int | bool | text
deriving DecidableEq

-- A text is its octets.
inductive Datum where
  | int (n : Int)
  | bool (b : Bool)
  | text (octets : List UInt8)
deriving DecidableEq

namespace Datum

def kind : Datum → Kind
  | .int _ => .int
  | .bool _ => .bool
  | .text _ => .text

def truth? : Datum → Option Bool
  | .bool b => some b
  | _ => none

def same? (d e : Datum) : Option Bool := if d.kind = e.kind then some (decide (d = e)) else none

def less? : Datum → Datum → Option Bool
  | .int m, .int n => some (decide (m < n))
  | .text s, .text t => some (decide (s < t))
  | _, _ => none

def order? (d e : Datum) : Option Datum :=
  (d.less? e).bind fun less => (e.less? d).map fun greater =>
    .int (if less then -1 else if greater then 1 else 0)

end Datum

def Value.datum? : Value → Option Datum
  | .bool b => some (.bool b)
  | .int _ n => some (.int n)
  | .text s => some (.text (Text.Utf8.encode s))
  | .octets bs => some (.text bs)
  | _ => none

def Ty.kind? : Ty → Option Kind
  | .bool => some .bool
  | .int _ => some .int
  | .text => some .text
  | _ => none

namespace Lambda

def PrefixOp.result? : PrefixOp → Datum → Option Datum
  | .not, .bool b => some (.bool !b)
  | .minus, .int n => some (.int (-n))
  | .plus, .int n => some (.int n)
  | _, _ => none

def InfixOp.result? (op : InfixOp) (d e : Datum) : Option Datum :=
  match op, d, e with
  | .eq, d, e => (d.same? e).map .bool
  | .ne, d, e => (d.same? e).map fun b => .bool !b
  | .lt, d, e => (d.less? e).map .bool
  | .le, d, e => (e.less? d).map fun b => .bool !b
  | .gt, d, e => (e.less? d).map .bool
  | .ge, d, e => (d.less? e).map fun b => .bool !b
  | .both, .bool b, .bool c => some (.bool (b && c))
  | .either, .bool b, .bool c => some (.bool (b || c))
  | .add, .int m, .int n => some (.int (m + n))
  | .sub, .int m, .int n => some (.int (m - n))
  | .mul, .int m, .int n => some (.int (m * n))
  | .add, .text s, .text t => some (.text (s ++ t))
  | _, _, _ => none

def PrefixOp.kind? : PrefixOp → Kind → Option Kind
  | .not, .bool => some .bool
  | .minus, .int | .plus, .int => some .int
  | _, _ => none

-- Truth values may be equal but have no order.
def InfixOp.kind? : InfixOp → Kind → Kind → Option Kind
  | .eq, k, l | .ne, k, l => if k = l then some .bool else none
  | .lt, k, l | .le, k, l | .gt, k, l | .ge, k, l =>
    if k = l ∧ k ≠ .bool then some .bool else none
  | .both, .bool, .bool | .either, .bool, .bool => some .bool
  | .add, .int, .int | .sub, .int, .int | .mul, .int, .int => some .int
  | .add, .text, .text => some .text
  | _, _, _ => none

theorem PrefixOp.result?_of_kind {op : PrefixOp} {d : Datum} {k : Kind}
    (h : op.kind? d.kind = some k) : ∃ e, op.result? d = some e ∧ e.kind = k := by
  cases op <;> cases d <;> simp [kind?, Datum.kind] at h <;> subst h <;> exact ⟨_, rfl, rfl⟩

theorem InfixOp.result?_of_kind {op : InfixOp} {d e : Datum} {k : Kind}
    (h : op.kind? d.kind e.kind = some k) : ∃ f, op.result? d e = some f ∧ f.kind = k := by
  cases op <;> cases d <;> cases e <;> simp [kind?, Datum.kind] at h <;> subst h <;>
    exact ⟨_, rfl, rfl⟩

end Lambda

def UnaryOp.result? (op : UnaryOp) : Datum → Option Datum
  | .bool b => if op = .not then some (.bool !b) else none
  | .int n => if op = .negate then some (.int (-n)) else none
  | .text _ => none

def LogicOp.result? (op : LogicOp) (d e : Datum) : Option Datum :=
  if op = .equal then (d.same? e).map .bool
  else if op = .notEqual then (d.same? e).map fun b => .bool !b
  else if op = .less then (d.less? e).map .bool
  else if op = .lessOrEqual then (e.less? d).map fun b => .bool !b
  else if op = .greater then (e.less? d).map .bool
  else if op = .greaterOrEqual then (d.less? e).map fun b => .bool !b
  else none

def ValueOp.result? (op : ValueOp) : Datum → Datum → Option Datum
  | .int m, .int n =>
    if op = .add then some (.int (m + n))
    else if op = .subtract then some (.int (m - n))
    else if op = .multiply then some (.int (m * n))
    else none
  | .text s, .text t => if op = .concatenate then some (.text (s ++ t)) else none
  | _, _ => none

def SetKind.result? (kind : SetKind) (bs : List Bool) : Option Datum :=
  if kind = .and then some (.bool (bs.all id))
  else if kind = .or then some (.bool (bs.any id))
  else none

namespace Expr

mutual

def value? (props : String → Datum) : Expr → Option Datum
  | .value v _ => v.datum?
  | .property owner name => some (props (path owner name))
  | .unary op x => (x.value? props).bind op.result?
  | .compare op l r =>
    (l.value? props).bind fun d => (r.value? props).bind fun e => op.result? d e
  | .compute op l r =>
    (l.value? props).bind fun d => (r.value? props).bind fun e => op.result? d e
  | .set kind items => (truths? props items).bind kind.result?
  | _ => none

def truths? (props : String → Datum) : List Expr → Option (List Bool)
  | [] => some []
  | e :: es =>
    ((e.value? props).bind Datum.truth?).bind fun b => (truths? props es).map (b :: ·)

end

variable {props : String → Datum}

theorem truths?_append {xs ys : List Expr} {bs cs : List Bool} (hx : truths? props xs = some bs)
    (hy : truths? props ys = some cs) : truths? props (xs ++ ys) = some (bs ++ cs) := by
  induction xs generalizing bs with
  | nil =>
    obtain rfl : [] = bs := by simpa [truths?] using hx
    exact hy
  | cons x xs ih =>
    simp only [truths?, Option.bind_eq_some_iff, Option.map_eq_some_iff] at hx
    obtain ⟨b, hb, bs', hbs, rfl⟩ := hx
    simp only [List.cons_append, truths?, Option.bind_eq_some_iff, Option.map_eq_some_iff]
    exact ⟨b, hb, bs' ++ cs, ih hbs, rfl⟩

theorem truths?_spliced {kind : SetKind} {e : Expr} {b : Bool}
    (hkind : kind = .and ∨ kind = .or) (h : e.value? props = some (.bool b)) :
    ∃ bs, truths? props (spliced kind e) = some bs ∧ kind.result? bs = some (.bool b) := by
  by_cases hset : ∃ items, e = .set kind items
  · obtain ⟨items, rfl⟩ := hset
    rw [value?, Option.bind_eq_some_iff] at h
    obtain ⟨bs, hbs, hb⟩ := h
    exact ⟨bs, by simpa [spliced] using hbs, hb⟩
  · have halone : spliced kind e = [e] := by
      cases e with
      | set k items =>
        have hne : k ≠ kind := fun hk => hset ⟨items, by rw [hk]⟩
        simp [spliced, hne]
      | _ => rfl
    refine ⟨[b], by simp [halone, truths?, h, Datum.truth?], ?_⟩
    rcases hkind with rfl | rfl <;> simp [SetKind.result?]

theorem result?_append {kind : SetKind} {bs cs : List Bool} {b c : Bool}
    (hkind : kind = .and ∨ kind = .or) (hb : kind.result? bs = some (.bool b))
    (hc : kind.result? cs = some (.bool c)) :
    kind.result? (bs ++ cs) = some (.bool (if kind = .and then b && c else b || c)) := by
  rcases hkind with rfl | rfl <;> simp_all [SetKind.result?]

theorem value?_join {kind : SetKind} {l r : Expr} {b c : Bool} (hkind : kind = .and ∨ kind = .or)
    (hl : l.value? props = some (.bool b)) (hr : r.value? props = some (.bool c)) :
    (join kind [l, r]).value? props
      = some (.bool (if kind = .and then b && c else b || c)) := by
  obtain ⟨bs, hbs, hb⟩ := truths?_spliced hkind hl
  obtain ⟨cs, hcs, hc⟩ := truths?_spliced hkind hr
  have hitems : [l, r].flatMap (spliced kind) = spliced kind l ++ spliced kind r := by simp
  rw [join, value?, hitems, truths?_append hbs hcs, Option.bind_some]
  exact result?_append hkind hb hc

end Expr
end QueryTree
