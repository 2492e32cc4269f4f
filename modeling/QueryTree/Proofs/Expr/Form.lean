import Mathlib.Data.List.Forall2
import QueryTree.Expr.Members
import QueryTree.Proofs.Expr.Outline
import QueryTree.Proofs.Value.Akin

namespace QueryTree

-- A stand-in that tells of a value no more than its type.
def Value.typeOnly (v : Value) : Value :=
  match v.ty? with
  | some t => .nilPointer t
  | none => .null

theorem Value.typeOnly_eq_iff {v w : Value} : v.typeOnly = w.typeOnly ↔ v.ty? = w.ty? := by
  unfold typeOnly
  cases v.ty? <;> cases w.ty? <;> simp

namespace Expr

-- Constants stay, and so do the arguments of fragments.
def form (e : Expr) : Expr :=
  e.mapValues (fun v const => if const then v else v.typeOnly) id

@[simp] theorem form_value (v : Value) (const : Bool) :
    (value v const).form = value (if const then v else v.typeOnly) const := rfl

@[simp] theorem form_property (owner name : String) :
    (property owner name).form = property owner name := rfl

@[simp] theorem form_unary (op : UnaryOp) (x : Expr) : (unary op x).form = unary op x.form := rfl

@[simp] theorem form_compare (op : LogicOp) (l r : Expr) :
    (compare op l r).form = compare op l.form r.form := rfl

@[simp] theorem form_compute (op : ValueOp) (l r : Expr) :
    (compute op l r).form = compute op l.form r.form := rfl

@[simp] theorem form_call (name : String) (args : List Expr) :
    (call name args).form = call name (args.map form) :=
  congrArg (call name) (mapAll_eq _ _ args)

@[simp] theorem form_aggregate (name : String) (arg : Option Expr) (distinct : Bool) :
    (aggregate name arg distinct).form = aggregate name (arg.map form) distinct := by
  cases arg <;> rfl

@[simp] theorem form_set (kind : SetKind) (items : List Expr) :
    (set kind items).form = set kind (items.map form) :=
  congrArg (set kind) (mapAll_eq _ _ items)

@[simp] theorem form_related (relation label : String) (inner : Option Expr)
    (tableArgs : List String) :
    (related relation label inner tableArgs).form =
      related relation label (inner.map form) tableArgs := by
  cases inner <;> rfl

@[simp] theorem form_fragment (key : String) (arg : Value) :
    (fragment key arg).form = fragment key arg := rfl

@[simp] theorem form_query (q : Query) : (query q).form = query (q.mapParts form) :=
  congrArg query (mapQuery_eq _ _ q)

theorem form_spliced (kind : SetKind) (e : Expr) :
    (spliced kind e).map form = spliced kind e.form := by
  cases e with
  | set k items =>
    rw [form_set, spliced, spliced]
    split
    · rfl
    · rw [List.map_cons, form_set, List.map_nil]
  | _ => simp [spliced]

@[simp] theorem form_join (kind : SetKind) (items : List Expr) :
    (join kind items).form = join kind (items.map form) := by
  simp only [join, form_set, List.map_flatMap, List.flatMap_map, form_spliced]

theorem isComparable_form (e : Expr) : e.form.isComparable = e.isComparable := by
  cases e <;> rfl

theorem kindName_form (e : Expr) : e.form.kindName = e.kindName := by
  cases e with
  | query q => cases q <;> rfl
  | _ => rfl

theorem literal_of_form {e : Expr} {v : Value} {const : Bool}
    (h : (value v const).form = e.form) :
    ∃ w, e = value w const ∧ v.ty? = w.ty? ∧ (const = true → v = w) := by
  cases e <;> simp only [form_value, form_property, form_unary, form_compare, form_compute,
    form_call, form_aggregate, form_set, form_related, form_fragment, form_query,
    reduceCtorEq, Expr.value.injEq] at h
  case value w const' =>
    obtain ⟨hv, rfl⟩ := h
    refine ⟨w, rfl, ?_, fun hc => by simpa [hc] using hv⟩
    cases const with
    | true => rw [show v = w by simpa using hv]
    | false => exact Value.typeOnly_eq_iff.mp (by simpa using hv)

-- What looks at no more of a literal than its type, and at nothing else bound, is the same for
-- expressions of one form.
theorem congr_of_form {β : Type} {f : Expr → β}
    (hvalue : ∀ v w const, v.ty? = w.ty? → f (.value v const) = f (.value w const))
    (hother : ∀ e, (∀ v const, e ≠ .value v const) → f e.form = f e) {d e : Expr}
    (h : d.form = e.form) : f d = f e := by
  by_cases hd : ∃ v const, d = .value v const
  · obtain ⟨v, const, rfl⟩ := hd
    obtain ⟨w, rfl, ht, -⟩ := literal_of_form h
    exact hvalue v w const ht
  · have hd' : ∀ v const, d ≠ .value v const := fun v const hv => hd ⟨v, const, hv⟩
    have he : ∀ v const, e ≠ .value v const := by
      rintro v const rfl
      obtain ⟨w, rfl, -⟩ := literal_of_form h.symm
      exact hd' w const rfl
    rw [← hother d hd', h, hother e he]

theorem property_of_form {e : Expr} {owner name : String}
    (h : (property owner name).form = e.form) : e = property owner name := by
  cases e <;> simp only [form_value, form_property, form_unary, form_compare, form_compute,
    form_call, form_aggregate, form_set, form_related, form_fragment, form_query,
    reduceCtorEq] at h
  exact h.symm

end Expr

inductive Operand.Akin : Operand → Operand → Prop
  | value {v w : Value} (h : v.Akin w) : Akin (.value v) (.value w)
  | expr {d e : Expr} (h : d.form = e.form) : Akin (.expr d) (.expr e)

namespace Operand

theorem toExpr_value (v : Value) : (Operand.value v).toExpr = .value v v.isNull := by
  cases v <;> rfl

theorem Akin.toExpr {a b : Operand} (h : Akin a b) : a.toExpr.form = b.toExpr.form := by
  cases h with
  | expr h => exact h
  | @value v w h =>
    simp only [toExpr_value, Expr.form_value, ← h.isNull]
    cases hv : v.isNull with
    | false => simpa using Value.typeOnly_eq_iff.mpr h.ty?
    | true =>
      have hw := h.isNull.symm.trans hv
      have hnull : ∀ x : Value, x.isNull = true → x = .null := by
        intro x hx
        cases x with
        | null => rfl
        | _ => cases hx
      rw [hnull v hv, hnull w hw]

end Operand

namespace Expr

theorem form_members_value {v w : Value} (h : v.Akin w) :
    (members [.value v]).form = (members [.value w]).form := by
  simp only [members, h.items?_isSome]
  split
  · exact congrArg (value · false) (Value.typeOnly_eq_iff.mpr h.ty?)
  · rfl

theorem members_several (a b : Operand) (rest : List Operand) :
    members (a :: b :: rest) = .value (.items ((a :: b :: rest).map Operand.toValue)) false := by
  cases a <;> rfl

theorem form_members {as bs : List Operand} (h : List.Forall₂ Operand.Akin as bs) :
    (members as).form = (members bs).form := by
  cases h with
  | nil => rfl
  | cons hab hrest =>
    cases hrest with
    | nil =>
      cases hab with
      | value h => exact form_members_value h
      | expr h => exact h
    | cons =>
      rw [members_several, members_several]
      rfl

end Expr

namespace Query

def form (q : Query) : Query := q.mapParts Expr.form

section Stages

variable {g : Expr → Expr} (q : Query)

def mapKey (g : Expr → Expr) (k : SortKey Expr) : SortKey Expr := ⟨g k.expr, k.ascending⟩

def mapColumn (g : Expr → Expr) (c : Column Expr) : Column Expr := ⟨g c.expr, c.label⟩

theorem mapParts_where? (hg : ∀ kind items, g (.join kind items) = .join kind (items.map g))
    (p : Expr) : (q.where? p).map (mapParts g) = (q.mapParts g).where? (g p) := by
  cases q with
  | filter q p₀ => simp [where?, mapParts, Expr.and, hg]
  | _ => rfl

theorem mapParts_orderBy? (keys : List (SortKey Expr)) :
    (q.orderBy? keys).map (mapParts g) = (q.mapParts g).orderBy? (keys.map (mapKey g)) := by
  cases q <;> rfl

theorem mapParts_thenBy? (keys : List (SortKey Expr)) :
    (q.thenBy? keys).map (mapParts g) = (q.mapParts g).thenBy? (keys.map (mapKey g)) := by
  cases q with
  | order q ks => simp [thenBy?, mapParts, mapKey]
  | _ => rfl

theorem mapParts_skip? (n : Int) : (q.skip? n).map (mapParts g) = (q.mapParts g).skip? n := by
  cases q <;> rfl

theorem mapParts_take? (n : Int) : (q.take? n).map (mapParts g) = (q.mapParts g).take? n := by
  cases q <;> rfl

theorem mapParts_groupBy? (keys : List Expr) :
    (q.groupBy? keys).map (mapParts g) = (q.mapParts g).groupBy? (keys.map g) := by
  cases q <;> rfl

theorem mapParts_having? (p : Expr) :
    (q.having? p).map (mapParts g) = (q.mapParts g).having? (g p) := by
  cases q <;> rfl

theorem mapParts_select? (columns : List (Column Expr)) :
    (q.select? columns).map (mapParts g) = (q.mapParts g).select? (columns.map (mapColumn g)) := by
  cases q <;> rfl

end Stages

end Query
end QueryTree
