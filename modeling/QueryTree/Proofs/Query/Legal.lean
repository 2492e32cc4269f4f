import QueryTree.Proofs.Expr.WellFormed
import QueryTree.Proofs.Query.Window

namespace QueryTree.Query

open Number (isInt64)

-- A query after each of its stages, the whole query first.
def stages : Query → List Query
  | .rows object => [.rows object]
  | .filter q p => .filter q p :: q.stages
  | .group q keys => .group q keys :: q.stages
  | .having q p => .having q p :: q.stages
  | .order q keys => .order q keys :: q.stages
  | .window q offset limit => .window q offset limit :: q.stages
  | .select q columns => .select q columns :: q.stages

-- Whether the last stage may stand where it does.
def isInPlace : Query → Bool
  | .rows _ => true
  | .filter q _ => q.isFilterable
  | .group q _ | .order q _ => q.isPlain
  | .having q _ => q.isGroup
  | .window q offset limit => q.isPlain && Window.isLegal ⟨offset, limit⟩
  | .select q _ => q.isProjectable

def isLegal (q : Query) : Bool := q.stages.all isInPlace

@[simp] theorem isLegal_filter (q : Query) (p : Expr) :
    (filter q p).isLegal = (q.isFilterable && q.isLegal) := rfl

@[simp] theorem isLegal_group (q : Query) (keys : List Expr) :
    (group q keys).isLegal = (q.isPlain && q.isLegal) := rfl

@[simp] theorem isLegal_having (q : Query) (p : Expr) :
    (having q p).isLegal = (q.isGroup && q.isLegal) := rfl

@[simp] theorem isLegal_order (q : Query) (keys : List (SortKey Expr)) :
    (order q keys).isLegal = (q.isPlain && q.isLegal) := rfl

@[simp] theorem isLegal_window (q : Query) (offset limit : Int) :
    (window q offset limit).isLegal =
      (q.isPlain && Window.isLegal ⟨offset, limit⟩ && q.isLegal) := rfl

@[simp] theorem isLegal_select (q : Query) (columns : List (Column Expr)) :
    (select q columns).isLegal = (q.isProjectable && q.isLegal) := rfl

theorem isLegal_of_source {q src : Query} (hsource : q.source? = some src)
    (hq : q.isLegal = true) : src.isLegal = true := by
  have hstages : q.stages = q :: src.stages := by
    cases q <;> cases hsource <;> rfl
  rw [isLegal, hstages, List.all_cons, Bool.and_eq_true] at hq
  exact hq.2

theorem isLegal_of_isProper {q : Query} (hq : q.isProper = true) : q.isLegal = true := by
  induction q with
  | rows object => rfl
  | filter q p ih => simp_all [isProper]
  | group q keys ih => simp_all [isProper]
  | having q p ih => simp_all [isProper]
  | order q keys ih => simp_all [isProper]
  | window q offset limit ih => simp_all [isProper, Window.isLegal]
  | select q columns ih => simp_all [isProper]

section Methods

variable {q q' : Query}

theorem isLegal_of_where {p : Expr} (hq : q.isLegal = true) (h : q.where? p = some q') :
    q'.isLegal = true := by
  cases q with
  | rows object => cases h; rfl
  | filter src p₀ => cases h; exact hq
  | _ => cases h

theorem isLegal_of_orderBy {keys : List (SortKey Expr)} (hq : q.isLegal = true)
    (h : q.orderBy? keys = some q') : q'.isLegal = true := by
  cases q with
  | order src ks => cases h; exact hq
  | rows object => cases h; rfl
  | filter src p => cases h; exact hq
  | window src offset limit => cases h; exact hq
  | _ => cases h

theorem isLegal_of_thenBy {keys : List (SortKey Expr)} (hq : q.isLegal = true)
    (h : q.thenBy? keys = some q') : q'.isLegal = true := by
  cases q with
  | order src ks => cases h; exact hq
  | _ => cases h

-- A window stands after plain rows. One directly before is replaced by it.
theorem isLegal_ofWindow {w : Window} (hplain : q.isPlain = true) (hw : w.isLegal = true)
    (hq : q.isLegal = true) : (ofWindow q w).isLegal = true := by
  rw [ofWindow, isLegal_window, hplain, hw, hq]
  rfl

theorem isLegal_of_skip {n : Int} (hn : isInt64 n = true) (hq : q.isLegal = true)
    (h : q.skip? n = some q') : q'.isLegal = true := by
  have hfresh := Window.isLegal_clamped hn (by decide : isInt64 noLimit = true)
  cases q with
  | window src offset limit =>
    cases h
    simp only [isLegal_window, Bool.and_eq_true] at hq
    exact isLegal_ofWindow hq.1.1 (Window.isLegal_skip _ n) hq.2
  | rows object => cases h; exact isLegal_ofWindow rfl hfresh rfl
  | filter src p | order src keys => cases h; exact isLegal_ofWindow rfl hfresh hq
  | _ => cases h

theorem isLegal_of_take {n : Int} (hn : isInt64 n = true) (hq : q.isLegal = true)
    (h : q.take? n = some q') : q'.isLegal = true := by
  have hfresh := Window.isLegal_clamped (by decide : isInt64 0 = true) hn
  cases q with
  | window src offset limit =>
    cases h
    simp only [isLegal_window, Bool.and_eq_true] at hq
    exact isLegal_ofWindow hq.1.1 (Window.isLegal_take hq.1.2 hn) hq.2
  | rows object => cases h; exact isLegal_ofWindow rfl hfresh rfl
  | filter src p | order src keys => cases h; exact isLegal_ofWindow rfl hfresh hq
  | _ => cases h

theorem isLegal_of_groupBy {keys : List Expr} (hq : q.isLegal = true)
    (h : q.groupBy? keys = some q') : q'.isLegal = true := by
  rw [groupBy?, Option.ite_none_right_eq_some] at h
  obtain ⟨hplain, ⟨⟩⟩ := h
  rw [isLegal_group, hplain, hq]
  rfl

theorem isLegal_of_addKeys {keys : List Expr} (hq : q.isLegal = true)
    (h : q.addKeys? keys = some q') : q'.isLegal = true := by
  cases q with
  | group src ks => cases h; exact hq
  | _ => cases h

theorem isLegal_of_having {p : Expr} (hq : q.isLegal = true) (h : q.having? p = some q') :
    q'.isLegal = true := by
  rw [having?, Option.ite_none_right_eq_some] at h
  obtain ⟨hgroup, ⟨⟩⟩ := h
  rw [isLegal_having, hgroup, hq]
  rfl

theorem isLegal_of_select {columns : List (Column Expr)} (hq : q.isLegal = true)
    (h : q.select? columns = some q') : q'.isLegal = true := by
  rw [select?, Option.ite_none_right_eq_some] at h
  obtain ⟨hprojectable, ⟨⟩⟩ := h
  rw [isLegal_select, hprojectable, hq]
  rfl

end Methods

-- The queries that methods make, one call after another, of rows and of decoded queries. Counts
-- have 64 bits.
inductive Built : Query → Prop
  | rows object : Built (.rows object)
  | proper {q} : q.isProper = true → Built q
  | restrict {q q' p} : Built q → q.where? p = some q' → Built q'
  | orderBy {q q' keys} : Built q → q.orderBy? keys = some q' → Built q'
  | thenBy {q q' keys} : Built q → q.thenBy? keys = some q' → Built q'
  | skip {q q' n} : Built q → isInt64 n = true → q.skip? n = some q' → Built q'
  | take {q q' n} : Built q → isInt64 n = true → q.take? n = some q' → Built q'
  | groupBy {q q' keys} : Built q → q.groupBy? keys = some q' → Built q'
  | addKeys {q q' keys} : Built q → q.addKeys? keys = some q' → Built q'
  | having {q q' p} : Built q → q.having? p = some q' → Built q'
  | select {q q' columns} : Built q → q.select? columns = some q' → Built q'

theorem isLegal_of_built {q : Query} (hq : Built q) : q.isLegal = true := by
  induction hq with
  | rows object => rfl
  | proper h => exact isLegal_of_isProper h
  | restrict _ h ih => exact isLegal_of_where ih h
  | orderBy _ h ih => exact isLegal_of_orderBy ih h
  | thenBy _ h ih => exact isLegal_of_thenBy ih h
  | skip _ hn h ih => exact isLegal_of_skip hn ih h
  | take _ hn h ih => exact isLegal_of_take hn ih h
  | groupBy _ h ih => exact isLegal_of_groupBy ih h
  | addKeys _ h ih => exact isLegal_of_addKeys ih h
  | having _ h ih => exact isLegal_of_having ih h
  | select _ h ih => exact isLegal_of_select ih h

end QueryTree.Query
