import QueryTree.Proofs.Query.Legal
import QueryTree.Proofs.Sql.Formula
import QueryTree.Proofs.Sql.Outcome

namespace QueryTree

-- The clauses of one statement.
structure Plan where
  columns : List (Column Expr)
  filters : List Expr
  keys : List Expr
  groupFilters : List Expr
  order : List (SortKey Expr)
  window : Option Window

namespace Query

def columns : Query → List (Column Expr)
  | .rows _ => []
  | .select q columns => if q.hasSelect then q.columns else columns
  | .filter q _ | .group q _ | .having q _ | .order q _ | .window q _ _ => q.columns

-- The conditions on rows, the last stage first.
def filters : Query → List Expr
  | .rows _ => []
  | .filter q p => p :: q.filters
  | .group q _ | .having q _ | .order q _ | .window q _ _ | .select q _ => q.filters

def keys : Query → List Expr
  | .rows _ => []
  | .group _ keys => keys
  | .filter q _ | .having q _ | .order q _ | .window q _ _ | .select q _ => q.keys

def groupFilters : Query → List Expr
  | .rows _ => []
  | .having q p => p :: q.groupFilters
  | .filter q _ | .group q _ | .order q _ | .window q _ _ | .select q _ => q.groupFilters

def sortKeys : Query → List (SortKey Expr)
  | .rows _ => []
  | .order _ keys => keys
  | .filter q _ | .group q _ | .having q _ | .window q _ _ | .select q _ => q.sortKeys

def plan (q : Query) : Plan where
  columns := q.columns
  filters := q.filters
  keys := q.keys
  groupFilters := q.groupFilters
  order := q.sortKeys
  window := q.foldWindows none

end Query

section Rendering

open Render

variable (frag : FragmentRenderer) (ctx : Context)

def Render.clausesOf : List Expr → Render (List Sql)
  | [] => return []
  | p :: ps => clauseAfter (clausesOf ps) (clauseOf frag ctx p)

def Plan.render (p : Plan) : Render Sql :=
  assembled ctx p.window (columnList frag ctx p.columns) (clausesOf frag ctx p.filters)
    (exprs frag ctx p.keys) (clausesOf frag ctx p.groupFilters) (sortKeys frag ctx p.order)

theorem selection_eq_columnList (q : Query) :
    selection frag ctx q = columnList frag ctx q.columns := by
  induction q with
  | rows object => rfl
  | filter q p ih => exact ih
  | group q keys ih => exact ih
  | having q p ih => exact ih
  | order q keys ih => exact ih
  | window q offset limit ih => exact ih
  | select q columns ih =>
    simp only [selection, Query.columns]
    split
    · exact ih
    · rfl

theorem filters_eq_clausesOf (q : Query) :
    filters frag ctx q = clausesOf frag ctx q.filters := by
  induction q with
  | rows object => rfl
  | filter q p ih => rw [filters_filter, ih]; rfl
  | group q keys ih => exact ih
  | having q p ih => exact ih
  | order q keys ih => exact ih
  | window q offset limit ih => exact ih
  | select q columns ih => exact ih

theorem grouping_eq_exprs (q : Query) : grouping frag ctx q = exprs frag ctx q.keys := by
  induction q with
  | rows object => rfl
  | filter q p ih => exact ih
  | group q keys ih => rfl
  | having q p ih => exact ih
  | order q keys ih => exact ih
  | window q offset limit ih => exact ih
  | select q columns ih => exact ih

theorem groupFilters_eq_clausesOf (q : Query) :
    groupFilters frag ctx q = clausesOf frag ctx q.groupFilters := by
  induction q with
  | rows object => rfl
  | filter q p ih => exact ih
  | group q keys ih => exact ih
  | having q p ih => rw [groupFilters_having, ih]; rfl
  | order q keys ih => exact ih
  | window q offset limit ih => exact ih
  | select q columns ih => exact ih

theorem ordering_eq_sortKeys (q : Query) : ordering frag ctx q = sortKeys frag ctx q.sortKeys := by
  induction q with
  | rows object => rfl
  | filter q p ih => exact ih
  | group q keys ih => exact ih
  | having q p ih => exact ih
  | order q keys ih => rfl
  | window q offset limit ih => exact ih
  | select q columns ih => exact ih

theorem statement_eq_render (q : Query) : statement frag ctx q = q.plan.render frag ctx := by
  simp only [statement, Plan.render, Query.plan, selection_eq_columnList, filters_eq_clausesOf,
    grouping_eq_exprs, groupFilters_eq_clausesOf, ordering_eq_sortKeys]

theorem expr_query_eq_render (pos : Position) (q : Query) :
    expr frag ctx pos (.query q) =
      subquery ctx q.object fun inside => q.plan.render frag inside := by
  simp only [← statement_eq_render]
  rfl

end Rendering

-- What conditions, sort keys and columns mean on rows of any kind.
structure Interpretation (ρ : Type) where
  holds : Expr → ρ → Truth
  compare : Expr → ρ → ρ → Ordering
  project : List (Column Expr) → ρ → ρ

namespace Interpretation

variable {ρ : Type} (I : Interpretation ρ)

-- Rows are kept when the conjunction of the conditions is true, not when it is unknown.
def keeps (ps : List Expr) (r : ρ) : Bool :=
  (ps.foldr (fun p t => (I.holds p r).and t) .yes) == .yes

-- The first key that tells two rows apart decides.
def precedes : List (SortKey Expr) → ρ → ρ → Bool
  | [], _, _ => true
  | k :: ks, a, b =>
    match I.compare k.expr a b with
    | .lt => k.ascending
    | .gt => !k.ascending
    | .eq => precedes ks a b

-- Rows that no key tells apart stay in their order.
def sorted (keys : List (SortKey Expr)) (l : List ρ) : List ρ := l.mergeSort (I.precedes keys)

-- Without columns every row is shown as it is.
def shown (columns : List (Column Expr)) (l : List ρ) : List ρ :=
  if columns.isEmpty then l else l.map (I.project columns)

theorem keeps_cons (p : Expr) (ps : List Expr) (r : ρ) :
    I.keeps (p :: ps) r = (I.holds p r == .yes && I.keeps ps r) := by
  simp only [keeps, List.foldr_cons]
  generalize ps.foldr (fun p t => (I.holds p r).and t) .yes = t
  cases I.holds p r <;> cases t <;> rfl

theorem filter_keeps_nil (l : List ρ) : l.filter (I.keeps []) = l :=
  List.filter_eq_self.mpr fun _ _ => rfl

theorem filter_keeps_cons (p : Expr) (ps : List Expr) (l : List ρ) :
    l.filter (I.keeps (p :: ps)) = (l.filter (I.keeps ps)).filter (I.holds p · == .yes) := by
  rw [List.filter_filter]
  exact List.filter_congr fun r _ => I.keeps_cons p ps r

theorem sorted_nil (l : List ρ) : I.sorted [] l = l :=
  List.mergeSort_of_pairwise (List.pairwise_of_forall fun _ _ => rfl)

end Interpretation

def Window.cut {ρ : Type} (w : Option Window) (l : List ρ) : List ρ := w.elim l (·.rows l)

-- The rows of a plan without groups: conditions first, then the order, the window and the columns.
def Plan.eval {ρ : Type} (I : Interpretation ρ) (p : Plan) (l : List ρ) : List ρ :=
  I.shown p.columns (Window.cut p.window (I.sorted p.order (l.filter (I.keeps p.filters))))

namespace Query

variable {ρ : Type}

-- The rows that the stages yield one after another. Groups are no rows.
def eval (I : Interpretation ρ) (l : List ρ) : Query → Option (List ρ)
  | .rows _ => some l
  | .filter q p => (q.eval I l).map (List.filter (I.holds p · == .yes))
  | .order q keys => (q.eval I l).map (I.sorted keys)
  | .window q offset limit => (q.eval I l).map (Window.rows ⟨offset, limit⟩)
  | .select q columns => (q.eval I l).map (I.shown columns)
  | .group .. | .having .. => none

def isUngrouped : Query → Bool
  | .rows _ => true
  | .group .. => false
  | .filter q _ | .having q _ | .order q _ | .window q _ _ | .select q _ => q.isUngrouped

def sortCount : Query → Nat
  | .rows _ => 0
  | .order q _ => q.sortCount + 1
  | .filter q _ | .group q _ | .having q _ | .window q _ _ | .select q _ => q.sortCount

def isUncut : Query → Bool
  | .rows _ => true
  | .window .. => false
  | .filter q _ | .group q _ | .having q _ | .order q _ | .select q _ => q.isUncut

-- Whether rows are sorted only while none of them have been cut off.
def sortsFirst : Query → Bool
  | .rows _ => true
  | .order q _ => q.isUncut && q.sortsFirst
  | .filter q _ | .group q _ | .having q _ | .window q _ _ | .select q _ => q.sortsFirst

-- The number of rows that all windows drop together.
def offsets : Query → Int
  | .rows _ => 0
  | .window q offset _ => offset + q.offsets
  | .filter q _ | .group q _ | .having q _ | .order q _ | .select q _ => q.offsets

section Folding

variable {q : Query}

theorem plan_of_isFilterable (hq : q.isLegal = true) (hfilterable : q.isFilterable = true) :
    q.columns = [] ∧ q.sortKeys = [] ∧ ∀ outer, q.foldWindows outer = outer := by
  induction q with
  | rows object => exact ⟨rfl, rfl, fun _ => rfl⟩
  | filter q p ih =>
    rw [isLegal_filter, Bool.and_eq_true] at hq
    exact ih hq.2 hq.1
  | _ => cases hfilterable

theorem isPlain_of_isFilterable (hfilterable : q.isFilterable = true) : q.isPlain = true := by
  cases q with
  | rows object => rfl
  | filter q p => rfl
  | _ => cases hfilterable

theorem hasSelect_of_isPlain (hq : q.isLegal = true) (hplain : q.isPlain = true) :
    q.hasSelect = false ∧ q.columns = [] := by
  induction q with
  | rows object => exact ⟨rfl, rfl⟩
  | filter q p ih =>
    rw [isLegal_filter, Bool.and_eq_true] at hq
    exact ih hq.2 (isPlain_of_isFilterable hq.1)
  | order q keys ih =>
    rw [isLegal_order, Bool.and_eq_true] at hq
    exact ih hq.2 hq.1
  | window q offset limit ih =>
    simp only [isLegal_window, Bool.and_eq_true] at hq
    exact ih hq.2 hq.1.1
  | _ => cases hplain

theorem offsets_nonneg (hq : q.isLegal = true) : 0 ≤ q.offsets := by
  induction q with
  | rows object => exact Int.le_refl 0
  | filter q p ih => exact ih (isLegal_of_source rfl hq)
  | group q keys ih => exact ih (isLegal_of_source rfl hq)
  | having q p ih => exact ih (isLegal_of_source rfl hq)
  | order q keys ih => exact ih (isLegal_of_source rfl hq)
  | select q columns ih => exact ih (isLegal_of_source rfl hq)
  | window q offset limit ih =>
    simp only [isLegal_window, Bool.and_eq_true] at hq
    have hoffset : 0 ≤ offset := ((Window.isLegal_iff _).mp hq.1.2).1
    exact Int.add_nonneg hoffset (ih hq.2)

-- The folded window shows what the windows show one after another. The induction is over the
-- stages from the last one on, `outer` being what the later windows are folded into.
theorem cut_foldWindows (hq : q.isLegal = true) (outer : Option Window)
    (houter : ∀ w ∈ outer, w.isLegal = true)
    (hsum : q.offsets + outer.elim 0 (·.offset) ≤ maxOffset) (l : List ρ) :
    Window.cut (q.foldWindows outer) l = Window.cut outer (Window.cut (q.foldWindows none) l) := by
  induction q generalizing outer with
  | rows object => rfl
  | filter q p ih | group q keys ih | having q p ih | order q keys ih | select q columns ih =>
    exact ih (isLegal_of_source rfl hq) outer houter hsum
  | window q offset limit ih =>
    have hrest := isLegal_of_source rfl hq
    have hown : Window.isLegal ⟨offset, limit⟩ = true := by
      simp only [isLegal_window, Bool.and_eq_true] at hq
      exact hq.1.2
    have hbefore := offsets_nonneg hrest
    cases outer with
    | none => rfl
    | some w =>
      have hw : w.isLegal = true := houter w rfl
      have hoffset : 0 ≤ w.offset := ((Window.isLegal_iff w).mp hw).1
      change offset + q.offsets + w.offset ≤ maxOffset at hsum
      have hboth : offset + w.offset ≤ maxOffset := by omega
      have hwithin := ih hrest (some (Window.within ⟨offset, limit⟩ w))
        (by rintro _ ⟨⟩; exact Window.isLegal_within _ hw)
        (by simp only [Option.elim, Window.offset_within hown hw hboth]; omega)
      have hinner := ih hrest (some ⟨offset, limit⟩) (by rintro _ ⟨⟩; exact hown)
        (by simp only [Option.elim]; omega)
      calc Window.cut (q.foldWindows (some (Window.within ⟨offset, limit⟩ w))) l
          = (Window.within ⟨offset, limit⟩ w).rows (Window.cut (q.foldWindows none) l) := hwithin
        _ = w.rows (Window.rows ⟨offset, limit⟩ (Window.cut (q.foldWindows none) l)) :=
          Window.rows_within hown hw hboth _
        _ = w.rows (Window.cut (q.foldWindows (some ⟨offset, limit⟩)) l) := by rw [hinner]; rfl

theorem isFilterable_of_order {keys : List (SortKey Expr)} (hplain : q.isPlain = true)
    (hsorts : (order q keys).sortCount ≤ 1) (huncut : q.isUncut = true) :
    q.isFilterable = true := by
  cases q with
  | rows object => rfl
  | filter q p => rfl
  | order q ks =>
    change q.sortCount + 1 + 1 ≤ 1 at hsorts
    omega
  | window q offset limit => cases huncut
  | _ => cases hplain

theorem isPlain_of_isProjectable (hq : q.isLegal = true) (hungrouped : q.isUngrouped = true)
    (hprojectable : q.isProjectable = true) : q.isPlain = true := by
  cases q with
  | group q keys => cases hungrouped
  | having q p =>
    cases q with
    | group q keys => cases hungrouped
    | _ => simp [isGroup] at hq
  | select q columns => cases hprojectable
  | _ => rfl

theorem eval_eq_plan (I : Interpretation ρ) (l : List ρ) (hq : q.isLegal = true)
    (hungrouped : q.isUngrouped = true) (hsorts : q.sortCount ≤ 1) (hfirst : q.sortsFirst = true)
    (hsum : q.offsets ≤ maxOffset) : q.eval I l = some (q.plan.eval I l) := by
  induction q with
  | rows object =>
    simp only [eval, Plan.eval, plan, columns, filters, sortKeys, foldWindows,
      I.filter_keeps_nil, I.sorted_nil]
    rfl
  | filter q p ih =>
    have hrest := isLegal_of_source rfl hq
    rw [isLegal_filter, Bool.and_eq_true] at hq
    obtain ⟨hcolumns, hkeys, hwindow⟩ := plan_of_isFilterable hrest hq.1
    rw [eval, ih hrest hungrouped hsorts hfirst hsum]
    simp only [Plan.eval, plan, columns, filters, sortKeys, foldWindows, hcolumns, hkeys, hwindow,
      I.sorted_nil, I.filter_keeps_cons]
    rfl
  | group q keys ih => cases hungrouped
  | having q p ih =>
    cases q with
    | group q keys => cases hungrouped
    | _ => simp [isGroup] at hq
  | order q keys ih =>
    have hrest := isLegal_of_source rfl hq
    rw [isLegal_order, Bool.and_eq_true] at hq
    obtain ⟨huncut, hfirst'⟩ := Bool.and_eq_true_iff.mp hfirst
    have hfilterable := isFilterable_of_order hq.1 hsorts huncut
    obtain ⟨hcolumns, hkeys, hwindow⟩ := plan_of_isFilterable hrest hfilterable
    have hsorts' : q.sortCount ≤ 1 := Nat.le_of_succ_le hsorts
    rw [eval, ih hrest hungrouped hsorts' hfirst' hsum]
    simp only [Plan.eval, plan, columns, filters, sortKeys, foldWindows, hcolumns, hkeys, hwindow,
      I.sorted_nil]
    rfl
  | window q offset limit ih =>
    have hrest := isLegal_of_source rfl hq
    simp only [isLegal_window, Bool.and_eq_true] at hq
    obtain ⟨⟨hplain, hown⟩, -⟩ := hq
    obtain ⟨-, hcolumns⟩ := hasSelect_of_isPlain hrest hplain
    have hoffset : 0 ≤ offset := ((Window.isLegal_iff _).mp hown).1
    change offset + q.offsets ≤ maxOffset at hsum
    rw [eval, ih hrest hungrouped hsorts hfirst (by omega)]
    have hcut := cut_foldWindows hrest (some ⟨offset, limit⟩) (by rintro _ ⟨⟩; exact hown)
      (by simp only [Option.elim]; omega) (I.sorted q.sortKeys (l.filter (I.keeps q.filters)))
    simp only [Plan.eval, plan, columns, filters, sortKeys, foldWindows, hcolumns]
    exact congrArg some hcut.symm
  | select q columns ih =>
    have hrest := isLegal_of_source rfl hq
    rw [isLegal_select, Bool.and_eq_true] at hq
    obtain ⟨hselect, hcolumns⟩ :=
      hasSelect_of_isPlain hrest (isPlain_of_isProjectable hrest hungrouped hq.1)
    rw [eval, ih hrest hungrouped hsorts hfirst hsum]
    simp only [Plan.eval, plan, Query.columns, filters, sortKeys, foldWindows, hcolumns, hselect]
    rfl

end Folding
end Query

-- A legal query without groups, sorted at most once and before it is cut, is rendered from a plan
-- whose clauses yield the rows of its stages, for all rows and whatever its expressions mean.
theorem plan_keeps_rows (q : Query) (hq : q.isLegal = true) (hungrouped : q.isUngrouped = true)
    (hsorts : q.sortCount ≤ 1) (hfirst : q.sortsFirst = true) (hsum : q.offsets ≤ maxOffset) :
    (∀ frag ctx, Render.statement frag ctx q = q.plan.render frag ctx) ∧
      (∀ frag ctx pos, Render.expr frag ctx pos (.query q) =
        Render.subquery ctx q.object fun inside => q.plan.render frag inside) ∧
      ∀ (ρ : Type) (I : Interpretation ρ) (l : List ρ), q.eval I l = some (q.plan.eval I l) := by
  refine ⟨fun frag ctx => statement_eq_render frag ctx q,
    fun frag ctx pos => expr_query_eq_render frag ctx pos q, fun ρ I l => ?_⟩
  exact Query.eval_eq_plan I l hq hungrouped hsorts hfirst hsum

-- Two conditions, an order, three windows and a selection: what remains is the window of two rows
-- after the first six.
theorem plan_keeps_rows_paged :
    let adult := Expr.compare .greaterOrEqual (.property "" "Age") (.value (.int .int 18) false)
    let active := Expr.property "" "Active"
    let q := Query.select (.window (.window (.window (.order (.filter (.filter (.rows "User")
      adult) active) [⟨.property "" "Name", true⟩]) 1 10) 2 noLimit) 3 2) [⟨active, ""⟩]
    q.isLegal = true ∧ q.isUngrouped = true ∧ q.sortCount ≤ 1 ∧ q.sortsFirst = true ∧
      q.offsets ≤ maxOffset ∧ q.plan.window = some ⟨6, 2⟩ ∧
      ∀ (I : Interpretation Nat) (l : List Nat), q.eval I l = some (q.plan.eval I l) := by
  intro adult active q
  refine ⟨by decide, by decide, by decide, by decide, by decide, by decide, ?_⟩
  exact (plan_keeps_rows q (by decide) (by decide) (by decide) (by decide) (by decide)).2.2 Nat

end QueryTree
