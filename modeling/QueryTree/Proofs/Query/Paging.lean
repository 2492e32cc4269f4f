import QueryTree.Proofs.Query.Legal

namespace QueryTree

open Number (isInt64)

-- A call that skips rows or takes some of them.
inductive Cut where
  | skip (n : Int)
  | take (n : Int)
deriving DecidableEq

namespace Cut

variable {ρ : Type}

def count : Cut → Int
  | skip n | take n => n

-- How many rows a call drops. A negative number drops none.
def dropped : Cut → Int
  | skip n => max n 0
  | take _ => 0

-- The rows that a call keeps. A negative number of rows to take restricts nothing.
def keep (l : List ρ) : Cut → List ρ
  | skip n => l.drop n.toNat
  | take n => if n < 0 then l else l.take n.toNat

def narrow (w : Window) : Cut → Window
  | skip n => w.skip n
  | take n => w.take n

def narrow? (q : Query) : Cut → Option Query
  | skip n => q.skip? n
  | take n => q.take? n

end Cut

def kept {ρ : Type} (cuts : List Cut) (l : List ρ) : List ρ := cuts.foldl Cut.keep l

def dropped : List Cut → Int
  | [] => 0
  | cut :: cuts => cut.dropped + dropped cuts

namespace Query

-- The query that a window at the end cuts, and that window. Without one all rows are shown.
def uncut : Query → Query
  | .window q _ _ => q
  | q => q

def lastWindow : Query → Window
  | .window _ offset limit => ⟨offset, limit⟩
  | _ => ⟨0, noLimit⟩

def page? (q : Query) (cuts : List Cut) : Option Query := cuts.foldlM Cut.narrow? q

theorem isLegal_lastWindow {q : Query} (hq : q.isLegal = true) : q.lastWindow.isLegal = true := by
  cases q with
  | window src offset limit =>
    simp only [isLegal_window, Bool.and_eq_true] at hq
    exact hq.1.2
  | _ => rfl

-- A first window is the one that shows all rows, narrowed.
theorem skip_all {n : Int} (hn : isInt64 n = true) :
    Window.clamped n noLimit = Window.skip ⟨0, noLimit⟩ n := by
  simp only [isInt64, Bool.and_eq_true, decide_eq_true_eq] at hn
  have hwrap : Window.wrap64 (0 + max n 0) = max n 0 := by
    rw [Int.zero_add]
    exact Window.wrap64_eq (by unfold maxOffset; omega) (by unfold maxOffset; omega)
  simp only [Window.skip, hwrap, Window.clamped, BEq.rfl, if_true, Window.mk.injEq, and_true]
  split <;> split <;> omega

theorem take_all (n : Int) : Window.clamped 0 n = Window.take ⟨0, noLimit⟩ n := by
  unfold Window.take
  split
  · simp only [Window.clamped, *, if_true]
    rfl
  · simp only [BEq.rfl, if_true]

theorem narrow?_eq {q : Query} (hplain : q.isPlain = true) {c : Cut}
    (hc : isInt64 c.count = true) :
    c.narrow? q = some (ofWindow q.uncut (c.narrow q.lastWindow)) := by
  cases c with
  | skip n =>
    cases q with
    | window src offset limit => rfl
    | rows object | filter src p | order src keys =>
      exact congrArg (some ∘ ofWindow _) (skip_all hc)
    | _ => cases hplain
  | take n =>
    cases q with
    | window src offset limit => rfl
    | rows object | filter src p | order src keys => exact congrArg (some ∘ ofWindow _) (take_all n)
    | _ => cases hplain

theorem page?_ofWindow (src : Query) (w : Window) {cuts : List Cut}
    (hcuts : ∀ c ∈ cuts, isInt64 c.count = true) :
    (ofWindow src w).page? cuts = some (ofWindow src (cuts.foldl Cut.narrow w)) := by
  induction cuts generalizing w with
  | nil => rfl
  | cons c cuts ih =>
    have hfirst := narrow?_eq (q := ofWindow src w) rfl (hcuts c List.mem_cons_self)
    have hrest := ih (c.narrow w) fun d hd => hcuts d (List.mem_cons_of_mem c hd)
    rw [page?, List.foldlM_cons, hfirst]
    exact hrest

theorem page?_eq {q : Query} (hplain : q.isPlain = true) {cuts : List Cut} (hne : cuts ≠ [])
    (hcuts : ∀ c ∈ cuts, isInt64 c.count = true) :
    q.page? cuts = some (ofWindow q.uncut (cuts.foldl Cut.narrow q.lastWindow)) := by
  cases cuts with
  | nil => exact absurd rfl hne
  | cons c cuts =>
    have hfirst := narrow?_eq hplain (hcuts c List.mem_cons_self)
    rw [page?, List.foldlM_cons, hfirst]
    exact page?_ofWindow q.uncut _ fun d hd => hcuts d (List.mem_cons_of_mem c hd)

end Query

namespace Window

variable {ρ : Type}

-- A window stands for rows that were dropped and cut: its limit is right, and its offset too as
-- long as it can be. The true offset is `sum`.
structure Stands (w : Window) (sum : Int) (l shown : List ρ) : Prop where
  isLegal : w.isLegal = true
  offset_le : w.offset ≤ sum
  offset_eq : sum ≤ maxOffset → w.offset = sum
  rows_eq : rows ⟨sum, w.limit⟩ l = shown

namespace Stands

variable {w : Window} {sum : Int} {l shown : List ρ}

theorem ofLegal (hw : w.isLegal = true) (l : List ρ) : Stands w w.offset l (w.rows l) :=
  ⟨hw, Int.le_refl _, fun _ => rfl, rfl⟩

theorem skip (h : Stands w sum l shown) {n : Int} (hn : isInt64 n = true) :
    Stands (w.skip n) (sum + max n 0) l (shown.drop n.toNat) := by
  have hoffset := ((isLegal_iff w).mp h.isLegal).1
  have hle := h.offset_le
  have hmoved := offset_skip h.isLegal hn
  refine ⟨isLegal_skip w n, ?_, fun hsum => ?_, ?_⟩
  · rw [hmoved]
    split <;> omega
  · rw [hmoved, h.offset_eq (by omega), if_pos hsum]
  · have hnone : n.toNat = (max n 0).toNat := by omega
    rw [limit_skip h.isLegal hn, ← h.rows_eq, hnone]
    exact rows_drop (w := ⟨sum, w.limit⟩) (Int.le_trans hoffset hle) (Int.le_max_right n 0) l

theorem take (h : Stands w sum l shown) {n : Int} (hn : isInt64 n = true) :
    Stands (w.take n) sum l (if n < 0 then shown else shown.take n.toNat) := by
  by_cases hnone : n < 0
  · rw [take_of_none hnone, if_pos hnone]
    exact h
  · have hlimit := ((isLegal_iff w).mp h.isLegal).2.2.1
    have hcut := take_eq h.isLegal (Int.not_lt.mp hnone)
    refine ⟨isLegal_take h.isLegal hn, ?_, ?_, ?_⟩
    · rw [hcut]
      exact h.offset_le
    · rw [hcut]
      exact h.offset_eq
    · rw [hcut, if_neg hnone, ← h.rows_eq]
      exact rows_shorten (w := ⟨sum, w.limit⟩) hlimit (Int.not_lt.mp hnone) l

theorem cut (h : Stands w sum l shown) {c : Cut} (hc : isInt64 c.count = true) :
    Stands (c.narrow w) (sum + c.dropped) l (c.keep shown) := by
  cases c with
  | skip n => exact h.skip hc
  | take n =>
    have hcut := h.take hc
    rwa [← Int.add_zero sum] at hcut

theorem cuts (h : Stands w sum l shown) {cs : List Cut}
    (hcs : ∀ c ∈ cs, isInt64 c.count = true) :
    Stands (cs.foldl Cut.narrow w) (sum + dropped cs) l (kept cs shown) := by
  induction cs generalizing w sum shown with
  | nil =>
    rw [← Int.add_zero sum] at h
    exact h
  | cons c cs ih =>
    have hfirst := h.cut (hcs c List.mem_cons_self)
    have hrest := ih hfirst fun d hd => hcs d (List.mem_cons_of_mem c hd)
    rwa [Int.add_assoc] at hrest

theorem rows_of_le (h : Stands w sum l shown) (hsum : sum ≤ maxOffset) : w.rows l = shown := by
  rw [← h.rows_eq, ← h.offset_eq hsum]

-- A limit of zero shows nothing from any offset.
theorem rows_of_limit (h : Stands w sum l shown) (hlimit : w.limit = 0) : w.rows l = shown := by
  rw [← h.rows_eq]
  simp only [rows, hlimit]
  rfl

-- Rows dropped by a number past the last offset are all gone, those of the window only if they
-- end before it begins or it has no room.
theorem rows_eq_iff (h : Stands w sum l shown) (hl : l.length ≤ maxOffset) :
    w.rows l = shown ↔ sum ≤ maxOffset ∨ w.limit = 0 ∨ l.length ≤ w.offset := by
  obtain ⟨hoffset, -, hlimit, -⟩ := (isLegal_iff w).mp h.isLegal
  by_cases hsum : sum ≤ maxOffset
  · exact iff_of_true (h.rows_of_le hsum) (Or.inl hsum)
  · have hgone : shown = [] := by
      have hdropped : l.drop sum.toNat = [] := List.drop_eq_nil_of_le (by omega)
      rw [← h.rows_eq, rows, hdropped]
      simp only [List.take_nil, ite_self]
    have hempty : w.rows l = [] ↔ w.limit = 0 ∨ l.length ≤ w.offset := by
      unfold rows noLimit at *
      split
      · rw [List.drop_eq_nil_iff]
        omega
      · rw [List.take_eq_nil_iff, List.drop_eq_nil_iff]
        omega
    rw [hgone, hempty]
    exact ⟨Or.inr, fun hcases => hcases.resolve_left hsum⟩

end Stands
end Window

-- Skipping and taking, in any order and any number of times, from rows, filtered or sorted rows or
-- a window, leaves one window over what was cut. It shows the rows that the calls keep if the
-- first offset and the skipped rows add up to an offset, or nothing is to be shown. Otherwise it
-- starts too early: among at most as many rows as there are offsets, it shows the right ones only
-- if they end before it begins.
theorem paged_rows {q : Query} (hplain : q.isPlain = true) (hq : q.isLegal = true)
    {cuts : List Cut} (hne : cuts ≠ []) (hcuts : ∀ c ∈ cuts, isInt64 c.count = true) :
    ∃ w : Window, q.page? cuts = some (.ofWindow q.uncut w) ∧ w.isLegal = true ∧
      ∀ (ρ : Type) (l : List ρ),
        (q.lastWindow.offset + dropped cuts ≤ maxOffset ∨ w.limit = 0 →
          w.rows l = kept cuts (q.lastWindow.rows l)) ∧
        (l.length ≤ maxOffset →
          (w.rows l = kept cuts (q.lastWindow.rows l) ↔
            q.lastWindow.offset + dropped cuts ≤ maxOffset ∨ w.limit = 0 ∨
              l.length ≤ w.offset)) := by
  have hstart := Query.isLegal_lastWindow hq
  have hstands (ρ : Type) (l : List ρ) := (Window.Stands.ofLegal hstart l).cuts hcuts
  refine ⟨cuts.foldl Cut.narrow q.lastWindow, Query.page?_eq hplain hne hcuts,
    (hstands Unit []).isLegal, fun ρ l => ⟨?_, (hstands ρ l).rows_eq_iff⟩⟩
  rintro (hsum | hlimit)
  · exact (hstands ρ l).rows_of_le hsum
  · exact (hstands ρ l).rows_of_limit hlimit

-- The third page of a window of a sorted query.
theorem paged_rows_third_page :
    ∃ w : Window,
      (Query.window (.order (.rows "User") []) 10 50).page? [.skip 40, .take 20, .skip (-1)] =
        some (.ofWindow (.order (.rows "User") []) w) ∧
      w.rows (List.range 100) =
        kept [.skip 40, .take 20, .skip (-1)] (Window.rows ⟨10, 50⟩ (List.range 100)) := by
  obtain ⟨w, hpage, -, hrows⟩ :=
    @paged_rows (.window (.order (.rows "User") []) 10 50) rfl (by decide)
      [.skip 40, .take 20, .skip (-1)] (by decide) (by decide)
  exact ⟨w, hpage, (hrows Nat (List.range 100)).1 (Or.inl (by decide))⟩

-- One row after the last offset is the first row: a page past the end shows the whole table.
theorem page_past_end_shows_all :
    (Query.rows "User").page? [.skip 9223372036854775807, .skip 1] =
        some (.ofWindow (.rows "User") ⟨0, noLimit⟩) ∧
      Window.rows ⟨0, noLimit⟩ ["first", "last"] = ["first", "last"] ∧
      kept [.skip 9223372036854775807, .skip 1] ["first", "last"] = [] := by
  exact ⟨rfl, by decide, by decide⟩

end QueryTree
