import QueryTree.Expr.Pipeline
import QueryTree.Proofs.Number.Integer

namespace QueryTree

-- The greatest number of rows that can be dropped.
def maxOffset : Int := 9223372036854775807

namespace Window

open Number (isInt64)

variable {ρ : Type}
variable {n limit : Int} {w outer : Window}

def rows (w : Window) (l : List ρ) : List ρ :=
  if w.limit = noLimit then l.drop w.offset.toNat else (l.drop w.offset.toNat).take w.limit.toNat

-- Windows that a query may hold: no negative offset, a limit or none, and numbers of 64 bits.
def isLegal (w : Window) : Bool :=
  0 ≤ w.offset && noLimit ≤ w.limit && isInt64 w.offset && isInt64 w.limit

theorem isLegal_iff (w : Window) : w.isLegal = true ↔
    0 ≤ w.offset ∧ w.offset ≤ maxOffset ∧ noLimit ≤ w.limit ∧ w.limit ≤ maxOffset := by
  simp only [isLegal, isInt64, Bool.and_eq_true, decide_eq_true_eq]
  unfold maxOffset noLimit
  omega

theorem wrap64_eq (hlow : -maxOffset ≤ n) (hhigh : n ≤ maxOffset) : wrap64 n = n := by
  have hwidth : Nat.pow 2 64 = 18446744073709551616 := rfl
  unfold maxOffset at hlow hhigh
  unfold wrap64 IntKind.wrap
  simp only [IntKind.signed, IntKind.bits, if_true, hwidth]
  apply Int.bmod_eq_of_le <;> omega

theorem clamped_eq {offset : Int} (hoffset : 0 ≤ offset) (hlimit : noLimit ≤ limit) :
    clamped offset limit = ⟨offset, limit⟩ := by
  unfold noLimit at hlimit
  unfold clamped noLimit
  rw [if_neg (by omega)]
  split
  · have hnone : limit = -1 := by omega
    rw [hnone]
  · rfl

theorem isInt64_wrap64 (n : Int) : isInt64 (wrap64 n) = true := by
  have hwidth : Nat.pow 2 64 = 18446744073709551616 := rfl
  have hlow := Int.le_bmod (x := n) (m := 18446744073709551616) (by decide)
  have hhigh := Int.bmod_lt (x := n) (m := 18446744073709551616) (by decide)
  unfold wrap64 IntKind.wrap isInt64
  simp only [IntKind.signed, IntKind.bits, if_true, hwidth, Bool.and_eq_true, decide_eq_true_eq]
  omega

theorem isLegal_clamped {offset : Int} (hoffset : isInt64 offset = true)
    (hlimit : isInt64 limit = true) : (clamped offset limit).isLegal = true := by
  simp only [isInt64, Bool.and_eq_true, decide_eq_true_eq] at hoffset hlimit
  rw [isLegal_iff]
  unfold clamped noLimit maxOffset
  split <;> split <;> simp only [] <;> omega

-- Whatever is skipped, also when the numbers wrap around, the window stays legal.
theorem isLegal_skip (w : Window) (n : Int) : (w.skip n).isLegal = true := by
  refine isLegal_clamped (isInt64_wrap64 _) ?_
  split
  · decide
  · have hwrapped := isInt64_wrap64 (w.limit - max n 0)
    simp only [isInt64, Bool.and_eq_true, decide_eq_true_eq] at hwrapped ⊢
    omega

theorem isLegal_take (hw : w.isLegal = true) (hn : isInt64 n = true) :
    (w.take n).isLegal = true := by
  have hw' := hw
  simp only [isLegal, Bool.and_eq_true] at hw'
  unfold take
  split
  · exact hw
  · refine isLegal_clamped hw'.1.2 ?_
    split
    · exact hn
    · rw [Int.min_def]
      split
      · exact hw'.2
      · exact hn

-- An offset past the last one wraps around to a negative number, which counts as zero.
theorem clamped_wrap64 (hlow : maxOffset < n) (hhigh : n ≤ 2 * maxOffset) :
    (clamped (wrap64 n) limit).offset = 0 := by
  have hwidth : Nat.pow 2 64 = 18446744073709551616 := rfl
  have hwrap : Int.bmod n 18446744073709551616 = n - 18446744073709551616 := by
    rw [← Int.sub_bmod_right, Int.bmod_eq_of_le] <;> unfold maxOffset at * <;> omega
  unfold wrap64 IntKind.wrap clamped
  simp only [IntKind.signed, IntKind.bits, if_true, hwidth, hwrap]
  unfold maxOffset at *
  rw [if_pos (by omega)]

theorem offset_skip (hw : w.isLegal = true) (hn : isInt64 n = true) :
    (w.skip n).offset =
      if w.offset + max n 0 ≤ maxOffset then w.offset + max n 0 else 0 := by
  obtain ⟨hoffset, hoffset', -, -⟩ := (isLegal_iff w).mp hw
  simp only [isInt64, Bool.and_eq_true, decide_eq_true_eq] at hn
  have hmax : (0 : Int) ≤ maxOffset := by decide
  unfold skip
  by_cases hsum : w.offset + max n 0 ≤ maxOffset
  · simp only [hsum, if_true]
    rw [wrap64_eq (by omega) hsum]
    exact if_neg (by omega)
  · rw [if_neg hsum]
    exact clamped_wrap64 (by omega) (by unfold maxOffset at *; omega)

theorem limit_skip (hw : w.isLegal = true) (hn : isInt64 n = true) :
    (w.skip n).limit = if w.limit = noLimit then noLimit else max (w.limit - max n 0) 0 := by
  obtain ⟨-, -, hlimit, hlimit'⟩ := (isLegal_iff w).mp hw
  simp only [isInt64, Bool.and_eq_true, decide_eq_true_eq] at hn
  unfold skip clamped
  simp only [beq_iff_eq]
  unfold noLimit maxOffset at *
  by_cases hnone : w.limit = -1
  · simp only [hnone, if_true]
    rfl
  · simp only [hnone, if_false]
    rw [wrap64_eq (by unfold maxOffset; omega) (by unfold maxOffset; omega)]
    exact if_neg (by omega)

theorem skip_eq (hw : w.isLegal = true) (hn : 0 ≤ n) (hsum : w.offset + n ≤ maxOffset) :
    w.skip n = ⟨w.offset + n, if w.limit = noLimit then noLimit else max (w.limit - n) 0⟩ := by
  have hoffset := ((isLegal_iff w).mp hw).1
  have hcount : isInt64 n = true := by
    simp only [isInt64, Bool.and_eq_true, decide_eq_true_eq]
    unfold maxOffset at hsum
    omega
  have hmoved := offset_skip hw hcount
  have hcut := limit_skip hw hcount
  rw [Int.max_eq_left hn] at hmoved hcut
  rw [if_pos hsum] at hmoved
  rw [← hmoved, ← hcut]

theorem take_eq (hw : w.isLegal = true) (hn : 0 ≤ n) :
    w.take n = ⟨w.offset, if w.limit = noLimit then n else min w.limit n⟩ := by
  obtain ⟨hoffset, -, hlimit, -⟩ := (isLegal_iff w).mp hw
  unfold take
  simp only [beq_iff_eq]
  rw [if_neg (by omega)]
  unfold noLimit at *
  split <;> exact clamped_eq hoffset (by unfold noLimit; omega)

theorem rows_drop (hoffset : 0 ≤ w.offset) (hn : 0 ≤ n) (l : List ρ) :
    rows ⟨w.offset + n, if w.limit = noLimit then noLimit else max (w.limit - n) 0⟩ l =
      (w.rows l).drop n.toNat := by
  have hdrop : (w.offset + n).toNat = w.offset.toNat + n.toNat := Int.toNat_add hoffset hn
  unfold rows
  by_cases hnone : w.limit = noLimit
  · simp only [hnone, if_true, hdrop, List.drop_drop]
  · have hkept : max (w.limit - n) 0 ≠ noLimit := by unfold noLimit; omega
    have hcount : (max (w.limit - n) 0).toNat = w.limit.toNat - n.toNat := by omega
    simp only [hnone, if_false, hkept, hdrop, hcount, List.drop_take, List.drop_drop]

theorem rows_shorten (hlimit : noLimit ≤ w.limit) (hn : 0 ≤ n) (l : List ρ) :
    rows ⟨w.offset, if w.limit = noLimit then n else min w.limit n⟩ l =
      (w.rows l).take n.toNat := by
  unfold rows noLimit at *
  by_cases hnone : w.limit = -1
  · have hkept : n ≠ -1 := by omega
    simp only [hnone, if_true, hkept, if_false]
  · have hkept : min w.limit n ≠ -1 := by omega
    have hcount : (min w.limit n).toNat = min n.toNat w.limit.toNat := by omega
    simp only [hnone, if_false, hkept, hcount, List.take_take]

theorem rows_skip (hw : w.isLegal = true) (hn : 0 ≤ n) (hsum : w.offset + n ≤ maxOffset)
    (l : List ρ) : (w.skip n).rows l = (w.rows l).drop n.toNat := by
  rw [skip_eq hw hn hsum]
  exact rows_drop ((isLegal_iff w).mp hw).1 hn l

theorem rows_take (hw : w.isLegal = true) (hn : 0 ≤ n) (l : List ρ) :
    (w.take n).rows l = (w.rows l).take n.toNat := by
  rw [take_eq hw hn]
  exact rows_shorten ((isLegal_iff w).mp hw).2.2.1 hn l

theorem take_of_none (hn : n < 0) : w.take n = w := if_pos hn

theorem rows_within {inner : Window} (hinner : inner.isLegal = true)
    (houter : outer.isLegal = true) (hsum : inner.offset + outer.offset ≤ maxOffset) (l : List ρ) :
    (inner.within outer).rows l = outer.rows (inner.rows l) := by
  obtain ⟨hoffset, -, hlimit, -⟩ := (isLegal_iff outer).mp houter
  have hskipped := rows_skip hinner hoffset hsum l
  unfold within
  by_cases hnone : outer.limit = noLimit
  · rw [take_of_none (by rw [hnone]; decide), hskipped]
    simp only [rows, hnone, if_true]
  · have hcut : 0 ≤ outer.limit := by unfold noLimit at *; omega
    rw [rows_take (isLegal_skip inner outer.offset) hcut, hskipped]
    simp only [rows, hnone, if_false]

theorem isLegal_within (inner : Window) (houter : outer.isLegal = true) :
    (inner.within outer).isLegal = true := by
  have houter' := houter
  simp only [isLegal, Bool.and_eq_true] at houter'
  exact isLegal_take (isLegal_skip inner outer.offset) houter'.2

theorem offset_within {inner : Window} (hinner : inner.isLegal = true)
    (houter : outer.isLegal = true) (hsum : inner.offset + outer.offset ≤ maxOffset) :
    (inner.within outer).offset = inner.offset + outer.offset := by
  have hoffset := ((isLegal_iff outer).mp houter).1
  have hskip : (inner.skip outer.offset).offset = inner.offset + outer.offset := by
    rw [skip_eq hinner hoffset hsum]
  unfold within
  by_cases hnone : outer.limit < 0
  · rw [take_of_none hnone, hskip]
  · rw [take_eq (isLegal_skip inner outer.offset) (by omega), hskip]

end Window
end QueryTree
