import Mathlib.Algebra.Order.Field.Power
import Mathlib.Algebra.Order.Field.Rat
import Mathlib.Tactic.FieldSimp
import Mathlib.Tactic.Linarith
import Mathlib.Tactic.NormNum
import Mathlib.Tactic.Positivity
import Mathlib.Tactic.Ring
import QueryTree.Number.Binary

namespace QueryTree

variable {fmt : FloatFormat} {negative : Bool} {num den m : Nat} {e : Int}

theorem roundDiv_eq_of_nat {q : Nat} (hden : 0 < den) (hlow : 2 * (q * den) ≤ 2 * num + den)
    (hhigh : 2 * num ≤ 2 * (q * den) + den)
    (htie : q % 2 = 0 ∨ (2 * (q * den) < 2 * num + den ∧ 2 * num < 2 * (q * den) + den)) :
    roundDiv num den = q := by
  have hdiv := Nat.div_add_mod num den
  have hmod := Nat.mod_lt num hden
  rw [roundDiv]
  generalize num / den = a at hdiv ⊢
  generalize num % den = r at hdiv hmod ⊢
  rw [Nat.mul_comm] at hdiv
  -- The quotient is the number or the one below it.
  have hle : q ≤ a + 1 := by
    by_contra hlt
    have : (a + 2) * den ≤ q * den := Nat.mul_le_mul_right den (by omega)
    rw [Nat.add_mul] at this
    omega
  have hge : a ≤ q := by
    by_contra hlt
    have : (q + 1) * den ≤ a * den := Nat.mul_le_mul_right den (by omega)
    rw [Nat.add_mul] at this
    omega
  obtain rfl | rfl : q = a ∨ q = a + 1 := by omega
  · grind
  · rw [Nat.add_mul] at *
    grind

theorem roundDiv_eq {q : Nat} (hden : 0 < den) (hlow : (q : ℚ) - 1 / 2 ≤ num / den)
    (hhigh : (num : ℚ) / den ≤ q + 1 / 2)
    (htie : q % 2 = 0 ∨ ((q : ℚ) - 1 / 2 < num / den ∧ (num : ℚ) / den < q + 1 / 2)) :
    roundDiv num den = q := by
  have hpos : (0 : ℚ) < den := Nat.cast_pos.mpr hden
  rw [le_div_iff₀ hpos, div_le_iff₀ hpos, lt_div_iff₀ hpos, div_lt_iff₀ hpos] at *
  refine roundDiv_eq_of_nat hden ?_ ?_ ?_
  · have : (2 * (q * den) : ℚ) ≤ 2 * num + den := by linarith
    exact_mod_cast this
  · have : (2 * num : ℚ) ≤ 2 * (q * den) + den := by linarith
    exact_mod_cast this
  · refine htie.imp id fun h => ?_
    have hlow : (2 * (q * den) : ℚ) < 2 * num + den := by linarith
    have hhigh : (2 * num : ℚ) < 2 * (q * den) + den := by linarith
    exact ⟨by exact_mod_cast hlow, by exact_mod_cast hhigh⟩

theorem le_roundDiv {k : Nat} (hden : 0 < den) (h : k * den ≤ num) : k ≤ roundDiv num den := by
  have hq : k ≤ num / den := (Nat.le_div_iff_mul_le hden).mpr h
  unfold roundDiv
  grind

theorem roundDiv_le {k : Nat} (hden : 0 < den) (h : num ≤ k * den) : roundDiv num den ≤ k := by
  have hdiv := Nat.div_add_mod num den
  have hq : num / den ≤ k := by
    rw [Nat.div_le_iff_le_mul hden]
    omega
  rcases Nat.eq_or_lt_of_le hq with heq | hlt
  · -- At the bound itself nothing is left to round up.
    have hrest : num % den = 0 := by
      rw [heq, Nat.mul_comm] at hdiv
      omega
    simp only [roundDiv, hrest, Nat.mul_zero, if_pos hden, heq, le_refl]
  · unfold roundDiv
    grind

namespace FloatFormat

-- Formats that are no wider than the double.
structure IsProper (fmt : FloatFormat) : Prop where
  one_lt : 1 < fmt.precision
  precision_le : fmt.precision ≤ 53
  le_least : -1074 ≤ fmt.least
  least_le : fmt.least ≤ 0
  range : fmt.least ≤ fmt.greatest
  greatest_le : fmt.greatest ≤ 971

theorem isProper_double : double.IsProper := by
  constructor <;> decide

theorem isProper_single : single.IsProper := by
  constructor <;> decide

-- Numbers of the format: a full significand, or the least unit.
structure Holds (fmt : FloatFormat) (m : Nat) (e : Int) : Prop where
  lt : m < 2 ^ fmt.precision
  least_le : fmt.least ≤ e
  le_greatest : e ≤ fmt.greatest
  full : 2 ^ (fmt.precision - 1) ≤ m ∨ e = fmt.least

theorem Holds.eq_least (h : fmt.Holds 0 e) : e = fmt.least :=
  h.full.resolve_left (Nat.not_le.mpr (Nat.pow_pos (by decide)))

-- How far the interval of a number reaches below it, in units.
def reach (fmt : FloatFormat) (m : Nat) (e : Int) : ℚ :=
  if m = 2 ^ (fmt.precision - 1) ∧ fmt.least < e then 1 / 4 else 1 / 2

-- The reals that are nearest to a number. The ends belong to an even significand.
structure Near (fmt : FloatFormat) (m : Nat) (e : Int) (v : ℚ) : Prop where
  low : (m - fmt.reach m e) * 2 ^ e ≤ v
  high : v ≤ (m + 1 / 2) * 2 ^ e
  tie : m % 2 = 0 ∨ ((m - fmt.reach m e) * 2 ^ e < v ∧ v < (m + 1 / 2) * 2 ^ e)

theorem reach_pos (fmt : FloatFormat) (m : Nat) (e : Int) : 0 < fmt.reach m e := by
  unfold reach
  split <;> norm_num

theorem reach_le (fmt : FloatFormat) (m : Nat) (e : Int) : fmt.reach m e ≤ 1 / 2 := by
  unfold reach
  split <;> norm_num

theorem near_of_lt {v : ℚ} (hlow : (m - fmt.reach m e) * 2 ^ e < v)
    (hhigh : v < (m + 1 / 2) * 2 ^ e) : fmt.Near m e v :=
  ⟨hlow.le, hhigh.le, .inr ⟨hlow, hhigh⟩⟩

theorem low_lt_self (fmt : FloatFormat) (m : Nat) (e : Int) :
    (m - fmt.reach m e) * 2 ^ e < m * 2 ^ e := by
  have hreach := fmt.reach_pos m e
  gcongr
  linarith

theorem self_lt_high (m : Nat) (e : Int) : (m : ℚ) * 2 ^ e < (m + 1 / 2) * 2 ^ e := by
  gcongr
  linarith

theorem near_self (fmt : FloatFormat) (m : Nat) (e : Int) : fmt.Near m e (m * 2 ^ e) :=
  near_of_lt (fmt.low_lt_self m e) (self_lt_high m e)

end FloatFormat

namespace Binary

theorem scale_pos (num : Nat) (hden : 0 < den) (shift : Int) : 0 < (scale num den shift).2 := by
  unfold scale
  split
  · exact hden
  · exact Nat.mul_pos hden (Nat.pow_pos (by decide))

theorem scale_div (num den : Nat) (shift : Int) :
    ((scale num den shift).1 : ℚ) / (scale num den shift).2 = num / den * 2 ^ shift := by
  unfold scale
  split
  · next h =>
    obtain ⟨k, rfl⟩ := Int.eq_ofNat_of_zero_le h
    simp only [Int.toNat_natCast, Nat.pow_eq, Nat.cast_mul, Nat.cast_pow, Nat.cast_ofNat,
      zpow_natCast]
    ring
  · next h =>
    obtain ⟨k, hk⟩ := Int.eq_ofNat_of_zero_le (a := -shift) (by omega)
    obtain rfl : shift = -(k : Int) := by omega
    simp only [neg_neg, Int.toNat_natCast, Nat.pow_eq, Nat.cast_mul, Nat.cast_pow, Nat.cast_ofNat,
      zpow_neg, zpow_natCast]
    rw [div_mul_eq_div_div, div_eq_mul_inv]

end Binary

open Binary (scale scale_pos scale_div)

namespace FloatFormat

-- The unit at which a fraction has exactly the bits of the format before its point.
def binade (fmt : FloatFormat) (num den : Nat) : Int :=
  let guess : Int := (num.log2 : Int) - den.log2 - fmt.precision
  let (n, d) := scale num den (-guess)
  if n < d * Nat.pow 2 fmt.precision then guess else guess + 1

-- Rounding at a given unit.
def roundAt (fmt : FloatFormat) (negative : Bool) (num den : Nat) (e : Int) : Binary :=
  let (n, d) := scale num den (-e)
  let m := roundDiv n d
  let (m, e) := if m == Nat.pow 2 fmt.precision then (m / 2, e + 1) else (m, e)
  if e > fmt.greatest then .infinite negative else .finite negative m e

theorem round_eq_roundAt (hnum : 0 < num) (hden : 0 < den) :
    Binary.round fmt negative num den =
      roundAt fmt negative num den (max (binade fmt num den) fmt.least) := by
  have h : (num == 0 || den == 0) = false := by
    simp only [Bool.or_eq_false_iff, beq_eq_false_iff_ne]
    omega
  rw [Binary.round, h]
  simp only [Bool.false_eq_true, if_false, decide_eq_true_eq]
  rfl

theorem two_pow_log2_le {n : Nat} (hn : 0 < n) : (2 : ℚ) ^ n.log2 ≤ n := by
  exact_mod_cast Nat.log2_self_le (by omega)

theorem lt_two_pow_log2 (n : Nat) : (n : ℚ) < 2 ^ (n.log2 + 1) := by
  exact_mod_cast Nat.lt_log2_self

theorem binade_spec (hnum : 0 < num) (hden : 0 < den) :
    (2 : ℚ) ^ (fmt.precision - 1 + binade fmt num den) ≤ num / den ∧
      (num : ℚ) / den < 2 ^ (fmt.precision + binade fmt num den) := by
  have hd : (0 : ℚ) < den := Nat.cast_pos.mpr hden
  -- The lengths of the two parts give the magnitude of the fraction up to one bit.
  have hlow : (2 : ℚ) ^ ((num.log2 : Int) - den.log2 - 1) ≤ num / den := by
    rw [le_div_iff₀ hd]
    calc (2 : ℚ) ^ ((num.log2 : Int) - den.log2 - 1) * den
        ≤ 2 ^ ((num.log2 : Int) - den.log2 - 1) * 2 ^ (den.log2 + 1) := by
          gcongr
          exact (lt_two_pow_log2 den).le
      _ = 2 ^ num.log2 := by
          rw [← zpow_natCast, ← zpow_natCast, ← zpow_add₀ two_ne_zero]
          congr 1
          push_cast
          ring
      _ ≤ num := two_pow_log2_le hnum
  have hhigh : (num : ℚ) / den < 2 ^ ((num.log2 : Int) - den.log2 + 1) := by
    rw [div_lt_iff₀ hd]
    calc (num : ℚ) < 2 ^ (num.log2 + 1) := lt_two_pow_log2 num
      _ = 2 ^ ((num.log2 : Int) - den.log2 + 1) * 2 ^ den.log2 := by
          rw [← zpow_natCast, ← zpow_natCast, ← zpow_add₀ two_ne_zero]
          congr 1
          push_cast
          ring
      _ ≤ 2 ^ ((num.log2 : Int) - den.log2 + 1) * den := by
          gcongr
          exact two_pow_log2_le hden
  have hfits : ∀ e : Int,
      (scale num den (-e)).1 < (scale num den (-e)).2 * Nat.pow 2 fmt.precision ↔
        (num : ℚ) / den < 2 ^ (fmt.precision + e) := by
    intro e
    have hpos : (0 : ℚ) < (scale num den (-e)).2 := Nat.cast_pos.mpr (scale_pos num hden (-e))
    rw [zpow_add₀ two_ne_zero, zpow_natCast, ← div_lt_iff₀ (by positivity), div_eq_mul_inv,
      ← zpow_neg, ← scale_div, div_lt_iff₀' hpos]
    rw [Nat.pow_eq]
    norm_cast
  simp only [binade, hfits]
  split
  · next h =>
    exact ⟨le_of_eq_of_le (by congr 1; ring) hlow, h⟩
  · next h =>
    exact ⟨le_of_eq_of_le (by congr 1; ring) (not_lt.mp h),
      lt_of_lt_of_eq hhigh (by congr 1; ring)⟩

theorem binade_eq (hnum : 0 < num) (hden : 0 < den)
    (hlow : (2 : ℚ) ^ (fmt.precision - 1 + e) ≤ num / den)
    (hhigh : (num : ℚ) / den < 2 ^ (fmt.precision + e)) : binade fmt num den = e := by
  obtain ⟨hle, hlt⟩ := @binade_spec fmt num den hnum hden
  have h₁ := (zpow_lt_zpow_iff_right₀ one_lt_two).mp (lt_of_le_of_lt hlow hlt)
  have h₂ := (zpow_lt_zpow_iff_right₀ one_lt_two).mp (lt_of_le_of_lt hle hhigh)
  omega

theorem binade_le (hnum : 0 < num) (hden : 0 < den)
    (hhigh : (num : ℚ) / den < 2 ^ (fmt.precision + e)) : binade fmt num den ≤ e := by
  have h := (zpow_lt_zpow_iff_right₀ one_lt_two).mp
    (lt_of_le_of_lt (@binade_spec fmt num den hnum hden).1 hhigh)
  omega

theorem roundAt_eq (hm : fmt.Holds m e) (hden : 0 < den) (hnear : fmt.Near m e (num / den)) :
    roundAt fmt negative num den e = .finite negative m e := by
  have hunit : (0 : ℚ) < 2 ^ e := by positivity
  have hreach := fmt.reach_le m e
  have hround : roundDiv (scale num den (-e)).1 (scale num den (-e)).2 = m := by
    obtain ⟨hlow, hhigh, htie⟩ := hnear
    rw [← le_div_iff₀ hunit] at hlow
    rw [← div_le_iff₀ hunit] at hhigh
    rw [← lt_div_iff₀ hunit, ← div_lt_iff₀ hunit] at htie
    rw [div_eq_mul_inv _ ((2 : ℚ) ^ e), ← zpow_neg, ← scale_div] at hlow hhigh htie
    refine roundDiv_eq (scale_pos num hden _) (by linarith) hhigh ?_
    exact htie.imp id fun h => ⟨by linarith, h.2⟩
  have hne : (m == Nat.pow 2 fmt.precision) = false := beq_eq_false_iff_ne.mpr (ne_of_lt hm.lt)
  simp only [roundAt, hround, hne, Bool.false_eq_true, if_false, if_neg (not_lt.mpr hm.le_greatest),
    gt_iff_lt]

-- Below the first number of a binade rounding takes the finer unit and carries.
theorem roundAt_carry (hfmt : fmt.IsProper) (hden : 0 < den) (he : e ≤ fmt.greatest)
    (hlow : (2 ^ fmt.precision - 1 / 2) * 2 ^ (e - 1) ≤ (num : ℚ) / den)
    (hhigh : (num : ℚ) / den ≤ (2 ^ fmt.precision + 1 / 2) * 2 ^ (e - 1)) :
    roundAt fmt negative num den (e - 1) = .finite negative (2 ^ (fmt.precision - 1)) e := by
  have hunit : (0 : ℚ) < 2 ^ (e - 1) := by positivity
  have hprec := hfmt.one_lt
  obtain ⟨p, hp⟩ : ∃ p, fmt.precision = p + 1 := ⟨fmt.precision - 1, by omega⟩
  have hround : roundDiv (scale num den (-(e - 1))).1 (scale num den (-(e - 1))).2 =
      2 ^ fmt.precision := by
    rw [← le_div_iff₀ hunit] at hlow
    rw [← div_le_iff₀ hunit] at hhigh
    rw [div_eq_mul_inv _ ((2 : ℚ) ^ (e - 1)), ← zpow_neg, ← scale_div] at hlow hhigh
    refine roundDiv_eq (scale_pos num hden _) (by exact_mod_cast hlow) (by exact_mod_cast hhigh) ?_
    left
    rw [hp, Nat.pow_succ, Nat.mul_mod_left]
  have hhalf : 2 ^ fmt.precision / 2 = 2 ^ (fmt.precision - 1) := by
    rw [hp, Nat.pow_succ, Nat.mul_div_cancel _ (by decide), Nat.add_sub_cancel]
  simp only [roundAt, hround, Nat.pow_eq, beq_self_eq_true, if_true, hhalf, sub_add_cancel,
    gt_iff_lt, if_neg (not_lt.mpr he)]

theorem two_zpow_first (hfmt : fmt.IsProper) (e : Int) :
    (2 : ℚ) ^ (fmt.precision - 1 + e) = 2 ^ (fmt.precision - 1) * 2 ^ e := by
  rw [zpow_add₀ two_ne_zero, ← zpow_natCast, Nat.cast_sub hfmt.one_lt.le, Nat.cast_one]

theorem round_below_binade (hfmt : fmt.IsProper) (hnum : 0 < num) (hden : 0 < den)
    (hleast : fmt.least < e) (he : e ≤ fmt.greatest)
    (hlow : (2 ^ (fmt.precision - 1) - 1 / 4) * 2 ^ e ≤ (num : ℚ) / den)
    (hhigh : (num : ℚ) / den < 2 ^ (fmt.precision - 1) * 2 ^ e) :
    Binary.round fmt negative num den = .finite negative (2 ^ (fmt.precision - 1)) e := by
  have hunit : (0 : ℚ) < 2 ^ (e - 1) := by positivity
  have hhalf : (2 : ℚ) ^ e = 2 * 2 ^ (e - 1) := by
    rw [← zpow_one_add₀ two_ne_zero]
    congr 1
    ring
  have hprev : (2 : ℚ) ^ fmt.precision = 2 * 2 ^ (fmt.precision - 1) := by
    rw [← pow_succ', Nat.sub_add_cancel hfmt.one_lt.le]
  have hone : (1 : ℚ) ≤ 2 ^ (fmt.precision - 1) := one_le_pow₀ one_le_two
  have hunder : binade fmt num den = e - 1 := by
    refine binade_eq hnum hden ?_ ?_
    · rw [two_zpow_first hfmt]
      refine le_trans ?_ hlow
      rw [hhalf]
      nlinarith
    · rw [zpow_add₀ two_ne_zero, zpow_natCast, hprev]
      rw [hhalf] at hhigh
      linarith
  rw [round_eq_roundAt hnum hden, hunder, max_eq_left (by omega)]
  rw [hhalf] at hlow hhigh
  refine roundAt_carry hfmt hden he ?_ ?_
  · rw [hprev]
    linarith
  · rw [hprev]
    linarith

end FloatFormat

open FloatFormat in
-- A fraction rounds to the number in whose interval it is.
theorem Binary.round_of_near (hfmt : fmt.IsProper) (hm : fmt.Holds m e) (hpos : 0 < m)
    (hden : 0 < den) (hnear : fmt.Near m e (num / den)) :
    Binary.round fmt negative num den = .finite negative m e := by
  have hunit : (0 : ℚ) < 2 ^ e := by positivity
  have hd : (0 : ℚ) < den := Nat.cast_pos.mpr hden
  have hone : (1 : ℚ) ≤ m := by exact_mod_cast hpos
  have hreach := fmt.reach_le m e
  have hnum : 0 < num := by
    have : (0 : ℚ) < num / den :=
      lt_of_lt_of_le (mul_pos (by linarith) hunit) hnear.low
    exact_mod_cast (div_pos_iff_of_pos_right hd).mp this
  have hbelow : (num : ℚ) / den < 2 ^ (fmt.precision + e) := by
    have hlt : (m : ℚ) + 1 ≤ 2 ^ fmt.precision := by exact_mod_cast hm.lt
    calc (num : ℚ) / den ≤ (m + 1 / 2) * 2 ^ e := hnear.high
      _ < 2 ^ fmt.precision * 2 ^ e := by gcongr; linarith
      _ = 2 ^ (fmt.precision + e) := by rw [zpow_add₀ two_ne_zero, zpow_natCast]
  have hle := binade_le hnum hden hbelow
  rcases eq_or_lt_of_le hm.least_le with hleast | hleast
  · -- At the least unit the unit of the number is taken in any case.
    rw [round_eq_roundAt hnum hden, max_eq_right (by omega), hleast]
    exact roundAt_eq hm hden hnear
  by_cases hfirst : (2 : ℚ) ^ (fmt.precision - 1 + e) ≤ num / den
  · rw [round_eq_roundAt hnum hden, binade_eq hnum hden hfirst hbelow, max_eq_left hm.least_le]
    exact roundAt_eq hm hden hnear
  · -- Otherwise the fraction is below the binade that the number starts.
    rw [not_le, two_zpow_first hfmt] at hfirst
    have hfull : 2 ^ (fmt.precision - 1) ≤ m := hm.full.resolve_right (by omega)
    have heq : m = 2 ^ (fmt.precision - 1) := by
      have hlt := lt_of_mul_lt_mul_right (lt_of_le_of_lt hnear.low hfirst) hunit.le
      have hlt : (m : ℚ) < 2 ^ (fmt.precision - 1) + 1 := by linarith
      have : m < 2 ^ (fmt.precision - 1) + 1 := by exact_mod_cast hlt
      omega
    have hlow := hnear.low
    rw [reach, if_pos ⟨heq, hleast⟩, heq] at hlow
    push_cast at hlow
    rw [heq]
    exact round_below_binade hfmt hnum hden hleast hm.le_greatest hlow hfirst

namespace FloatFormat

theorem holds_zero (hfmt : fmt.IsProper) : fmt.Holds 0 fmt.least :=
  ⟨Nat.pow_pos (by decide), le_refl _, hfmt.range, .inr rfl⟩

theorem roundAt_cases (hfmt : fmt.IsProper) (hden : 0 < den) (hleast : fmt.least ≤ e)
    (hlow : e = fmt.least ∨ (2 : ℚ) ^ (fmt.precision - 1 + e) ≤ num / den)
    (hhigh : (num : ℚ) / den < 2 ^ (fmt.precision + e)) :
    roundAt fmt negative num den e = .infinite negative ∨
      ∃ m f, fmt.Holds m f ∧ e ≤ f ∧ roundAt fmt negative num den e = .finite negative m f := by
  have hunit : (0 : ℚ) < 2 ^ e := by positivity
  have hpos := scale_pos num hden (-e)
  have hd : (0 : ℚ) < (scale num den (-e)).2 := Nat.cast_pos.mpr hpos
  have hle : roundDiv (scale num den (-e)).1 (scale num den (-e)).2 ≤ 2 ^ fmt.precision := by
    refine roundDiv_le hpos ?_
    rw [zpow_add₀ two_ne_zero, zpow_natCast, ← div_lt_iff₀ hunit, div_eq_mul_inv, ← zpow_neg,
      ← scale_div, div_lt_iff₀ hd] at hhigh
    exact_mod_cast hhigh.le
  have hfull : 2 ^ (fmt.precision - 1) ≤ roundDiv (scale num den (-e)).1 (scale num den (-e)).2 ∨
      e = fmt.least := by
    refine hlow.symm.imp_left fun h => le_roundDiv hpos ?_
    rw [two_zpow_first hfmt, ← le_div_iff₀ hunit, div_eq_mul_inv, ← zpow_neg, ← scale_div,
      le_div_iff₀ hd] at h
    exact_mod_cast h
  have hprec := hfmt.one_lt
  simp only [roundAt]
  generalize roundDiv (scale num den (-e)).1 (scale num den (-e)).2 = m at hle hfull
  by_cases hcarry : m = 2 ^ fmt.precision
  · have hhalf : 2 ^ fmt.precision / 2 = 2 ^ (fmt.precision - 1) := by
      rw [← Nat.pow_div (by omega) (by decide), Nat.pow_one]
    simp only [hcarry, Nat.pow_eq, beq_self_eq_true, if_true, hhalf]
    by_cases hgreat : fmt.greatest < e + 1
    · exact .inl (if_pos hgreat)
    · refine .inr ⟨_, _, ⟨?_, by omega, by omega, .inl (le_refl _)⟩, by omega, if_neg hgreat⟩
      exact Nat.pow_lt_pow_right (by decide) (by omega)
  · simp only [Nat.pow_eq, beq_iff_eq, hcarry, if_false]
    by_cases hgreat : fmt.greatest < e
    · exact .inl (if_pos hgreat)
    · exact .inr ⟨_, _, ⟨by omega, hleast, by omega, hfull⟩, le_refl e, if_neg hgreat⟩

end FloatFormat

open FloatFormat in
theorem Binary.round_pos_cases (hfmt : fmt.IsProper) (hnum : 0 < num) (hden : 0 < den) :
    Binary.round fmt negative num den = .infinite negative ∨
      ∃ m e, fmt.Holds m e ∧ binade fmt num den ≤ e ∧
        Binary.round fmt negative num den = .finite negative m e := by
  obtain ⟨hlow, hhigh⟩ := @binade_spec fmt num den hnum hden
  rw [round_eq_roundAt hnum hden]
  refine (roundAt_cases hfmt hden (le_max_right _ _) ?_ ?_).imp_right ?_
  · rcases max_choice (binade fmt num den) fmt.least with h | h
    · exact .inr (by rw [h]; exact hlow)
    · exact .inl h
  · refine lt_of_lt_of_le hhigh ?_
    gcongr
    · exact one_le_two
    · exact le_max_left _ _
  · rintro ⟨m, e, hm, hle, heq⟩
    exact ⟨m, e, hm, (le_max_left _ _).trans hle, heq⟩

open FloatFormat in
theorem Binary.round_cases (hfmt : fmt.IsProper) :
    Binary.round fmt negative num den = .infinite negative ∨
      ∃ m e, fmt.Holds m e ∧ Binary.round fmt negative num den = .finite negative m e := by
  by_cases hzero : num = 0 ∨ den = 0
  · refine .inr ⟨0, fmt.least, holds_zero hfmt, ?_⟩
    rw [Binary.round, if_pos (by simpa using hzero)]
  · refine (@round_pos_cases fmt negative num den hfmt (by omega) (by omega)).imp_right ?_
    rintro ⟨m, e, hm, -, heq⟩
    exact ⟨m, e, hm, heq⟩

open FloatFormat in
theorem Binary.le_of_round {k : Int} (hfmt : fmt.IsProper) (hden : 0 < den) (hk : fmt.least < k)
    (hlow : (2 : ℚ) ^ (fmt.precision - 1 + k) ≤ num / den)
    (hround : Binary.round fmt negative num den = .finite negative m e) :
    2 ^ (fmt.precision - 1) ≤ m ∧ k ≤ e := by
  have hd : (0 : ℚ) < den := Nat.cast_pos.mpr hden
  have hnum : 0 < num := by
    have : (0 : ℚ) < num / den := lt_of_lt_of_le (by positivity) hlow
    exact_mod_cast (div_pos_iff_of_pos_right hd).mp this
  have hexp := (zpow_lt_zpow_iff_right₀ one_lt_two).mp
    (lt_of_le_of_lt hlow (@binade_spec fmt num den hnum hden).2)
  rcases @round_pos_cases fmt negative num den hfmt hnum hden with hinf | ⟨m', e', hm, hle, heq⟩
  · rw [hinf] at hround
    cases hround
  · rw [heq] at hround
    cases hround
    exact ⟨hm.full.resolve_right (by omega), by omega⟩

theorem FloatFormat.exists_holds {a : Nat} {b : Int} (hpos : 0 < a) (ha : a < 2 ^ fmt.precision)
    (hleast : fmt.least ≤ b) (hgreatest : b ≤ fmt.greatest) :
    ∃ m e, fmt.Holds m e ∧ (m : ℚ) * 2 ^ e = a * 2 ^ b := by
  have hlog := Nat.log2_self_le hpos.ne'
  have hlog' := @Nat.lt_log2_self a
  have hbits : a.log2 < fmt.precision :=
    (Nat.pow_lt_pow_iff_right (by decide)).mp (lt_of_le_of_lt hlog ha)
  -- As many bits as the least unit leaves room for.
  obtain ⟨k, hk⟩ := Int.eq_ofNat_of_zero_le
    (a := b - max (a.log2 + 1 - fmt.precision + b) fmt.least) (by omega)
  refine ⟨a * 2 ^ k, b - k, ⟨?_, by omega, by omega, ?_⟩, ?_⟩
  · calc a * 2 ^ k < 2 ^ (a.log2 + 1) * 2 ^ k := Nat.mul_lt_mul_of_pos_right hlog' (by positivity)
      _ = 2 ^ (a.log2 + 1 + k) := (Nat.pow_add _ _ _).symm
      _ ≤ 2 ^ fmt.precision := Nat.pow_le_pow_right (by decide) (by omega)
  · by_cases hleast : b - k = fmt.least
    · exact .inr hleast
    · left
      calc 2 ^ (fmt.precision - 1) = 2 ^ a.log2 * 2 ^ k := by
            rw [← Nat.pow_add]
            congr 1
            omega
        _ ≤ a * 2 ^ k := Nat.mul_le_mul_right _ hlog
  · push_cast
    rw [mul_assoc, ← zpow_natCast, ← zpow_add₀ two_ne_zero]
    congr 2
    ring

namespace Binary

theorem round_of_eq (hfmt : fmt.IsProper) (hm : fmt.Holds m e) (hden : 0 < den)
    (heq : (num : ℚ) / den = m * 2 ^ e) : round fmt negative num den = .finite negative m e := by
  rcases Nat.eq_zero_or_pos m with rfl | hpos
  · have hzero : num = 0 := by
      have hd : (den : ℚ) ≠ 0 := by exact_mod_cast hden.ne'
      rw [Nat.cast_zero, zero_mul, div_eq_zero_iff, or_iff_left hd] at heq
      exact_mod_cast heq
    rw [hm.eq_least, hzero]
    rfl
  · exact round_of_near hfmt hm hpos hden (heq ▸ fmt.near_self m e)

theorem round_scale {n : Nat} {f : Int} (hfmt : fmt.IsProper) (hm : fmt.Holds m e)
    (heq : (n : ℚ) * 2 ^ f = m * 2 ^ e) :
    round fmt negative (scale n 1 f).1 (scale n 1 f).2 = .finite negative m e := by
  refine round_of_eq hfmt hm (scale_pos n Nat.one_pos f) ?_
  rw [scale_div, Nat.cast_one, div_one, heq]

theorem holds_unique {n : Nat} {f : Int} (hfmt : fmt.IsProper) (hm : fmt.Holds m e)
    (hn : fmt.Holds n f) (heq : (n : ℚ) * 2 ^ f = m * 2 ^ e) : n = m ∧ f = e := by
  have hround := @round_scale fmt false n f n f hfmt hn rfl
  rw [round_scale hfmt hm heq] at hround
  exact ⟨(Binary.finite.inj hround).2.1.symm, (Binary.finite.inj hround).2.2.symm⟩

theorem fitted_of_holds (hfmt : fmt.IsProper) (hm : fmt.Holds m e) :
    fitted fmt (.finite negative m e) = .finite negative m e :=
  round_scale hfmt hm rfl

theorem fitted_single_of_narrow (h : narrow (.finite negative m e) = .finite negative m e) :
    ∃ a b, FloatFormat.single.Holds a b ∧
      fitted .single (.finite negative m e) = .finite negative a b ∧
      (a : ℚ) * 2 ^ b = m * 2 ^ e := by
  have hcases := @round_cases .single negative (scale m 1 e).1 (scale m 1 e).2
    FloatFormat.isProper_single
  rw [narrow] at h
  rcases hcases with hinf | ⟨a, b, hab, hround⟩
  · simp only [hinf] at h
    cases h
  · simp only [hround] at h
    refine ⟨a, b, hab, hround, ?_⟩
    rcases Nat.eq_zero_or_pos a with rfl | hpos
    · have hm : m = 0 := by
        rw [hab.eq_least] at h
        exact (Binary.finite.inj h).2.1.symm
      rw [hm, Nat.cast_zero, zero_mul, zero_mul]
    · obtain ⟨m', e', hholds, heq⟩ := @FloatFormat.exists_holds .double a b hpos
        (hab.lt.trans (by decide)) (le_trans (by decide) hab.least_le)
        (hab.le_greatest.trans (by decide))
      rw [ofRatio, round_scale FloatFormat.isProper_double hholds heq.symm] at h
      cases h
      exact heq.symm

end Binary
end QueryTree
