import Mathlib.Data.Nat.Cast.Order.Field
import QueryTree.Number.Decimal
import QueryTree.Proofs.Number.Rounding

namespace QueryTree.Decimal

open FloatFormat (Near reach)
open Binary (scale scale_pos scale_div)

section Magnitude

theorem lt_ten_pow_length (n : Nat) : n < 10 ^ (digitsOf n).length :=
  (Nat.length_toDigits_le_iff (by decide) Nat.length_toDigits_pos).mp (le_refl _)

theorem ten_pow_length_le {n : Nat} (hn : 0 < n) : 10 ^ ((digitsOf n).length - 1) ≤ n := by
  by_contra h
  have hpos : 0 < (digitsOf n).length := Nat.length_toDigits_pos
  rcases Nat.eq_zero_or_pos ((digitsOf n).length - 1) with hone | hmore
  · rw [hone] at h
    omega
  · have := (Nat.length_toDigits_le_iff (by decide) hmore).mpr (not_le.mp h)
    rw [← digitsOf] at this
    omega

theorem ten_zpow_length_le {n : Nat} (hn : 0 < n) :
    (10 : ℚ) ^ ((digitsOf n).length - 1 : Int) ≤ n := by
  have hpos : 1 ≤ (digitsOf n).length := Nat.length_toDigits_pos
  rw [← Nat.cast_one, ← Nat.cast_sub hpos, zpow_natCast]
  exact_mod_cast ten_pow_length_le hn

theorem magnitude_spec {num den : Nat} (hnum : 0 < num) (hden : 0 < den) :
    (10 : ℚ) ^ (magnitude num den - 1) ≤ num / den ∧ (num : ℚ) / den < 10 ^ magnitude num den := by
  have hd : (0 : ℚ) < den := Nat.cast_pos.mpr hden
  have hn : (0 : ℚ) < num := Nat.cast_pos.mpr hnum
  unfold magnitude
  split
  · next h =>
    -- The digits of the whole part.
    have hq : 0 < num / den := Nat.div_pos h hden
    constructor
    · refine (ten_zpow_length_le hq).trans ?_
      exact Nat.cast_div_le
    · rw [zpow_natCast, div_lt_iff₀ hd]
      exact_mod_cast Nat.lt_mul_of_div_lt (lt_ten_pow_length _) hden
  · next h =>
    -- The digits of the whole part of the inverse, which may be a power of ten.
    have hq : 0 < den / num := Nat.div_pos (by omega) hnum
    generalize ht : (digitsOf (den / num)).length = t
    have hpos : 1 ≤ t := ht ▸ Nat.length_toDigits_pos
    have hten : (10 : ℚ) ^ (1 - t : Int) = 1 / 10 ^ (t - 1) := by
      rw [one_div, ← zpow_natCast, ← zpow_neg, Nat.cast_sub hpos, Nat.cast_one, neg_sub]
    have hlow : (10 : ℚ) ^ (-t : Int) ≤ num / den := by
      have hlt : den < 10 ^ t * num := (Nat.div_lt_iff_lt_mul hnum).mp (ht ▸ lt_ten_pow_length _)
      rw [zpow_neg, zpow_natCast, ← one_div, div_le_div_iff₀ (by positivity) hd, one_mul, mul_comm]
      exact_mod_cast hlt.le
    have hle : num * 10 ^ (t - 1) ≤ den := by
      rw [Nat.mul_comm]
      exact (Nat.le_div_iff_mul_le hnum).mp (ht ▸ ten_pow_length_le hq)
    dsimp only
    rw [Nat.pow_eq]
    split
    · next heq =>
      have heq : (num : ℚ) / den = 10 ^ (1 - t : Int) := by
        rw [hten, div_eq_div_iff hd.ne' (by positivity), one_mul]
        exact_mod_cast eq_of_beq heq
      rw [heq]
      refine ⟨le_of_eq (by congr 1; ring), ?_⟩
      exact zpow_lt_zpow_right₀ (by norm_num) (by omega)
    · next hne =>
      have hlt : num * 10 ^ (t - 1) < den := lt_of_le_of_ne hle fun h => hne (beq_iff_eq.mpr h)
      refine ⟨le_of_eq_of_le (by congr 1; ring) hlow, ?_⟩
      rw [hten, div_lt_div_iff₀ hd (by positivity), one_mul]
      exact_mod_cast hlt

end Magnitude

section Interval

variable {fmt : FloatFormat} {m : Nat} {e : Int}

theorem scale_quarter (a : Nat) (e : Int) :
    ((scale a 1 (e - 2)).1 : ℚ) / (scale a 1 (e - 2)).2 = a / 4 * 2 ^ e := by
  rw [scale_div, zpow_sub₀ two_ne_zero, Nat.cast_one]
  norm_num
  ring

theorem scale_snd (a b : Nat) (shift : Int) : (scale a 1 shift).2 = (scale b 1 shift).2 := by
  unfold scale
  split <;> rfl

theorem interval_den_pos (fmt : FloatFormat) (m : Nat) (e : Int) : 0 < (interval fmt m e).den :=
  scale_pos _ Nat.one_pos _

theorem interval_value (fmt : FloatFormat) (m : Nat) (e : Int) :
    ((interval fmt m e).value : ℚ) / (interval fmt m e).den = m * 2 ^ e := by
  have h := scale_quarter (4 * m) e
  rw [scale_snd (4 * m) _] at h
  refine h.trans ?_
  push_cast
  ring

theorem interval_high (fmt : FloatFormat) (m : Nat) (e : Int) :
    ((interval fmt m e).high : ℚ) / (interval fmt m e).den = (m + 1 / 2) * 2 ^ e := by
  have h := scale_quarter (4 * m + 2) e
  rw [scale_snd (4 * m + 2) _] at h
  refine h.trans ?_
  push_cast
  ring

theorem interval_low (hm : 0 < m) :
    ((interval fmt m e).low : ℚ) / (interval fmt m e).den = (m - fmt.reach m e) * 2 ^ e := by
  refine (scale_quarter _ e).trans ?_
  congr 1
  by_cases h : m = 2 ^ (fmt.precision - 1) ∧ fmt.least < e
  · have htest : (m == Nat.pow 2 (fmt.precision - 1) && decide (e > fmt.least)) = true := by
      simpa using h
    rw [htest, if_pos rfl, reach, if_pos h, Nat.cast_sub (by omega)]
    push_cast
    ring
  · have htest : (m == Nat.pow 2 (fmt.precision - 1) && decide (e > fmt.least)) = false := by
      simpa using h
    rw [htest, if_neg (by decide), reach, if_neg h, Nat.cast_sub (by omega)]
    push_cast
    ring

theorem Interval.holds_iff {i : Interval} (hden : 0 < i.den) (n : Nat) (k : Int) :
    i.holds n k = true ↔
      if i.closed then (i.low : ℚ) / i.den ≤ n * 10 ^ k ∧ (n * 10 ^ k : ℚ) ≤ i.high / i.den
      else (i.low : ℚ) / i.den < n * 10 ^ k ∧ (n * 10 ^ k : ℚ) < i.high / i.den := by
  have hd : (0 : ℚ) < i.den := Nat.cast_pos.mpr hden
  obtain ⟨num, den, hpair, hpos, hval⟩ : ∃ num den : Nat,
      (if k ≥ 0 then (n * Nat.pow 10 k.toNat, 1) else (n, Nat.pow 10 (-k).toNat)) = (num, den) ∧
        0 < den ∧ (n * 10 ^ k : ℚ) = num / den := by
    split
    · next h =>
      obtain ⟨j, rfl⟩ := Int.eq_ofNat_of_zero_le h
      exact ⟨_, _, rfl, Nat.one_pos, by simp⟩
    · next h =>
      obtain ⟨j, hj⟩ := Int.eq_ofNat_of_zero_le (a := -k) (by omega)
      obtain rfl : k = -(j : Int) := by omega
      exact ⟨_, _, rfl, Nat.pow_pos (by decide), by simp [div_eq_mul_inv]⟩
  have hq : (0 : ℚ) < den := Nat.cast_pos.mpr hpos
  rw [hval, div_le_div_iff₀ hd hq, div_le_div_iff₀ hq hd, div_lt_div_iff₀ hd hq,
    div_lt_div_iff₀ hq hd]
  simp only [Interval.holds, hpair]
  norm_cast
  cases i.closed <;> simp

theorem holds_interval_iff (hm : 0 < m) (n : Nat) (k : Int) :
    (interval fmt m e).holds n k = true ↔ fmt.Near m e (n * 10 ^ k) := by
  rw [Interval.holds_iff (interval_den_pos fmt m e), interval_low hm, interval_high]
  have hclosed : (interval fmt m e).closed = (m % 2 == 0) := rfl
  rw [hclosed]
  by_cases heven : m % 2 = 0
  · rw [if_pos (by simpa using heven)]
    exact ⟨fun h => ⟨h.1, h.2, .inl heven⟩, fun h => ⟨h.low, h.high⟩⟩
  · rw [if_neg (by simpa using heven)]
    exact ⟨fun h => ⟨h.1.le, h.2.le, .inr h⟩, fun h => h.tie.resolve_left heven⟩

end Interval

section Count

theorem shiftTen_pos (num : Nat) {den : Nat} (hden : 0 < den) (k : Int) :
    0 < (shiftTen num den k).2 := by
  unfold shiftTen
  split
  · exact Nat.mul_pos hden (Nat.pow_pos (by decide))
  · exact hden

theorem shiftTen_div (num den : Nat) (k : Int) :
    ((shiftTen num den k).1 : ℚ) / (shiftTen num den k).2 = num / den / 10 ^ k := by
  unfold shiftTen
  split
  · next h =>
    obtain ⟨j, rfl⟩ := Int.eq_ofNat_of_zero_le h
    simp [div_div]
  · next h =>
    obtain ⟨j, hj⟩ := Int.eq_ofNat_of_zero_le (a := -k) (by omega)
    obtain rfl : k = -(j : Int) := by omega
    simp
    ring

-- The greatest multiple of a power of ten that is not above the number.
def Interval.floor (i : Interval) (k : Int) : Nat :=
  (shiftTen i.value i.den k).1 / (shiftTen i.value i.den k).2

theorem Interval.floor_le {i : Interval} (k : Int) :
    (i.floor k * 10 ^ k : ℚ) ≤ i.value / i.den := by
  rw [← le_div_iff₀ (by positivity), ← shiftTen_div]
  exact Nat.cast_div_le

theorem Interval.lt_floor {i : Interval} (hden : 0 < i.den) (k : Int) :
    (i.value / i.den : ℚ) < (i.floor k + 1 : Nat) * 10 ^ k := by
  have hpos : (0 : ℚ) < (shiftTen i.value i.den k).2 :=
    Nat.cast_pos.mpr (shiftTen_pos i.value hden k)
  rw [← div_lt_iff₀ (by positivity), ← shiftTen_div, div_lt_iff₀ hpos]
  exact_mod_cast (Nat.div_lt_iff_lt_mul (shiftTen_pos i.value hden k)).mp (Nat.lt_succ_self _)

theorem roundDiv_cases (num den : Nat) :
    roundDiv num den = num / den ∨ roundDiv num den = num / den + 1 := by
  unfold roundDiv
  grind

theorem Interval.withDigits?_eq (i : Interval) (point : Int) (count : Nat) :
    i.withDigits? point count =
      let k := point - count
      if i.holds (i.floor k) k && i.holds (i.floor k + 1) k then
        some (ofScaled (roundDiv (shiftTen i.value i.den k).1 (shiftTen i.value i.den k).2) k)
      else if i.holds (i.floor k) k then some (ofScaled (i.floor k) k)
      else if i.holds (i.floor k + 1) k then some (ofScaled (i.floor k + 1) k)
      else none := rfl

theorem Interval.of_withDigits? {i : Interval} {point : Int} {count : Nat} {d : Decimal}
    (h : i.withDigits? point count = some d) :
    ∃ n, d = ofScaled n (point - count) ∧ i.holds n (point - count) = true ∧
      i.floor (point - count) ≤ n := by
  have hround := roundDiv_cases (shiftTen i.value i.den (point - count)).1
    (shiftTen i.value i.den (point - count)).2
  rw [← Interval.floor] at hround
  simp only [withDigits?_eq, Bool.and_eq_true] at h
  split at h
  · next hboth =>
    refine ⟨_, (Option.some.inj h).symm, ?_, by omega⟩
    rcases hround with h | h
    · rw [h]
      exact hboth.1
    · rw [h]
      exact hboth.2
  split at h
  · next hlower => exact ⟨_, (Option.some.inj h).symm, hlower, le_refl _⟩
  split at h
  · next hupper => exact ⟨_, (Option.some.inj h).symm, hupper, Nat.le_succ _⟩
  · cases h

theorem Interval.withDigits?_ne_none {i : Interval} {point : Int} {count : Nat}
    (h : i.holds (i.floor (point - count)) (point - count) = true ∨
      i.holds (i.floor (point - count) + 1) (point - count) = true) :
    i.withDigits? point count ≠ none := by
  simp only [withDigits?_eq, Bool.and_eq_true]
  grind

end Count

section Shortest

variable {fmt : FloatFormat} {m : Nat} {e : Int}

-- Less than ten to the sixteenth times the width of its interval.
theorem lt_width (hfmt : fmt.IsProper) (hm : fmt.Holds m e) :
    (m : ℚ) < (1 / 2 + fmt.reach m e) * 10 ^ 16 := by
  have hshort : 2 ^ fmt.precision ≤ 10 ^ 16 :=
    (Nat.pow_le_pow_right (by decide) hfmt.precision_le).trans (by decide)
  unfold reach
  split
  · next h =>
    have hhalf : 2 * m = 2 ^ fmt.precision := by
      rw [h.1, ← pow_succ', Nat.sub_add_cancel hfmt.one_lt.le]
    have : (m : ℚ) * 2 ≤ 10 ^ 16 := by
      rw [mul_comm]
      exact_mod_cast hhalf ▸ hshort
    linarith
  · have : (m : ℚ) < 10 ^ 16 := by exact_mod_cast hm.lt.trans_le hshort
    linarith

-- Seventeen digits are dense enough for one of the two to be in the interval.
theorem withDigits?_seventeen (hfmt : fmt.IsProper) (hpos : 0 < m) (hm : fmt.Holds m e)
    {point : Int} (hpoint : (10 : ℚ) ^ (point - 1) ≤ m * 2 ^ e) :
    (interval fmt m e).withDigits? point 17 ≠ none := by
  apply Interval.withDigits?_ne_none
  rw [holds_interval_iff hpos, holds_interval_iff hpos]
  generalize hk : point - (17 : Nat) = k
  have hden := interval_den_pos fmt m e
  have hstep : (10 : ℚ) ^ k < (1 / 2 + fmt.reach m e) * 2 ^ e := by
    have hsplit : (10 : ℚ) ^ k * 10 ^ 16 = 10 ^ (point - 1) := by
      rw [← zpow_natCast, ← zpow_add₀ (by norm_num)]
      congr 1
      omega
    refine lt_of_mul_lt_mul_right ?_ (by positivity : (0 : ℚ) ≤ 10 ^ 16)
    calc (10 : ℚ) ^ k * 10 ^ 16 ≤ m * 2 ^ e := hsplit ▸ hpoint
      _ < (1 / 2 + fmt.reach m e) * 10 ^ 16 * 2 ^ e := by
          gcongr
          exact lt_width hfmt hm
      _ = (1 / 2 + fmt.reach m e) * 2 ^ e * 10 ^ 16 := by ring
  have hlow := (interval fmt m e).floor_le k
  have hhigh := (interval fmt m e).lt_floor hden k
  rw [interval_value] at hlow hhigh
  -- If both are outside, the step is as long as the interval is wide.
  by_contra hnone
  rw [not_or] at hnone
  have hbelow := le_of_not_gt fun h =>
    hnone.1 (FloatFormat.near_of_lt h (hlow.trans_lt (FloatFormat.self_lt_high m e)))
  have habove := le_of_not_gt fun h =>
    hnone.2 (FloatFormat.near_of_lt ((fmt.low_lt_self m e).trans hhigh) h)
  rw [Nat.cast_add_one] at habove
  linarith only [hstep, hbelow, habove]

theorem withDigits?_whole (hpos : 0 < m) {n : Nat} (hwhole : (m : ℚ) * 2 ^ e = n) (count : Nat) :
    (interval fmt m e).withDigits? count count ≠ none := by
  apply Interval.withDigits?_ne_none
  left
  rw [sub_self, holds_interval_iff hpos]
  have hfloor : (interval fmt m e).floor 0 = n := by
    have hlow := (interval fmt m e).floor_le 0
    have hhigh := (interval fmt m e).lt_floor (interval_den_pos fmt m e) 0
    rw [interval_value, hwhole, zpow_zero, mul_one] at hlow hhigh
    have hlow : (interval fmt m e).floor 0 ≤ n := by exact_mod_cast hlow
    have hhigh : n < (interval fmt m e).floor 0 + 1 := by exact_mod_cast hhigh
    omega
  rw [hfloor, zpow_zero, mul_one, ← hwhole]
  exact fmt.near_self m e

theorem findSome?_range {f : Nat → Option α} {n : Nat} {a : α}
    (h : (List.range n).findSome? f = some a) :
    ∃ c, c < n ∧ f c = some a ∧ ∀ i < c, f i = none := by
  obtain ⟨front, c, back, hsplit, hc, hnone⟩ := List.findSome?_eq_some_iff.mp h
  have hlt : c < n := List.mem_range.mp (by simp [hsplit])
  refine ⟨c, hlt, hc, fun i hi => hnone i ?_⟩
  have hmem : i ∈ front ++ c :: back := hsplit ▸ List.mem_range.mpr (hi.trans hlt)
  have hsorted := @List.pairwise_lt_range n
  rw [hsplit, List.pairwise_append, List.pairwise_cons] at hsorted
  rcases List.mem_append.mp hmem with hfront | hback
  · exact hfront
  · rcases List.mem_cons.mp hback with rfl | hback
    · exact absurd hi (lt_irrefl _)
    · exact absurd hi (lt_asymm (hsorted.2.1.1 i hback))

theorem shortest_cases (fmt : FloatFormat) (m : Nat) (e : Int) :
    ∃ n k, shortest fmt m e = ofScaled n k := by
  unfold shortest
  split
  · exact ⟨0, 0, rfl⟩
  · dsimp only
    cases hfind : (List.range 17).findSome? _ with
    | none => exact ⟨0, 0, rfl⟩
    | some d =>
      obtain ⟨c, -, hc⟩ := List.exists_of_findSome?_eq_some hfind
      obtain ⟨n, rfl, -⟩ := Interval.of_withDigits? hc
      exact ⟨n, _, rfl⟩

-- The shortest decimal rounds to the number, and is whole when the number is.
theorem shortest_spec (hfmt : fmt.IsProper) (hpos : 0 < m) (hm : fmt.Holds m e) :
    ∃ n k, shortest fmt m e = ofScaled n k ∧ 0 < n ∧ fmt.Near m e (n * 10 ^ k) ∧
      ∀ w : Nat, (m : ℚ) * 2 ^ e = w → 0 ≤ k := by
  have hden := interval_den_pos fmt m e
  have hvalue := interval_value fmt m e
  have hpositive : (0 : ℚ) < m * 2 ^ e := mul_pos (Nat.cast_pos.mpr hpos) (by positivity)
  obtain ⟨hlow, hhigh⟩ := @magnitude_spec (interval fmt m e).value (interval fmt m e).den
    (by
      rw [← hvalue] at hpositive
      exact_mod_cast (div_pos_iff_of_pos_right (Nat.cast_pos.mpr hden)).mp hpositive) hden
  rw [hvalue] at hlow hhigh
  simp only [shortest, beq_eq_false_iff_ne.mpr hpos.ne', Bool.false_eq_true, if_false]
  generalize magnitude (interval fmt m e).value (interval fmt m e).den = point at *
  cases hfind : (List.range 17).findSome? fun c => (interval fmt m e).withDigits? point (c + 1) with
  | none =>
    rw [List.findSome?_eq_none_iff] at hfind
    exact absurd (hfind 16 (by decide)) (withDigits?_seventeen hfmt hpos hm hlow)
  | some d =>
    obtain ⟨c, -, hc, hfirst⟩ := findSome?_range hfind
    obtain ⟨n, rfl, hholds, hfloor⟩ := Interval.of_withDigits? hc
    refine ⟨n, point - (c + 1 : Nat), rfl, ?_, (holds_interval_iff hpos _ _).mp hholds, ?_⟩
    · -- The first digit is not zero.
      have hstep : (10 : ℚ) ^ (point - (c + 1 : Nat)) ≤ m * 2 ^ e :=
        (zpow_le_zpow_right₀ (by norm_num) (by omega)).trans hlow
      have hup := hstep.trans_lt (hvalue ▸ Interval.lt_floor hden (point - (c + 1 : Nat)))
      have hone := lt_of_mul_lt_mul_right (lt_of_eq_of_lt (one_mul _) hup) (by positivity)
      have : 1 < (interval fmt m e).floor (point - (c + 1 : Nat)) + 1 := by exact_mod_cast hone
      omega
    · intro w hw
      have hpoint : 0 < point := by
        by_contra hle
        have hw' : (0 : ℚ) < w := hw ▸ hpositive
        have : (w : ℚ) < 1 := by
          rw [← hw, ← zpow_zero (10 : ℚ)]
          exact hhigh.trans_le (zpow_le_zpow_right₀ (by norm_num) (by omega))
        norm_cast at this hw'
        omega
      by_contra hlt
      obtain ⟨q, rfl⟩ := Int.eq_ofNat_of_zero_le hpoint.le
      have hprev := hfirst (q - 1) (by omega)
      rw [Nat.sub_add_cancel (by omega)] at hprev
      exact withDigits?_whole hpos hw q hprev

end Shortest

end QueryTree.Decimal
