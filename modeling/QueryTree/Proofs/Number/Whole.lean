import QueryTree.Proofs.Number.Notation

namespace QueryTree

open Number (Numeral isInt64)

def withSign (negative : Bool) (n : Nat) : Int := if negative then -(n : Int) else n

theorem withSign_inj {negative : Bool} {m n : Nat} :
    withSign negative m = withSign negative n ↔ m = n := by
  unfold withSign
  split <;> omega

namespace Decimal

-- The number when it ends before the point.
def whole (d : Decimal) : Nat :=
  Nat.ofDigitChars 10 d.digits 0 * 10 ^ (d.point - d.digits.length).toNat

-- Decimals that end before the point; the first digit is at the place that the point says.
structure IsWhole (d : Decimal) : Prop where
  digits_ne : d.digits ≠ []
  ends : d.digits.length ≤ d.point
  le_whole : 10 ^ (d.point.toNat - 1) ≤ d.whole

theorem value_eq_whole {d : Decimal} (h : d.digits.length ≤ d.point) : d.value = d.whole := by
  obtain ⟨k, hk⟩ := Int.eq_ofNat_of_zero_le (a := d.point - d.digits.length) (by omega)
  rw [value, whole, hk, zpow_natCast, Int.toNat_natCast]
  push_cast
  rfl

theorem isWhole_ofScaled {n : Nat} (hn : 0 < n) (k : Nat) :
    (ofScaled n k).IsWhole ∧ (ofScaled n k).whole = n * 10 ^ k := by
  obtain ⟨j, hj⟩ := dropZeros_append (digitsOf n)
  have hlength : (digitsOf n).length = (dropZeros (digitsOf n)).length + j := by
    conv_lhs => rw [hj]
    rw [List.length_append, List.length_replicate]
  have hdigits : (ofScaled n k).digits = dropZeros (digitsOf n) := by
    rw [ofScaled, if_neg (by simpa using hn.ne')]
  have hpoint : (ofScaled n k).point = (digitsOf n).length + k := by
    rw [ofScaled, if_neg (by simpa using hn.ne')]
  have hends : (ofScaled n k).digits.length ≤ (ofScaled n k).point := by
    rw [hdigits, hpoint]
    omega
  have hwhole : (ofScaled n k).whole = n * 10 ^ k := by
    have h := value_ofScaled n k
    rw [value_eq_whole hends, zpow_natCast] at h
    exact_mod_cast h
  refine ⟨⟨?_, hends, ?_⟩, hwhole⟩
  · intro hnil
    rw [whole, hnil] at hwhole
    simp [hn.ne'] at hwhole
  · have hpos : 0 < (digitsOf n).length := Nat.length_toDigits_pos
    have hsplit : (ofScaled n k).point.toNat - 1 = (digitsOf n).length - 1 + k := by omega
    rw [hwhole, hsplit, Nat.pow_add]
    exact Nat.mul_le_mul_right _ (ten_pow_length_le hn)

variable {d : Decimal}

-- A whole number has an exponent from the twenty-second digit on.
theorem numeral_of_isWhole (hd : d.IsWhole) :
    d.numeral = if d.point ≤ 21 then d.large else d.scientific := by
  have hends := hd.ends
  have hlength := List.length_pos_iff.mpr hd.digits_ne
  rw [numeral, if_neg hd.digits_ne]
  by_cases hpoint : d.point ≤ 21
  · rw [if_pos hpoint, if_neg (by omega), if_neg (by omega)]
  · rw [if_neg hpoint, if_pos (by omega)]

theorem numeral_shift_nonneg (hd : d.IsWhole) : 0 ≤ d.numeral.shift := by
  have hends := hd.ends
  rw [numeral_of_isWhole hd]
  split
  · exact le_of_eq (large_shift (by omega)).symm
  · rw [scientific_shift hd.digits_ne]
    omega

theorem numeral_whole (hd : d.IsWhole) :
    d.numeral.mantissa * 10 ^ d.numeral.shift.toNat = d.whole := by
  obtain ⟨k, hk⟩ := Int.eq_ofNat_of_zero_le (numeral_shift_nonneg hd)
  have h := numeral_value d
  rw [value_eq_whole hd.ends, hk, zpow_natCast] at h
  rw [hk, Int.toNat_natCast]
  exact_mod_cast h

theorem not_isInt64_withSign {n : Nat} (hn : 9223372036854775808 < n) (negative : Bool) :
    isInt64 (withSign negative n) = false := by
  rw [Bool.eq_false_iff]
  intro h
  rw [isInt64, Bool.and_eq_true, decide_eq_true_eq, decide_eq_true_eq] at h
  cases negative <;> simp only [withSign] at h <;> omega

-- Up to the bounds of integers no exponent is in the way.
theorem readInt64?_whole (hnormal : d.IsNormal) (hd : d.IsWhole) (negative : Bool) :
    Number.readInt64? (d.numeral.signed negative) =
      if isInt64 (withSign negative d.whole) then some (withSign negative d.whole) else none := by
  have hends := hd.ends
  rw [Number.readInt64?, Numeral.readInt?_signed (numeral_isProper hnormal)]
  by_cases hpoint : d.point ≤ 21
  · have hnumeral : d.numeral = d.large := by rw [numeral_of_isWhole hd, if_pos hpoint]
    have hwhole := numeral_whole hd
    rw [hnumeral, large_shift (by omega), Int.toNat_zero, Nat.pow_zero, Nat.mul_one] at hwhole
    rw [hnumeral, if_pos ⟨large_part (by omega), rfl⟩, hwhole]
    exact Option.filter_some
  · have hnumeral : d.numeral = d.scientific := by rw [numeral_of_isWhole hd, if_neg hpoint]
    have hlarge : 9223372036854775808 < d.whole :=
      calc 9223372036854775808 < 10 ^ 21 := by decide
        _ ≤ 10 ^ (d.point.toNat - 1) := Nat.pow_le_pow_right (by decide) (by omega)
        _ ≤ d.whole := hd.le_whole
    rw [hnumeral, if_neg (fun h => by cases h.2), not_isInt64_withSign hlarge]
    rfl

end Decimal

namespace Binary

-- Doubles that are also numbers of the format.
structure Within (fmt : FloatFormat) (negative : Bool) (m : Nat) (e : Int) : Prop where
  double : FloatFormat.double.Holds m e
  fits : ∃ a b, fmt.Holds a b ∧ fitted fmt (.finite negative m e) = .finite negative a b ∧
    (a : ℚ) * 2 ^ b = m * 2 ^ e

theorem within_double {negative : Bool} {m : Nat} {e : Int} (hm : FloatFormat.double.Holds m e) :
    Within .double negative m e :=
  ⟨hm, m, e, hm, fitted_of_holds FloatFormat.isProper_double hm, rfl⟩

theorem within_of_fitted {negative : Bool} {m : Nat} {e : Int}
    (h : fitted .double (.finite negative m e) = .finite negative m e) :
    Within .double negative m e := by
  change round .double negative (scale m 1 e).1 (scale m 1 e).2 = _ at h
  rcases @round_cases .double negative (scale m 1 e).1 (scale m 1 e).2
    FloatFormat.isProper_double with hinf | ⟨a, b, hab, hround⟩
  · rw [hinf] at h
    cases h
  · rw [hround] at h
    cases h
    exact within_double hab

theorem within_single {negative : Bool} {m : Nat} {e : Int}
    (h : narrow (.finite negative m e) = .finite negative m e) : Within .single negative m e := by
  refine ⟨?_, fitted_single_of_narrow h⟩
  rw [narrow] at h
  rcases @round_cases .single negative (scale m 1 e).1 (scale m 1 e).2
    FloatFormat.isProper_single with hinf | ⟨a, b, -, hround⟩
  · simp only [hinf] at h
    cases h
  · simp only [hround, ofRatio] at h
    rcases @round_cases .double negative (scale a 1 b).1 (scale a 1 b).2
      FloatFormat.isProper_double with hinf | ⟨m', e', hholds, hfinite⟩
    · rw [hinf] at h
      cases h
    · rw [hfinite] at h
      cases h
      exact hholds

theorem integral?_eq_some_iff {negative : Bool} {m : Nat} {e n : Int} :
    integral? (.finite negative m e) = some n ↔
      ∃ w : Nat, (m : ℚ) * 2 ^ e = w ∧ n = withSign negative w := by
  have hpos := scale_pos m Nat.one_pos e
  have hd : (0 : ℚ) < (scale m 1 e).2 := Nat.cast_pos.mpr hpos
  have hdiv := scale_div m 1 e
  rw [Nat.cast_one, div_one] at hdiv
  have hwhole : ∀ w : Nat, ((m : ℚ) * 2 ^ e = w ↔ (scale m 1 e).1 = w * (scale m 1 e).2) := by
    intro w
    rw [← hdiv, div_eq_iff hd.ne']
    norm_cast
  simp only [hwhole, integral?]
  constructor
  · intro h
    split at h
    · next hmod =>
      refine ⟨(scale m 1 e).1 / (scale m 1 e).2, ?_, (Option.some.inj h).symm⟩
      rw [Nat.div_mul_cancel (Nat.dvd_of_mod_eq_zero (eq_of_beq hmod))]
    · cases h
  · rintro ⟨w, hw, rfl⟩
    rw [hw, Nat.mul_mod_left, Nat.mul_div_cancel _ hpos]
    rfl

-- The whole number that the decimal of a whole number spells.
def spelled (fmt : FloatFormat) (x : Binary) : Nat := (x.decimal fmt).whole

variable {fmt : FloatFormat} {negative : Bool} {m w : Nat} {e : Int}

theorem decimal_isWhole (hfmt : fmt.IsProper) (hx : Within fmt negative m e) (hpos : 0 < m)
    (hw : (m : ℚ) * 2 ^ e = w) :
    ((finite negative m e).decimal fmt).IsWhole ∧ ∃ a b, fmt.Holds a b ∧ 0 < a ∧
      (a : ℚ) * 2 ^ b = w ∧ fmt.Near a b ((finite negative m e).spelled fmt) := by
  obtain ⟨a, b, hab, hfitted, hvalue⟩ := hx.fits
  have hpos' : 0 < a := by
    by_contra h
    obtain rfl : a = 0 := by omega
    rw [Nat.cast_zero, zero_mul] at hvalue
    have : (0 : ℚ) < m * 2 ^ e := mul_pos (Nat.cast_pos.mpr hpos) (by positivity)
    exact this.ne hvalue
  obtain ⟨n, k, hshort, hn, hnear, hwhole⟩ := Decimal.shortest_spec hfmt hpos' hab
  obtain ⟨k, rfl⟩ := Int.eq_ofNat_of_zero_le (hwhole w (hvalue.trans hw))
  have hdecimal : (finite negative m e).decimal fmt = Decimal.ofScaled n k := by
    rw [decimal, hfitted]
    exact hshort
  obtain ⟨hisWhole, heq⟩ := Decimal.isWhole_ofScaled hn k
  rw [spelled, hdecimal, heq]
  refine ⟨hisWhole, a, b, hab, hpos', hvalue.trans hw, ?_⟩
  push_cast
  exact hnear

theorem pos_of_whole (hw : (m : ℚ) * 2 ^ e = w) (hpos : 0 < w) : 0 < m := by
  by_contra hzero
  obtain rfl : m = 0 := by omega
  rw [Nat.cast_zero, zero_mul] at hw
  have : 0 = w := by exact_mod_cast hw
  omega

theorem decimal_of_zero (hx : Within fmt negative 0 e) :
    (finite negative 0 e).decimal fmt = ⟨[], 0⟩ := by
  obtain ⟨a, b, hab, hfitted, hvalue⟩ := hx.fits
  have hzero : a = 0 := by
    have hunit : (2 : ℚ) ^ b ≠ 0 := by positivity
    rw [Nat.cast_zero, zero_mul, mul_eq_zero, or_iff_left hunit] at hvalue
    exact_mod_cast hvalue
  rw [decimal, hfitted, hzero]
  rfl

theorem spelled_of_zero (hx : Within fmt negative 0 e) :
    (finite negative 0 e).spelled fmt = 0 := by
  rw [spelled, decimal_of_zero hx]
  rfl

theorem readInt64?_numeral (hfmt : fmt.IsProper) (hx : Within fmt negative m e)
    (hw : (m : ℚ) * 2 ^ e = w) :
    Number.readInt64? (((finite negative m e).numeral fmt).signed negative) =
      let z := withSign negative ((finite negative m e).spelled fmt)
      if isInt64 z then some z else none := by
  rcases Nat.eq_zero_or_pos m with rfl | hpos
  · rw [numeral, spelled, decimal_of_zero hx]
    cases negative <;> rfl
  · exact Decimal.readInt64?_whole (isNormal_decimal fmt _)
      (decimal_isWhole hfmt hx hpos hw).1 negative

theorem read?_numeral (hfmt : fmt.IsProper) (hx : Within fmt negative m e) (hpos : 0 < m)
    (hw : (m : ℚ) * 2 ^ e = w) :
    ∃ n k, Number.read? (((finite negative m e).numeral fmt).signed negative) =
        some (.scaled negative n 10 k) ∧
      (Number.Reading.scaled negative n 10 k).toBinary =
        ofRatio negative ((finite negative m e).spelled fmt) 1 := by
  obtain ⟨hwhole, a, b, hab, ha, -, hnear⟩ := decimal_isWhole hfmt hx hpos hw
  refine ⟨_, _, Numeral.read?_signed (numeral_isProper fmt _) negative, ?_⟩
  have hvalue := Decimal.numeral_value ((finite negative m e).decimal fmt)
  rw [Decimal.value_eq_whole hwhole.ends, ← spelled] at hvalue
  obtain ⟨hlow, hhigh⟩ := Number.near_bounds hfmt hab ha hnear
  rw [numeral, Number.toBinary_scaled negative (hvalue ▸ hlow) (hvalue ▸ hhigh),
    if_pos (Decimal.numeral_shift_nonneg hwhole), Nat.pow_eq, Decimal.numeral_whole hwhole, spelled]

theorem spelled_of_lt (hfmt : fmt.IsProper) (hx : Within fmt negative m e)
    (hw : (m : ℚ) * 2 ^ e = w) (hlt : w < 2 ^ fmt.precision) :
    (finite negative m e).spelled fmt = w := by
  rcases Nat.eq_zero_or_pos m with rfl | hpos
  · rw [spelled_of_zero hx]
    rw [Nat.cast_zero, zero_mul] at hw
    exact_mod_cast hw
  obtain ⟨-, a, b, hab, ha, hvalue, hnear⟩ := decimal_isWhole hfmt hx hpos hw
  -- The unit is at most one, or the number would have more bits.
  have hunit : (2 : ℚ) ^ b ≤ 1 := by
    refine zpow_le_one_of_nonpos₀ one_le_two ?_
    by_contra hb
    have hfull : (2 : ℚ) ^ (fmt.precision - 1) ≤ a := by
      have := hab.full.resolve_right (by have := hfmt.least_le; omega)
      exact_mod_cast this
    have hge : (2 : ℚ) ^ fmt.precision ≤ w := by
      calc (2 : ℚ) ^ fmt.precision = 2 ^ (fmt.precision - 1) * 2 ^ (1 : Int) := by
            rw [zpow_one, ← pow_succ, Nat.sub_add_cancel hfmt.one_lt.le]
        _ ≤ a * 2 ^ b := by
            gcongr
            · exact one_le_two
            · omega
        _ = w := hvalue
    have : 2 ^ fmt.precision ≤ w := by exact_mod_cast hge
    omega
  have hreach := fmt.reach_le a b
  have hreach' := fmt.reach_pos a b
  obtain ⟨hlow, hhigh, -⟩ := hnear
  rw [sub_mul, hvalue] at hlow
  rw [add_mul, hvalue] at hhigh
  have hlow : (w : ℚ) < (finite negative m e).spelled fmt + 1 := by nlinarith
  have hhigh : ((finite negative m e).spelled fmt : ℚ) < w + 1 := by nlinarith
  norm_cast at hlow hhigh
  omega

section Double

theorem spelled_near (hm : FloatFormat.double.Holds m e) (hpos : 0 < m) (hw : (m : ℚ) * 2 ^ e = w) :
    FloatFormat.double.Near m e ((finite negative m e).spelled .double) := by
  obtain ⟨-, a, b, hab, -, hvalue, hnear⟩ :=
    decimal_isWhole FloatFormat.isProper_double (@within_double negative m e hm) hpos hw
  obtain ⟨rfl, rfl⟩ :=
    holds_unique FloatFormat.isProper_double hm hab (hvalue.trans hw.symm)
  exact hnear

theorem spelled_lt (hm : FloatFormat.double.Holds m e) (hpos : 0 < m) (hw : (m : ℚ) * 2 ^ e = w)
    (hlt : w < 9223372036854775808) :
    (finite negative m e).spelled .double < 9223372036854775808 := by
  have hm' : (m : ℚ) + 1 ≤ 2 ^ 53 := by exact_mod_cast hm.lt
  have he : e ≤ 10 := by
    by_contra he
    have hfull : (2 : ℚ) ^ 52 ≤ m := by
      have := hm.full.resolve_right (by change e ≠ -1074; omega)
      exact_mod_cast this
    have hge : (9223372036854775808 : ℚ) ≤ w := by
      calc (9223372036854775808 : ℚ) = 2 ^ 52 * 2 ^ (11 : Int) := by norm_num
        _ ≤ m * 2 ^ e := by
            gcongr
            · exact one_le_two
            · omega
        _ = w := hw
    have : 9223372036854775808 ≤ w := by exact_mod_cast hge
    omega
  have hlt : ((finite negative m e).spelled .double : ℚ) < 9223372036854775808 := by
    calc ((finite negative m e).spelled .double : ℚ) ≤ (m + 1 / 2) * 2 ^ e :=
          (spelled_near hm hpos hw).high
      _ ≤ (2 ^ 53 - 1 / 2) * 2 ^ (10 : Int) := by
          gcongr
          · linarith
          · exact one_le_two
      _ < 9223372036854775808 := by norm_num
  exact_mod_cast hlt

theorem lt_spelled (hm : FloatFormat.double.Holds m e) (hpos : 0 < m) (hw : (m : ℚ) * 2 ^ e = w)
    (hle : 9223372036854775808 ≤ w) :
    9223372036854775808 < (finite negative m e).spelled .double := by
  have hm' : (m : ℚ) < 2 ^ (53 : Int) := by exact_mod_cast hm.lt
  have hle : ((2 : ℚ) ^ (63 : Int)) ≤ m * 2 ^ e := by
    rw [hw]
    exact_mod_cast hle
  have he : 11 ≤ e := by
    have hlt : (m : ℚ) * 2 ^ e < 2 ^ (53 + e) := by
      rw [zpow_add₀ two_ne_zero]
      gcongr
    have := (zpow_lt_zpow_iff_right₀ one_lt_two).mp (hle.trans_lt hlt)
    omega
  have hfull : 2 ^ 52 ≤ m := hm.full.resolve_right (by change e ≠ -1074; omega)
  by_cases hfirst : m = 2 ^ 52 ∧ e = 11
  · -- The first of them is the one whose decimal might have been below.
    obtain ⟨rfl, rfl⟩ := hfirst
    cases negative <;> decide +kernel
  · have hlarge : (9223372036854775808 : ℚ) < (m - 1 / 2) * 2 ^ e := by
      rcases eq_or_lt_of_le he with rfl | he
      · have hnext : (2 ^ 52 + 1 : Nat) ≤ (m : ℚ) := Nat.cast_le.mpr (by omega)
        norm_num only at hnext ⊢
        linarith
      · have hfull : (2 : ℚ) ^ 52 ≤ m := by exact_mod_cast hfull
        calc (9223372036854775808 : ℚ) < (2 ^ 52 - 1 / 2) * 2 ^ (12 : Int) := by norm_num
          _ ≤ (m - 1 / 2) * 2 ^ e := by
              gcongr
              · linarith
              · exact one_le_two
              · omega
    have hlow : (9223372036854775808 : ℚ) < (finite negative m e).spelled .double := by
      calc (9223372036854775808 : ℚ) < (m - 1 / 2) * 2 ^ e := hlarge
        _ ≤ (m - FloatFormat.double.reach m e) * 2 ^ e := by
            gcongr
            exact FloatFormat.double.reach_le m e
        _ ≤ (finite negative m e).spelled .double := (spelled_near hm hpos hw).low
    exact_mod_cast hlow

theorem ofRatio_spelled (hm : FloatFormat.double.Holds m e) (hpos : 0 < m)
    (hw : (m : ℚ) * 2 ^ e = w) :
    ofRatio negative ((finite negative m e).spelled .double) 1 = .finite negative m e := by
  refine round_of_near FloatFormat.isProper_double hm hpos Nat.one_pos ?_
  rw [Nat.cast_one, div_one]
  exact spelled_near hm hpos hw

end Double

end Binary

end QueryTree
