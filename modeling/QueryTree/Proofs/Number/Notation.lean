import QueryTree.Proofs.Number.Numeral
import QueryTree.Proofs.Number.Shortest
import QueryTree.Proofs.Text.Plain
import QueryTree.Value.Json

namespace QueryTree

open Number (Numeral)
open Value (floatFormat)

namespace Decimal

-- Digits without a leading zero.
structure IsNormal (d : Decimal) : Prop where
  digits : d.HasDigits
  first : '0' ∉ d.digits.head?

theorem IsNormal.cons {d : Decimal} (hd : d.IsNormal) (hne : d.digits ≠ []) :
    ∃ c cs, d.digits = c :: cs ∧ c ≠ '0' := by
  obtain ⟨c, cs, hcs⟩ := List.exists_cons_of_ne_nil hne
  exact ⟨c, cs, hcs, fun hc => hd.first (by rw [hcs, hc]; rfl)⟩

def value (d : Decimal) : ℚ := Nat.ofDigitChars 10 d.digits 0 * 10 ^ (d.point - d.digits.length)

theorem dropZeros_append (ds : List Char) :
    ∃ k, ds = dropZeros ds ++ List.replicate k '0' := by
  refine ⟨(ds.reverse.takeWhile (· == '0')).length, ?_⟩
  have hzeros : ds.reverse.takeWhile (· == '0') =
      List.replicate (ds.reverse.takeWhile (· == '0')).length '0' :=
    List.eq_replicate_of_mem fun c hc => by simpa using List.mem_takeWhile_imp hc
  have hsplit := @List.takeWhile_append_dropWhile _ (· == '0') ds.reverse
  rw [dropZeros, ← List.reverse_replicate, ← hzeros, ← List.reverse_append, hsplit,
    List.reverse_reverse]

theorem ofDigitChars_append_zeros (ds : List Char) (k : Nat) :
    Nat.ofDigitChars 10 (ds ++ List.replicate k '0') 0 = Nat.ofDigitChars 10 ds 0 * 10 ^ k := by
  rw [Nat.ofDigitChars_append, Nat.ofDigitChars_replicate_zero, Nat.mul_comm]

theorem isNormal_ofScaled (n : Nat) (shift : Int) : (ofScaled n shift).IsNormal := by
  refine ⟨hasDigits_ofScaled n shift, ?_⟩
  rcases Nat.eq_zero_or_pos n with rfl | hn
  · simp [ofScaled]
  obtain ⟨k, hk⟩ := dropZeros_append (digitsOf n)
  rw [ofScaled, if_neg (by simpa using hn.ne')]
  rcases Number.toDigits_cases n with hzero | ⟨c, cs, hcs, hc⟩
  · have hread := Number.readDigits?_toDigits n
    rw [hzero] at hread
    exact absurd (Option.some.inj hread) hn.ne
  · rw [digitsOf, hcs] at hk ⊢
    dsimp only
    cases hdrop : dropZeros (c :: cs) with
    | nil => simp
    | cons d ds =>
      rw [hdrop, List.cons_append] at hk
      rintro ⟨⟩
      exact hc (List.cons.inj hk).1

theorem value_ofScaled (n : Nat) (shift : Int) : (ofScaled n shift).value = n * 10 ^ shift := by
  rcases Nat.eq_zero_or_pos n with rfl | hn
  · simp [ofScaled, value]
  obtain ⟨k, hk⟩ := dropZeros_append (digitsOf n)
  have hlength : (digitsOf n).length = (dropZeros (digitsOf n)).length + k := by
    conv_lhs => rw [hk]
    rw [List.length_append, List.length_replicate]
  have hn' : n = Nat.ofDigitChars 10 (dropZeros (digitsOf n)) 0 * 10 ^ k := by
    rw [← ofDigitChars_append_zeros, ← hk, digitsOf, Nat.ofDigitChars_ten_toDigits]
  rw [ofScaled, if_neg (by simpa using hn.ne')]
  simp only [value]
  conv_rhs => rw [hn']
  rw [Nat.cast_mul, Nat.cast_pow, Nat.cast_ofNat, mul_assoc, ← zpow_natCast,
    ← zpow_add₀ (by norm_num)]
  congr 2
  omega

end Decimal

namespace Value

theorem trimExponent_of_notMem {s : String} (hs : 'e' ∉ s.toList) : trimExponent s = s := by
  unfold trimExponent
  split
  · next heq =>
    have : 'e' ∈ s.toList.reverse := by simp [heq]
    exact absurd (List.mem_reverse.mp this) hs
  · rfl

theorem trimExponent_of_digits (front : List Char) (sign : Char) {c : Char} {cs : List Char}
    (hc : c ≠ '0') (hcs : cs ≠ []) (hdigits : ∀ d ∈ c :: cs, d.isDigit = true) :
    trimExponent (String.ofList (front ++ 'e' :: sign :: c :: cs)) =
      String.ofList (front ++ 'e' :: sign :: c :: cs) := by
  unfold trimExponent
  split
  · next y rest heq =>
    have hsplit : (front ++ 'e' :: sign :: c :: cs).reverse =
        (c :: cs).reverse ++ sign :: 'e' :: front.reverse := by simp
    rw [String.toList_ofList, hsplit] at heq
    have hrev : (c :: cs).reverse.reverse = c :: cs := List.reverse_reverse _
    rcases hds : (c :: cs).reverse with _ | ⟨p, _ | ⟨q, _ | ⟨r, ds⟩⟩⟩ <;> rw [hds] at heq hrev
    · cases hrev
    · exact absurd (List.cons.inj hrev).2.symm hcs
    · -- The zero would be the first of two digits.
      cases heq
      exact absurd (List.cons.inj hrev).1.symm hc
    · -- The sign would be the third digit from the end.
      simp only [List.cons_append, List.cons.injEq] at heq
      obtain ⟨-, -, rfl, -⟩ := heq
      have hmem : '-' ∈ c :: cs := by
        rw [← hrev]
        simp
      exact absurd (hdigits '-' hmem) (by decide)
  · rfl

theorem trimExponent_scientific (front : List Char) {e : Int} (he : e < 0 ∨ 10 ≤ e) :
    trimExponent (String.ofList (front ++ 'e' :: (Decimal.exponentText e).toList)) =
      String.ofList (front ++ 'e' :: (if e < 0 then '-' else '+') :: Nat.toDigits 10 e.natAbs) := by
  have hsign : (if e < 0 then "-" else "+").toList = [if e < 0 then '-' else '+'] := by
    split <;> rfl
  rw [Decimal.exponentText, Decimal.digitsOf, String.toList_append, hsign, String.toList_ofList,
    List.singleton_append]
  by_cases hshort : (Nat.toDigits 10 e.natAbs).length < 2
  · -- A single digit has been written with a zero before it, and is negative.
    have hlt : e.natAbs < 10 :=
      (Nat.length_toDigits_le_iff (by decide) (by decide)).mp (Nat.le_of_lt_succ hshort)
    have hneg : e < 0 := by omega
    rw [if_pos hshort, Nat.toDigits_of_lt_base hlt, if_pos hneg]
    simp [trimExponent]
  · rw [if_neg hshort]
    have hdigits := @Number.isDigit_of_mem_toDigits e.natAbs
    rcases Number.toDigits_cases e.natAbs with hzero | ⟨c, cs, hcs, hc⟩
    · rw [hzero] at hshort
      exact absurd (by decide) hshort
    · rw [hcs] at hshort hdigits ⊢
      refine trimExponent_of_digits front _ hc ?_ hdigits
      rintro rfl
      exact hshort (Nat.lt_succ_self 1)

end Value

namespace Decimal

variable {d : Decimal}

-- A digit before the point, and an exponent.
def scientific (d : Decimal) : Numeral where
  whole := d.digits.take 1
  part := d.digits.drop 1
  exponent := some (d.point - 1 < 0, Nat.toDigits 10 (d.point - 1).natAbs)

-- Digits behind the point only, after zeros.
def small (d : Decimal) : Numeral where
  whole := ['0']
  part := List.replicate (-d.point).toNat '0' ++ d.digits
  exponent := none

-- Digits before the point, with zeros after them where there are too few.
def large (d : Decimal) : Numeral where
  whole := d.digits.take d.point.toNat ++ List.replicate (d.point.toNat - d.digits.length) '0'
  part := d.digits.drop d.point.toNat
  exponent := none

-- The numeral of the interchange form.
def numeral (d : Decimal) : Numeral :=
  if d.digits = [] then ⟨['0'], [], none⟩
  else if d.point - 1 < -6 ∨ 21 ≤ d.point - 1 then d.scientific
  else if d.point ≤ 0 then d.small
  else d.large

theorem isDigit_of_mem_zeros {k : Nat} : ∀ c ∈ List.replicate k '0', c.isDigit = true := by
  intro c hc
  rw [List.eq_of_mem_replicate hc]
  rfl

theorem scientific_isProper (hd : d.IsNormal) (hne : d.digits ≠ []) :
    d.scientific.IsProper := by
  obtain ⟨c, cs, hcs, hc⟩ := hd.cons hne
  have hdigits := hd.digits
  rw [HasDigits, hcs] at hdigits
  refine ⟨?_, ?_, ?_, .inr ⟨c, [], by simp [scientific, hcs], hc⟩⟩
  · simpa [scientific, hcs] using hdigits c List.mem_cons_self
  · simpa [scientific, hcs] using fun x hx => hdigits x (List.mem_cons_of_mem c hx)
  · rintro x ⟨⟩
    exact ⟨Nat.toDigits_ne_nil, Number.isDigit_of_mem_toDigits⟩

theorem small_isProper (hd : d.IsNormal) : d.small.IsProper := by
  refine ⟨by simp [small], ?_, by simp [small], .inl rfl⟩
  exact fun c hc => (List.mem_append.mp hc).elim (isDigit_of_mem_zeros c) (hd.digits c)

theorem large_isProper (hd : d.IsNormal) (hne : d.digits ≠ []) (hpoint : 0 < d.point) :
    d.large.IsProper := by
  refine ⟨?_, ?_, by simp [large], .inr ?_⟩
  · exact fun c hc => (List.mem_append.mp hc).elim
      (fun h => hd.digits c (List.mem_of_mem_take h)) (isDigit_of_mem_zeros c)
  · exact fun c hc => hd.digits c (List.mem_of_mem_drop hc)
  · obtain ⟨c, cs, hcs, hc⟩ := hd.cons hne
    obtain ⟨k, hk⟩ : ∃ k, d.point.toNat = k + 1 := ⟨d.point.toNat - 1, by omega⟩
    exact ⟨c, _, by rw [large, hcs, hk]; rfl, hc⟩

theorem numeral_isProper (hd : d.IsNormal) : d.numeral.IsProper := by
  unfold numeral
  split
  · exact ⟨by simp, by simp, by simp, .inl rfl⟩
  next hne =>
  split
  · exact scientific_isProper hd hne
  split
  · exact small_isProper hd
  · exact large_isProper hd hne (by omega)

section Value

theorem scientific_shift (hne : d.digits ≠ []) :
    d.scientific.shift = d.point - d.digits.length := by
  obtain ⟨c, cs, hcs⟩ := List.exists_cons_of_ne_nil hne
  simp only [Numeral.shift, scientific, Numeral.exponentValue, Option.map_some, Option.getD_some,
    decide_eq_true_eq, Nat.ofDigitChars_ten_toDigits, hcs, List.drop_one, List.tail_cons,
    List.length_cons]
  split <;> omega

theorem scientific_value (hne : d.digits ≠ []) :
    (d.scientific.mantissa : ℚ) * 10 ^ d.scientific.shift = d.value := by
  rw [scientific_shift hne, Numeral.mantissa, scientific, List.take_append_drop, value]

theorem small_value (hpoint : d.point ≤ 0) :
    (d.small.mantissa : ℚ) * 10 ^ d.small.shift = d.value := by
  have hexp : d.small.shift = d.point - d.digits.length := by
    simp only [Numeral.shift, small, Option.map_none, Option.getD_none, List.length_append,
      List.length_replicate]
    omega
  have hmantissa : d.small.mantissa = Nat.ofDigitChars 10 d.digits 0 := by
    simp [Numeral.mantissa, small, Nat.ofDigitChars_cons, Nat.ofDigitChars_append,
      Nat.ofDigitChars_replicate_zero]
  rw [hexp, hmantissa, value]

theorem large_part (hle : d.digits.length ≤ d.point.toNat) : d.large.part = [] :=
  List.drop_eq_nil_of_le hle

theorem large_shift (hle : d.digits.length ≤ d.point.toNat) : d.large.shift = 0 := by
  simp [Numeral.shift, large, List.drop_eq_nil_of_le hle]

theorem large_value (hpoint : 0 < d.point) :
    (d.large.mantissa : ℚ) * 10 ^ d.large.shift = d.value := by
  rcases Nat.le_total d.digits.length d.point.toNat with hle | hle
  · have hmantissa : d.large.mantissa =
        Nat.ofDigitChars 10 d.digits 0 * 10 ^ (d.point.toNat - d.digits.length) := by
      rw [Numeral.mantissa, large, List.take_of_length_le hle, List.drop_eq_nil_of_le hle,
        List.append_nil, ofDigitChars_append_zeros]
    rw [large_shift hle, hmantissa, value, zpow_zero, mul_one, Nat.cast_mul, Nat.cast_pow,
      Nat.cast_ofNat, ← zpow_natCast]
    congr 2
    omega
  · have hmantissa : d.large.mantissa = Nat.ofDigitChars 10 d.digits 0 := by
      rw [Numeral.mantissa, large, Nat.sub_eq_zero_of_le hle, List.replicate_zero, List.append_nil,
        List.take_append_drop]
    have hexp : d.large.shift = d.point - d.digits.length := by
      simp only [Numeral.shift, large, Option.map_none, Option.getD_none, List.length_drop]
      omega
    rw [hexp, hmantissa, value]

theorem numeral_value (d : Decimal) :
    (d.numeral.mantissa : ℚ) * 10 ^ d.numeral.shift = d.value := by
  unfold numeral
  split
  · next hnil => simp [Numeral.mantissa, value, hnil, Nat.ofDigitChars_cons]
  next hne =>
  split
  · exact scientific_value hne
  split
  · next h => exact small_value h
  · exact large_value (by omega)

end Value

section Text

theorem toList_scientificText (hne : d.digits ≠ []) :
    d.scientificText.toList =
      d.scientific.whole ++ d.scientific.partChars ++
        'e' :: (exponentText (d.point - 1)).toList := by
  obtain ⟨c, cs, hcs⟩ := List.exists_cons_of_ne_nil hne
  cases cs with
  | nil => simp [scientificText, scientific, Numeral.partChars, hcs]
  | cons b cs => simp [scientificText, scientific, Numeral.partChars, hcs]

theorem toList_positionalText (hne : d.digits ≠ []) :
    d.positionalText.toList = if d.point ≤ 0 then d.small.chars else d.large.chars := by
  simp only [positionalText, positional, List.isEmpty_eq_false_iff.mpr hne, Bool.false_eq_true,
    if_false]
  split
  · simp [small, Numeral.chars, Numeral.partChars, Numeral.exponentChars, hne]
  · by_cases hdrop : d.digits.drop d.point.toNat = []
    · simp [large, Numeral.chars, Numeral.partChars, Numeral.exponentChars, hdrop]
    · simp [large, Numeral.chars, Numeral.partChars, Numeral.exponentChars, hdrop]

theorem notMem_chars {n : Numeral} (hn : n.IsProper) (hexp : n.exponent = none) :
    'e' ∉ n.chars := by
  have hdigit : ∀ ds : List Char, (∀ c ∈ ds, c.isDigit = true) → 'e' ∉ ds :=
    fun ds hds hmem => absurd (hds _ hmem) (by decide)
  have hpart := hdigit _ hn.part
  have hwhole := hdigit _ hn.whole
  unfold Numeral.chars Numeral.partChars Numeral.exponentChars
  split <;> simp [hexp, hpart, hwhole]

theorem trimExponent_write (hd : d.IsNormal) {front : String} (hfront : 'e' ∉ front.toList) :
    Value.trimExponent (front ++ DecimalStyle.interchange.write d) =
      String.ofList (front.toList ++ d.numeral.chars) := by
  have htext : ∀ s t : String, s ++ t = String.ofList (s.toList ++ t.toList) := by
    simp [String.ofList_append]
  rw [DecimalStyle.write, numeral]
  by_cases hnil : d.digits = []
  · rw [if_pos (by simp [hnil]), if_pos hnil, htext, Value.trimExponent_of_notMem]
    · rfl
    · simp [hfront]
  rw [if_neg (by simpa using hnil), if_neg hnil]
  by_cases hsci : d.point - 1 < -6 ∨ 21 ≤ d.point - 1
  · have htest : (decide (d.point - 1 < DecimalStyle.interchange.lowest) ||
        decide (d.point - 1 ≥ DecimalStyle.interchange.limit)) = true := by
      rw [Bool.or_eq_true, decide_eq_true_eq, decide_eq_true_eq]
      exact hsci
    rw [htest, if_pos rfl, if_pos hsci, htext, toList_scientificText hnil, ← List.append_assoc,
      Value.trimExponent_scientific _ (by omega)]
    simp [Numeral.chars, Numeral.exponentChars, scientific]
  · have htest : (decide (d.point - 1 < DecimalStyle.interchange.lowest) ||
        decide (d.point - 1 ≥ DecimalStyle.interchange.limit)) = false := by
      rw [Bool.or_eq_false_iff, decide_eq_false_iff_not, decide_eq_false_iff_not]
      exact not_or.mp hsci
    rw [htest, if_neg (by decide), if_neg hsci, htext, toList_positionalText hnil]
    by_cases hpoint : d.point ≤ 0
    · rw [if_pos hpoint, if_pos hpoint, Value.trimExponent_of_notMem]
      simp [hfront, notMem_chars (small_isProper hd) rfl]
    · rw [if_neg hpoint, if_neg hpoint, Value.trimExponent_of_notMem]
      simp [hfront, notMem_chars (large_isProper hd hnil (by omega)) rfl]

end Text

end Decimal

namespace Number

theorem two_pow_lt_ten_pow : (2 : ℚ) ^ 1133 < 10 ^ 352 := by
  calc (2 : ℚ) ^ 1133 = (2 ^ 103) ^ 11 := by rw [← pow_mul]
    _ < (10 ^ 32) ^ 11 := by
        gcongr
        norm_num
    _ = 10 ^ 352 := by rw [← pow_mul]

theorem near_bounds {fmt : FloatFormat} {m : Nat} {e : Int} {v : ℚ} (hfmt : fmt.IsProper)
    (hm : fmt.Holds m e) (hpos : 0 < m) (hnear : fmt.Near m e v) :
    (10 : ℚ) ^ (-352 : Int) < v ∧ v < 10 ^ (352 : Int) := by
  obtain ⟨-, hprecision, hleast, -, -, hgreatest⟩ := hfmt
  have hlarge : (2 : ℚ) ^ (1133 : Int) < 10 ^ (352 : Int) := two_pow_lt_ten_pow
  constructor
  · have hone : (1 : ℚ) ≤ m := by exact_mod_cast hpos
    have hreach := fmt.reach_le m e
    calc (10 : ℚ) ^ (-352 : Int) < 2 ^ (-1133 : Int) := by
          rw [zpow_neg, zpow_neg]
          gcongr
      _ ≤ 2 ^ (-1 + e) := zpow_le_zpow_right₀ one_le_two (by
          have := hm.least_le
          omega)
      _ = 1 / 2 * 2 ^ e := by rw [zpow_add₀ two_ne_zero]; norm_num
      _ ≤ (m - fmt.reach m e) * 2 ^ e := by gcongr; linarith
      _ ≤ v := hnear.low
  · have hlt : (m : ℚ) + 1 ≤ 2 ^ fmt.precision := by exact_mod_cast hm.lt
    calc v ≤ (m + 1 / 2) * 2 ^ e := hnear.high
      _ ≤ 2 ^ fmt.precision * 2 ^ e := by gcongr; linarith
      _ = 2 ^ (fmt.precision + e) := by rw [zpow_add₀ two_ne_zero, zpow_natCast]
      _ ≤ 2 ^ (1133 : Int) := zpow_le_zpow_right₀ one_le_two (by
          have := hm.le_greatest
          omega)
      _ < 10 ^ (352 : Int) := hlarge

theorem toBinary_scaled {n : Nat} {k : Int} (negative : Bool)
    (hlow : (10 : ℚ) ^ (-352 : Int) < n * 10 ^ k) (hhigh : (n * 10 ^ k : ℚ) < 10 ^ (352 : Int)) :
    (Reading.scaled negative n 10 k).toBinary =
      if k ≥ 0 then .ofRatio negative (n * Nat.pow 10 k.toNat) 1
      else .ofRatio negative n (Nat.pow 10 (-k).toNat) := by
  have hn : 0 < n := by
    by_contra h
    obtain rfl : n = 0 := by omega
    rw [Nat.cast_zero, zero_mul] at hlow
    exact absurd hlow (not_lt.mpr (by positivity))
  have hten : (1 : ℚ) < 10 := by norm_num
  have hlarge : tooLarge n 10 k = false := by
    have h : (10 : ℚ) ^ ((Decimal.digitsOf n).length - 1 + k : Int) < 10 ^ (352 : Int) := by
      refine lt_of_le_of_lt ?_ hhigh
      rw [zpow_add₀ (by norm_num)]
      gcongr
      exact Decimal.ten_zpow_length_le hn
    have := (zpow_lt_zpow_iff_right₀ hten).mp h
    simp only [tooLarge, beq_self_eq_true, if_true, decide_eq_false_iff_not]
    omega
  have hsmall : tooSmall n 10 k = false := by
    have h : (10 : ℚ) ^ (-352 : Int) < 10 ^ ((Decimal.digitsOf n).length + k : Int) := by
      refine lt_trans hlow ?_
      rw [zpow_add₀ (by norm_num), zpow_natCast]
      gcongr
      exact_mod_cast Decimal.lt_ten_pow_length n
    have := (zpow_lt_zpow_iff_right₀ hten).mp h
    simp only [tooSmall, beq_self_eq_true, if_true, decide_eq_false_iff_not]
    omega
  simp only [Reading.toBinary, beq_eq_false_iff_ne.mpr hn.ne', hlarge, hsmall, Bool.false_eq_true,
    if_false]

theorem toBinary_of_near {negative : Bool} {m n : Nat} {e k : Int}
    (hm : FloatFormat.double.Holds m e) (hpos : 0 < m)
    (hnear : FloatFormat.double.Near m e (n * 10 ^ k)) :
    (Reading.scaled negative n 10 k).toBinary = .finite negative m e := by
  have hfmt := FloatFormat.isProper_double
  obtain ⟨hlow, hhigh⟩ := near_bounds hfmt hm hpos hnear
  rw [toBinary_scaled negative hlow hhigh]
  split
  · next h =>
    obtain ⟨j, rfl⟩ := Int.eq_ofNat_of_zero_le h
    exact Binary.round_of_near hfmt hm hpos Nat.one_pos (by simpa using hnear)
  · next h =>
    obtain ⟨j, hj⟩ := Int.eq_ofNat_of_zero_le (a := -k) (by omega)
    obtain rfl : k = -(j : Int) := by omega
    exact Binary.round_of_near hfmt hm hpos (Nat.pow_pos (by decide))
      (by simpa [div_eq_mul_inv] using hnear)

end Number

namespace Binary

theorem isNormal_decimal (fmt : FloatFormat) (x : Binary) : (x.decimal fmt).IsNormal := by
  unfold decimal
  split
  · next m e _ =>
    obtain ⟨n, k, h⟩ := Decimal.shortest_cases fmt m e
    rw [h]
    exact Decimal.isNormal_ofScaled n k
  · exact Decimal.isNormal_ofScaled 0 0

def numeral (fmt : FloatFormat) (x : Binary) : Numeral := (x.decimal fmt).numeral

theorem numeral_isProper (fmt : FloatFormat) (x : Binary) : (x.numeral fmt).IsProper :=
  Decimal.numeral_isProper (isNormal_decimal fmt x)

theorem floatJson_finite (k : FloatKind) (negative : Bool) (m : Nat) (e : Int) :
    Value.floatJson k (.finite negative m e) = .ok (.number (String.ofList
      (((finite negative m e).numeral (floatFormat k)).signed negative))) := by
  have hdecimal := isNormal_decimal (floatFormat k) (.finite negative m e)
  have hwrite : (finite negative m e).write .interchange (floatFormat k) "+Inf" =
      (if negative then "-" else "") ++
        DecimalStyle.interchange.write ((finite negative m e).decimal (floatFormat k)) := rfl
  rw [Value.floatJson, hwrite, Decimal.trimExponent_write hdecimal (by cases negative <;> decide)]
  cases negative <;> rfl

-- A double is read back from what is written for it.
theorem readBinary?_numeral {negative : Bool} {m : Nat} {e : Int}
    (hm : FloatFormat.double.Holds m e) :
    Number.readBinary? (((finite negative m e).numeral .double).signed negative) =
      some (.finite negative m e) := by
  have hdecimal : (finite negative m e).decimal .double = Decimal.shortest .double m e := by
    rw [decimal, fitted_of_holds FloatFormat.isProper_double hm]
  have hread :=
    Number.Numeral.read?_signed (numeral_isProper .double (finite negative m e)) negative
  have hbinary : (Number.Reading.scaled negative ((finite negative m e).numeral .double).mantissa 10
      ((finite negative m e).numeral .double).shift).toBinary = .finite negative m e := by
    rcases Nat.eq_zero_or_pos m with rfl | hpos
    · rw [numeral, hdecimal, hm.eq_least]
      rfl
    · obtain ⟨n, k, hshort, -, hnear, -⟩ :=
        Decimal.shortest_spec FloatFormat.isProper_double hpos hm
      refine Number.toBinary_of_near hm hpos ?_
      rw [numeral, Decimal.numeral_value, hdecimal, hshort, Decimal.value_ofScaled]
      exact hnear
  rw [Number.readBinary?, hread, Option.bind_some, hbinary, Number.Reading.overflows, hbinary]
  rfl

end Binary

end QueryTree
