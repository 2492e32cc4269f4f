import QueryTree.Proofs.Codec.Transmission
import QueryTree.Proofs.Codec.Validity
import QueryTree.Proofs.Number.Whole
import QueryTree.Proofs.Value.Equality

namespace QueryTree

open Number (isInt64)
open Binary (Within)

namespace Value

variable {negative : Bool} {m w : Nat} {e : Int}

theorem natAbs_withSign (negative : Bool) (n : Nat) : (withSign negative n).natAbs = n := by
  unfold withSign
  split <;> omega

theorem normalFloat_whole (hw : (m : ℚ) * 2 ^ e = w) :
    normalFloat (.finite negative m e) =
      if w < 2 ^ 53 then int64 (withSign negative w) else float64 (.finite negative m e) := by
  have hwhole : (Binary.finite negative m e).integral? = some (withSign negative w) :=
    Binary.integral?_eq_some_iff.mpr ⟨w, hw, rfl⟩
  simp only [normalFloat, hwhole, natAbs_withSign, Nat.pow_eq]

-- A magnitude that is beyond the integers of 64 bits stays a double.
theorem normalFloat_ofRatio {n : Nat} (hn : 9223372036854775808 ≤ n)
    (h : Binary.ofRatio negative n 1 = .finite negative m e) :
    0 < m ∧ normalFloat (.finite negative m e) = float64 (.finite negative m e) := by
  have hn' : (2 : ℚ) ^ ((FloatFormat.double.precision : Int) - 1 + 11) ≤ (n : ℚ) / (1 : Nat) := by
    have : (9223372036854775808 : ℚ) ≤ n := by exact_mod_cast hn
    rw [Nat.cast_one, div_one]
    exact le_of_eq_of_le (by norm_num [FloatFormat.double]) this
  obtain ⟨hfull, he⟩ := Binary.le_of_round FloatFormat.isProper_double Nat.one_pos (by decide) hn' h
  refine ⟨lt_of_lt_of_le (by decide) hfull, ?_⟩
  obtain ⟨k, rfl⟩ := Int.eq_ofNat_of_zero_le (le_trans (by decide) he)
  have hwhole : (m : ℚ) * 2 ^ (k : Int) = (m * 2 ^ k : Nat) := by
    push_cast
    rfl
  have hlarge : 2 ^ 53 ≤ m * 2 ^ k :=
    calc 2 ^ 53 ≤ 2 ^ 52 * 2 ^ 11 := by decide
      _ ≤ m * 2 ^ k := Nat.mul_le_mul hfull (Nat.pow_le_pow_right (by decide) (by omega))
  rw [normalFloat_whole hwhole, if_neg (not_lt.mpr hlarge)]

theorem isInt64_withSign {n : Nat} (hn : n < 9223372036854775808) :
    isInt64 (withSign negative n) = true := by
  rw [isInt64, Bool.and_eq_true, decide_eq_true_eq, decide_eq_true_eq]
  cases negative <;> simp only [withSign] <;> omega

theorem le_of_not_isInt64 {n : Nat} (h : isInt64 (withSign negative n) = false) :
    9223372036854775808 ≤ n := by
  by_contra hlt
  rw [isInt64_withSign (by omega)] at h
  cases h

theorem deepEq_normalFloat_iff {a : Nat} {b : Int} {x : Binary} (ha : 0 < a)
    (hnormal : normalFloat (.finite negative a b) = float64 (.finite negative a b)) :
    deepEq (normalFloat x) (float64 (.finite negative a b)) = true ↔ .finite negative a b = x := by
  constructor
  · intro h
    have hsame : x.same (.finite negative a b) = true := by
      unfold normalFloat at h
      split at h
      · split at h
        · simp [int64, float64, deepEq] at h
        · simpa [float64, deepEq] using h
      · simpa [float64, deepEq] using h
    cases x with
    | nan => cases hsame
    | infinite s => cases hsame
    | finite s m e =>
      rw [Binary.same, if_neg (by simp [ha.ne'])] at hsame
      simp only [Bool.and_eq_true, beq_iff_eq] at hsame
      obtain ⟨⟨rfl, rfl⟩, rfl⟩ := hsame
      rfl
  · rintro rfl
    rw [hnormal]
    simp [float64, deepEq, Binary.same, ha.ne']

theorem same_float_iff {k : FloatKind} (hfmt : (floatFormat k).IsProper)
    (hx : Within (floatFormat k) negative m e) (hw : (m : ℚ) * 2 ^ e = w) :
    let x := Binary.finite negative m e
    let d := x.spelled (floatFormat k)
    (Value.float k x).same
        (normalNumber (String.ofList ((x.numeral (floatFormat k)).signed negative))) = true ↔
      if isInt64 (withSign negative d) then w < 2 ^ 53 ∧ d = w
      else Binary.ofRatio negative d 1 = x := by
  intro x d
  have hint := Binary.readInt64?_numeral hfmt hx hw
  rw [same, normalize_normalNumber]
  change deepEq (normalFloat x) _ = true ↔ _
  rw [normalFloat_whole hw, normalNumber, String.toList_ofList, hint]
  dsimp only
  by_cases hd : isInt64 (withSign negative d) = true
  · rw [if_pos hd, if_pos hd]
    dsimp only
    by_cases hsmall : w < 2 ^ 53
    · rw [if_pos hsmall]
      simp only [int64, deepEq, BEq.rfl, Bool.true_and, beq_iff_eq, withSign_inj, hsmall, true_and]
      exact eq_comm
    · rw [if_neg hsmall]
      simp only [int64, float64, deepEq, Bool.false_eq_true, hsmall, false_and]
  · rw [if_neg hd, if_neg hd]
    dsimp only
    have hlarge := le_of_not_isInt64 (Bool.eq_false_iff.mpr hd)
    have hpos : 0 < m := by
      by_contra hzero
      obtain rfl : m = 0 := by omega
      have : d = 0 := Binary.spelled_of_zero hx
      omega
    obtain ⟨n, k, hread, hbinary⟩ := Binary.read?_numeral hfmt hx hpos hw
    rw [Number.readBinary?, hread, Option.bind_some, Number.Reading.overflows, hbinary]
    rcases @Binary.round_cases .double negative d 1 FloatFormat.isProper_double with
      hinf | ⟨a, b, -, hfinite⟩
    · -- Beyond every double the text stays a text.
      have hinf : Binary.ofRatio negative d 1 = .infinite negative := hinf
      rw [hinf]
      have hne : Binary.infinite negative ≠ x := Binary.noConfusion
      split <;> simp [int64, float64, deepEq, hne]
    · have hfinite : Binary.ofRatio negative d 1 = .finite negative a b := hfinite
      obtain ⟨ha, hnormal⟩ := normalFloat_ofRatio hlarge hfinite
      rw [hfinite, ← normalFloat_whole hw]
      simp only [Bool.false_eq_true, if_false, hnormal]
      exact deepEq_normalFloat_iff ha hnormal

-- Doubles from two to the fifty-third on are read as integers, until they are too large for that.
theorem same_double_iff (hx : Within .double negative m e) (hw : (m : ℚ) * 2 ^ e = w) :
    let x := Binary.finite negative m e
    (float64 x).same
        (normalNumber (String.ofList ((x.numeral .double).signed negative))) = true ↔
      w < 2 ^ 53 ∨ 2 ^ 63 ≤ w := by
  intro x
  have hiff : (float64 x).same
        (normalNumber (String.ofList ((x.numeral .double).signed negative))) = true ↔
      if isInt64 (withSign negative (x.spelled .double)) then w < 2 ^ 53 ∧ x.spelled .double = w
      else Binary.ofRatio negative (x.spelled .double) 1 = x :=
    same_float_iff (k := .float64) FloatFormat.isProper_double hx hw
  rw [hiff]
  by_cases hsmall : w < 2 ^ 53
  · have hspelled : x.spelled .double = w :=
      Binary.spelled_of_lt FloatFormat.isProper_double hx hw hsmall
    rw [hspelled, if_pos (isInt64_withSign (by omega))]
    simp only [hsmall, and_self, true_or]
  · have hpos : 0 < m := Binary.pos_of_whole hw (by omega)
    by_cases hlarge : 2 ^ 63 ≤ w
    · have hspelled : 9223372036854775808 < x.spelled .double :=
        Binary.lt_spelled hx.double hpos hw hlarge
      rw [if_neg (by rw [Decimal.not_isInt64_withSign hspelled]; decide)]
      exact iff_of_true (Binary.ofRatio_spelled hx.double hpos hw) (.inr hlarge)
    · have hspelled : x.spelled .double < 9223372036854775808 :=
        Binary.spelled_lt hx.double hpos hw (by omega)
      rw [if_pos (isInt64_withSign hspelled)]
      exact iff_of_false (fun h => hsmall h.1) (fun h => h.elim hsmall hlarge)

theorem le_of_inRange {k : IntKind} {n : Int} (hn : k.inRange n = true) :
    -9223372036854775808 ≤ n := by
  have hwidth : Nat.pow 2 (k.bits - 1) ≤ 9223372036854775808 := by
    cases k <;> decide
  unfold IntKind.inRange at hn
  split at hn <;> simp only [Bool.and_eq_true, decide_eq_true_eq] at hn <;> omega

theorem deepEq_unsigned (n : Int) (t : String) :
    deepEq (.int .uint64 n) (normalNumber t) = false := by
  unfold normalNumber
  split
  · simp [int64, deepEq]
  · split
    · unfold normalFloat
      split
      · split <;> simp [int64, float64, deepEq]
      · simp [float64, deepEq]
    · simp [deepEq]

theorem same_int_iff {k : IntKind} {n : Int} (hn : k.inRange n = true) :
    (Value.int k n).same (normalNumber (toString n)) = true ↔ n ≤ 9223372036854775807 := by
  rw [same, normalize_normalNumber, normalize, normalInt]
  by_cases hle : n ≤ 9223372036854775807
  · have hint : isInt64 n = true := by
      have := le_of_inRange hn
      simp only [isInt64, Bool.and_eq_true, decide_eq_true_eq]
      omega
    rw [if_pos hle, normalNumber, Number.readInt64?_toString hint]
    simp [int64, deepEq, hle]
  · rw [if_neg hle, deepEq_unsigned]
    simp [hle]

section Literals

def underlying : Value → Value
  | .named _ v => v
  | v => v

def isWhole : Value → Bool
  | .int k n => k.inRange n
  | .float .float64 x => x.fitted .double == x && x.integral?.isSome
  | .float .float32 x => x.narrow == x && x.integral?.isSome
  | _ => false

-- Whether a whole number is equal to what is read from its text. A float of the smaller width is
-- written with the digits that tell it from its neighbours of that width, so it may be another
-- number that is read.
def survives : Value → Bool
  | .int _ n => n ≤ 9223372036854775807
  | .float .float64 x => x.integral?.any fun n => n.natAbs < 2 ^ 53 || 2 ^ 63 ≤ n.natAbs
  | .float .float32 x => x.integral?.any fun n =>
    let d := x.spelled .single
    if isInt64 (withSign x.isNegative d) then n.natAbs < 2 ^ 53 && d == n.natAbs
    else .ofRatio x.isNegative d 1 == x
  | _ => false

theorem isWhole_cases {v : Value} (hv : v.isWhole = true) :
    ∃ t, v.toJson = .ok (.number t) ∧ Json.IsNumber t ∧
      (v.same (normalNumber t) = true ↔ v.survives = true) := by
  cases v with
  | int k n =>
    refine ⟨toString n, by rw [toJson, Json.ofInt], Json.readNumber_toString n, ?_⟩
    rw [same_int_iff hv, survives, decide_eq_true_eq]
  | float k x =>
    have hwhole : x.integral?.isSome = true := by
      cases k <;> exact (Bool.and_eq_true_iff.mp hv).2
    obtain ⟨n, hn⟩ := Option.isSome_iff_exists.mp hwhole
    cases x with
    | nan => cases hn
    | infinite negative => cases hn
    | finite negative m e =>
      have hisNumber := fun fmt => Number.Numeral.readNumber_signed
        (Binary.numeral_isProper fmt (.finite negative m e)) negative
      obtain ⟨w, hw, rfl⟩ := Binary.integral?_eq_some_iff.mp hn
      refine ⟨_, by rw [toJson, Binary.floatJson_finite], ?_, ?_⟩
      · rw [Json.IsNumber, String.toList_ofList]
        exact hisNumber _
      · cases k with
        | float64 =>
          have hx := Binary.within_of_fitted (eq_of_beq (Bool.and_eq_true_iff.mp hv).1)
          refine (same_double_iff hx hw).trans ?_
          simp only [survives, hn, Option.any_some, natAbs_withSign, Bool.or_eq_true,
            decide_eq_true_eq]
        | float32 =>
          have hx := Binary.within_single (eq_of_beq (Bool.and_eq_true_iff.mp hv).1)
          refine (same_float_iff (k := .float32) FloatFormat.isProper_single hx hw).trans ?_
          simp only [survives, hn, Option.any_some, natAbs_withSign, Binary.isNegative, floatFormat]
          by_cases hint : isInt64 (withSign negative
            ((Binary.finite negative m e).spelled .single)) = true
          · simp [hint]
          · simp [hint]
  | _ => cases hv

-- A declared type is neither written nor part of the canonical form.
theorem toJson_underlying {v : Value} (hv : v.underlying.isWhole = true) :
    v.toJson = v.underlying.toJson ∧ v.normalize = v.underlying.normalize := by
  cases v with
  | named t u =>
    cases u with
    | int k n | float k x =>
      exact ⟨by simp [underlying, toJson, namedJson],
        by simp [underlying, normalize, normalNamed]⟩
    | _ => cases hv
  | _ => exact ⟨rfl, rfl⟩

end Literals

end Value

namespace Codec

theorem decodeText_number {v : Value} {t : String} (hv : v.toJson = .ok (.number t))
    (ht : Json.IsNumber t) :
    encodeText (.value v false) = .ok t ∧
      decodeText t = .ok (.value (Value.normalNumber t) false) := by
  have hnull : v ≠ .null := by
    rintro rfl
    simp [Value.toJson] at hv
  have hdraft : draft (.value v false) = .ok (.json (.number t)) := by
    rw [draft_value, draftValue, if_neg (by simp), boundJson, hv]
    · rfl
    · exact hnull
  have hnumbers : ∀ s ∈ (Json.number t).numbers, Json.IsNumber s := by
    intro s hs
    rw [List.mem_singleton.mp hs]
    exact ht
  constructor
  · rw [encodeText, encode, hdraft]
    rfl
  · have hread : Json.readPrefix t = .ok (.number t, []) :=
      Json.readPrefix_write (.number t) hnumbers
    rw [decodeText, hread]
    change decodeAt "$" (.number t) = _
    rw [decodeAt_bound rfl, boundValue, Value.ofJson,
      bound_of_ne_null (Value.normalNumber_ne_null t)]

end Codec

open Codec in
-- Which numbers survive documents: integers of every kind and whole floats of either width, also
-- under a declared type, are written, read, and then equal to what they were as `survives` says.
theorem whole_number_survives_iff {v : Value} (hv : v.underlying.isWhole = true) :
    ∃ text w, encodeText (.value v false) = .ok text ∧ decodeText text = .ok (.value w false) ∧
      (v.same w = true ↔ v.underlying.survives = true) := by
  obtain ⟨hjson, hnormal⟩ := Value.toJson_underlying hv
  obtain ⟨t, ht, hnumber, hiff⟩ := Value.isWhole_cases hv
  obtain ⟨hencode, hdecode⟩ := decodeText_number (hjson.trans ht) hnumber
  refine ⟨t, _, hencode, hdecode, ?_⟩
  rw [Value.same, hnormal]
  exact hiff

-- The first double that no integer of 64 bits holds.
def brink : Value := .named "Total" (.float64 (.finite false (2 ^ 52) 11))

open Codec in
theorem whole_number_survives_brink :
    brink.underlying.isWhole = true ∧ ∃ text w, encodeText (.value brink false) = .ok text ∧
      decodeText text = .ok (.value w false) ∧ brink.same w = true := by
  have hwhole : brink.underlying.isWhole = true := by decide +kernel
  obtain ⟨text, w, hencode, hdecode, hiff⟩ := whole_number_survives_iff hwhole
  exact ⟨hwhole, text, w, hencode, hdecode, hiff.mpr (by decide +kernel)⟩

open Codec in
-- Two to the fifty-third is kept as a double by the canonical form, but read as an integer.
theorem double_read_as_integer :
    encodeText (.value (.float64 (.finite false (2 ^ 52) 1)) false) = .ok "9007199254740992" ∧
      decodeText "9007199254740992" = .ok (.value (.int64 9007199254740992) false) ∧
      (Value.float64 (.finite false (2 ^ 52) 1)).same (.int64 9007199254740992) = false := by
  have hchars : String.ofList (((Binary.finite false (2 ^ 52) 1).numeral .double).signed false) =
      "9007199254740992" := by decide +kernel
  have hjson : (Value.float64 (.finite false (2 ^ 52) 1)).toJson =
      .ok (.number "9007199254740992") := by
    rw [Value.float64, Value.toJson, Binary.floatJson_finite]
    exact congrArg (fun t => Except.ok (Json.number t)) hchars
  have hnumber : Json.IsNumber "9007199254740992" := by
    rw [← hchars, Json.IsNumber, String.toList_ofList]
    exact Number.Numeral.readNumber_signed (Binary.numeral_isProper _ _) false
  have hread : Value.normalNumber "9007199254740992" = .int64 9007199254740992 := by
    have hint : Number.readInt64? "9007199254740992".toList = some 9007199254740992 := by
      decide +kernel
    rw [Value.normalNumber, hint]
  obtain ⟨hencode, hdecode⟩ := decodeText_number hjson hnumber
  exact ⟨hencode, hread ▸ hdecode, by decide +kernel⟩

end QueryTree
