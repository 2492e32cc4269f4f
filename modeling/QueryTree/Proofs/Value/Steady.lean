import QueryTree.Proofs.Value.Equality
import QueryTree.Value.Literal

namespace QueryTree

namespace Binary

def isNegativeZero (x : Binary) : Bool := x.isZero && x.isNegative

theorem integral?_of_isZero {x : Binary} (hx : x.isZero = true) : x.integral? = some 0 := by
  obtain ⟨s, e, rfl⟩ : ∃ s e, x = .finite s 0 e := by
    cases x with
    | finite s m e =>
      cases m with
      | zero => exact ⟨s, e, rfl⟩
      | succ m => cases hx
    | _ => cases hx
  unfold integral? scale
  by_cases he : e ≥ 0 <;> simp [he]

theorem decimal_zero (fmt : FloatFormat) (s : Bool) (e : Int) :
    (Binary.finite s 0 e).decimal fmt = ⟨[], 0⟩ := by
  unfold decimal fitted scale
  by_cases he : e ≥ 0 <;> simp [he, round, Decimal.shortest]

theorem write_steadied {x : Binary} (hx : x.isNegativeZero = false) (style : DecimalStyle)
    (fmt : FloatFormat) (plusInfinity : String) :
    x.steadied.write style fmt plusInfinity = x.write style fmt plusInfinity := by
  cases x with
  | finite s m e =>
    by_cases hm : m = 0
    · subst hm
      obtain rfl : s = false := by simpa [isNegativeZero, isZero, isNegative] using hx
      simp only [steadied, if_true, write, decimal_zero]
      rfl
    · rw [steadied, if_neg hm]
  | _ => rfl

end Binary

namespace Value

mutual

-- Values without pointers, channels and negative zeros.
def isSteady : Value → Bool
  | .float _ x => !x.isNegativeZero
  | .named _ v => v.isSteady
  | .list _ vs | .array _ vs => areSteady vs
  | .map _ _ es => haveSteadyEntries es
  | .record _ fs => haveSteadyFields fs
  | .pointer _ | .nilPointer _ | .channel _ | .node .. => false
  | _ => true

def areSteady : List Value → Bool
  | [] => true
  | v :: vs => v.isSteady && areSteady vs

def haveSteadyEntries : List (Value × Value) → Bool
  | [] => true
  | (k, v) :: es => k.isSteady && v.isSteady && haveSteadyEntries es

def haveSteadyFields : List (String × Value) → Bool
  | [] => true
  | (_, v) :: fs => v.isSteady && haveSteadyFields fs

end

mutual

-- Literals without pointers and channels. What the canonical form brings to numbers of its own may
-- hold any zero; what it keeps as it is may not hold a negative one.
def isPlain : Value → Bool
  | .float .. => true
  | .named _ v => isPlainUnder v
  | .list (.int .uint8) vs => areSteady vs
  | .list _ vs | .array _ vs => arePlain vs
  | .map k _ es => if k.isText then havePlainEntries es else haveSteadyEntries es
  | v => v.isSteady

def isPlainUnder : Value → Bool
  | .float .. => true
  | .list _ vs | .array _ vs => arePlain vs
  | .map k _ es => if k.isText then havePlainEntries es else haveSteadyEntries es
  | v => v.isSteady

def arePlain : List Value → Bool
  | [] => true
  | v :: vs => v.isPlain && arePlain vs

def havePlainEntries : List (Value × Value) → Bool
  | [] => true
  | (k, v) :: es => k.isSteady && v.isPlain && havePlainEntries es

end

section Canonical

theorem isSteady_normalFloat (x : Binary) : (normalFloat x).isSteady = true := by
  unfold normalFloat
  cases hx : x.isZero with
  | true =>
    rw [Binary.integral?_of_isZero hx]
    rfl
  | false =>
    have hfloat : (float64 x).isSteady = true := by simp [isSteady, Binary.isNegativeZero, hx]
    split
    · split
      · rfl
      · exact hfloat
    · exact hfloat

theorem isSteady_normalInt (n : Int) : (normalInt n).isSteady = true := by
  unfold normalInt
  split <;> rfl

theorem isSteady_normalNumber (s : String) : (normalNumber s).isSteady = true := by
  unfold normalNumber
  split
  · rfl
  · split
    · exact isSteady_normalFloat _
    · rfl

theorem areSteady_octets (bs : List UInt8) :
    areSteady (bs.map fun b => int64 b.toNat) = true := by
  induction bs with
  | nil => rfl
  | cons b bs ih => rw [List.map_cons, areSteady, ih]; rfl

theorem isSteady_under : (v : Value) → v.under.isSteady = v.isSteady
  | .named _ v => isSteady_under v
  | .null | .bool _ | .int .. | .float .. | .text _ | .octets _ | .time _ | .uuid _ | .list ..
  | .nilList _ | .array .. | .map .. | .record .. | .pointer _ | .nilPointer _ | .channel _
  | .node .. => rfl

mutual

theorem isSteady_normalize : (v : Value) → v.isPlain = true → v.normalize.isSteady = true
  | .null, _ | .bool _, _ | .text _, _ | .octets _, _ | .time _, _ => rfl
  | .int _ n, _ => isSteady_normalInt n
  | .float _ x, _ => isSteady_normalFloat x
  | .named t v, h => isSteady_normalNamed t v h
  | .uuid u, _ => areSteady_octets u.octets
  | .list t vs, h => by
    by_cases ht : t = .int .uint8
    · subst ht
      exact h
    · rw [isPlain] at h
      · rw [normalize]
        · exact areSteady_normalizeAll vs h
        · exact ht
      · exact ht
  | .nilList t, _ => by
    by_cases ht : t = .int .uint8
    · subst ht
      rfl
    · rw [normalize]
      · rfl
      · exact ht
  | .array _ vs, h => areSteady_normalizeAll vs h
  | .map k t es, h => by
    rw [isPlain] at h
    rw [normalize]
    split at h
    · next hk => exact (if_pos hk).symm ▸ haveSteadyEntries_normalizeEntries es h
    · next hk => exact (if_neg hk).symm ▸ h
  | .record _ _, h => h

theorem isSteady_normalNamed (t : String) :
    (v : Value) → isPlainUnder v = true → (normalNamed t v).isSteady = true
  | .null, _ | .bool _, _ | .time _, _ | .nilList _, _ => rfl
  | .text s, _ => by
    rw [normalNamed]
    split
    · exact isSteady_normalNumber s
    · rfl
  | .octets bs, _ => by
    rw [normalNamed]
    split <;> rfl
  | .int _ n, _ => isSteady_normalInt n
  | .float _ x, _ => isSteady_normalFloat x
  | .uuid u, _ => areSteady_octets u.octets
  | .list _ vs, h | .array _ vs, h => areSteady_normalizeAll vs h
  | .map k e es, h => by
    rw [isPlainUnder] at h
    rw [normalNamed]
    split at h
    · next hk => exact (if_pos hk).symm ▸ haveSteadyEntries_normalizeEntries es h
    · next hk => exact (if_neg hk).symm ▸ h
  | .named _ _, h | .record _ _, h => h

theorem areSteady_normalizeAll :
    (vs : List Value) → arePlain vs = true → areSteady (normalizeAll vs) = true
  | [], _ => rfl
  | v :: vs, h => by
    rw [arePlain, Bool.and_eq_true] at h
    rw [normalizeAll, areSteady, isSteady_normalize v h.1, areSteady_normalizeAll vs h.2]
    rfl

theorem haveSteadyEntries_normalizeEntries : (es : List (Value × Value)) →
    havePlainEntries es = true → haveSteadyEntries (normalizeEntries es) = true
  | [], _ => rfl
  | (k, v) :: es, h => by
    rw [havePlainEntries, Bool.and_eq_true, Bool.and_eq_true] at h
    rw [normalizeEntries, haveSteadyEntries, isSteady_under, h.1.1, isSteady_normalize v h.1.2,
      haveSteadyEntries_normalizeEntries es h.2]
    rfl

end

end Canonical

section Written

theorem length_steadiedAll (vs : List Value) : (steadiedAll vs).length = vs.length := by
  induction vs with
  | nil => rfl
  | cons v vs ih => rw [steadiedAll, List.length_cons, ih, List.length_cons]

mutual

theorem innerLiteral_steadied : (v : Value) → v.isSteady = true →
    v.steadied.innerLiteral = v.innerLiteral
  | .null, _ | .bool _, _ | .int _ _, _ | .text _, _ | .octets _, _ | .time _, _ | .uuid _, _
  | .nilList _, _ => rfl
  | .float k x, h => by
    rw [isSteady, Bool.not_eq_true'] at h
    rw [steadied, innerLiteral, innerLiteral, displayFloat, displayFloat, Binary.write_steadied h]
  | .named _ (.list _ vs), h | .named _ (.array _ vs), h => by
    rw [steadied, steadied, innerLiteral, innerLiteral, literals_steadiedAll vs h]
  | .named _ (.map _ _ es), h => by
    rw [steadied, steadied, innerLiteral, innerLiteral, entryLiterals_steadiedEntries es h]
  | .named _ (.null), _ | .named _ (.bool _), _ | .named _ (.int _ _), _ | .named _ (.text _), _
  | .named _ (.octets _), _ | .named _ (.time _), _ | .named _ (.uuid _), _
  | .named _ (.nilList _), _ => rfl
  | .named _ (.float k x), h => innerLiteral_steadied (.float k x) h
  | .named _ (.named u v), h => innerLiteral_steadied (.named u v) h
  | .named _ (.record n fs), h => innerLiteral_steadied (.record n fs) h
  | .list t vs, h => by rw [steadied, innerLiteral, innerLiteral, literals_steadiedAll vs h]
  | .array t vs, h => by
    rw [steadied, innerLiteral, innerLiteral, literals_steadiedAll vs h, length_steadiedAll]
  | .map k t es, h => by
    rw [steadied, innerLiteral, innerLiteral, entryLiterals_steadiedEntries es h]
  | .record n fs, h => by
    rw [steadied, innerLiteral, innerLiteral, fieldLiterals_steadiedFields fs h]

theorem literals_steadiedAll : (vs : List Value) → areSteady vs = true →
    literals (steadiedAll vs) = literals vs
  | [], _ => rfl
  | v :: vs, h => by
    rw [areSteady, Bool.and_eq_true] at h
    rw [steadiedAll, literals, literals, innerLiteral_steadied v h.1, literals_steadiedAll vs h.2]

theorem entryLiterals_steadiedEntries : (es : List (Value × Value)) →
    haveSteadyEntries es = true → entryLiterals (steadiedEntries es) = entryLiterals es
  | [], _ => rfl
  | (k, v) :: es, h => by
    rw [haveSteadyEntries, Bool.and_eq_true, Bool.and_eq_true] at h
    rw [steadiedEntries, entryLiterals, entryLiterals, innerLiteral_steadied k h.1.1,
      innerLiteral_steadied v h.1.2, entryLiterals_steadiedEntries es h.2]

theorem fieldLiterals_steadiedFields : (fs : List (String × Value)) →
    haveSteadyFields fs = true → fieldLiterals (steadiedFields fs) = fieldLiterals fs
  | [], _ => rfl
  | (n, v) :: fs, h => by
    rw [haveSteadyFields, Bool.and_eq_true] at h
    rw [steadiedFields, fieldLiterals, fieldLiterals, innerLiteral_steadied v h.1,
      fieldLiterals_steadiedFields fs h.2]

end

-- Only null and octet lists are written in a way of their own when they stand alone.
theorem literal_steadied {v : Value} (h : v.isSteady = true) : v.steadied.literal = v.literal := by
  have hinner := innerLiteral_steadied v h
  cases v with
  | null => rfl
  | list t vs =>
    by_cases ht : t = .int .uint8
    · subst ht
      rw [steadied, literal, literal, literals_steadiedAll vs h]
    · rw [steadied, literal, literal]
      · exact hinner
      all_goals simp [ht]
  | nilList t => rfl
  | _ => exact hinner

theorem literal_eq_of_deepEq {v w : Value} (hv : v.isSteady = true) (hw : w.isSteady = true)
    (h : v.deepEq w = true) : v.literal = w.literal := by
  obtain ⟨-, -, hsteadied⟩ := (deepEq_iff v w).mp h
  rw [← literal_steadied hv, hsteadied, literal_steadied hw]

theorem literal_normalize_eq {v w : Value} (hv : v.isPlain = true) (hw : w.isPlain = true)
    (h : v.same w = true) : v.normalize.literal = w.normalize.literal :=
  literal_eq_of_deepEq (isSteady_normalize v hv) (isSteady_normalize w hw) h

end Written

end Value
end QueryTree
