import Mathlib.Tactic.Tauto
import QueryTree.Value.Normal

namespace QueryTree

namespace Ty

mutual

theorem same_iff : (t u : Ty) → (t.same u = true ↔ t = u)
  | .any, u | .bool, u | .text, u | .int _, u | .float _, u | .named _ _, u => by
    cases u <;> simp [same]
  | .list t, u => by
    cases u with
    | list u => rw [same, same_iff t u, list.injEq]
    | _ => simp [same]
  | .array n t, u => by
    cases u with
    | array m u => rw [same, Bool.and_eq_true, beq_iff_eq, same_iff t u, array.injEq]
    | _ => simp [same]
  | .map k t, u => by
    cases u with
    | map l u => rw [same, Bool.and_eq_true, same_iff k l, same_iff t u, map.injEq]
    | _ => simp [same]
  | .pointer t, u => by
    cases u with
    | pointer u => rw [same, same_iff t u, pointer.injEq]
    | _ => simp [same]
  | .record fs, u => by
    cases u with
    | record gs => rw [same, sameFields_iff fs gs, record.injEq]
    | _ => simp [same]
  | .func ps v rs, u => by
    cases u with
    | func qs w ss =>
      rw [same, Bool.and_eq_true, Bool.and_eq_true, beq_iff_eq, sameAll_iff ps qs,
        sameAll_iff rs ss, func.injEq, and_assoc]
    | _ => simp [same]
  | .channel t, u => by
    cases u with
    | channel u => rw [same, same_iff t u, channel.injEq]
    | _ => simp [same]

theorem sameAll_iff : (ts us : List Ty) → (sameAll ts us = true ↔ ts = us)
  | [], us => by
    cases us <;> simp [sameAll]
  | t :: ts, us => by
    cases us with
    | nil => simp [sameAll]
    | cons u us =>
      rw [sameAll, Bool.and_eq_true, same_iff t u, sameAll_iff ts us, List.cons.injEq]

theorem sameFields_iff : (fs gs : List (Field Ty)) → (sameFields fs gs = true ↔ fs = gs)
  | [], gs => by
    cases gs <;> simp [sameFields]
  | ⟨n, t, a, e⟩ :: fs, gs => by
    cases gs with
    | nil => simp [sameFields]
    | cons g gs =>
      obtain ⟨m, u, b, f⟩ := g
      simp only [sameFields, Bool.and_eq_true, beq_iff_eq, same_iff t u, sameFields_iff fs gs,
        List.cons.injEq, Field.mk.injEq, and_assoc]

end

@[simp] theorem beq_iff {t u : Ty} : (t == u) = true ↔ t = u := same_iff t u

end Ty

namespace Binary

-- One zero in place of the two.
def steadied : Binary → Binary
  | .finite s m e => if m = 0 then .finite false 0 0 else .finite s m e
  | x => x

theorem same_iff (x y : Binary) :
    x.same y = true ↔ x ≠ .nan ∧ y ≠ .nan ∧ x.steadied = y.steadied := by
  cases x with
  | nan => simp [same]
  | infinite s =>
    cases y with
    | finite t n f =>
      by_cases hn : n = 0 <;> simp [same, steadied, hn]
    | _ => simp [same, steadied]
  | finite s m e =>
    cases y with
    | finite t n f =>
      by_cases hm : m = 0 <;> by_cases hn : n = 0
      · simp [same, steadied, hm, hn]
      · simp [same, steadied, hm, hn, Ne.symm hn]
      · simp [same, steadied, hm, hn]
      · simp [same, steadied, hm, hn, and_assoc]
    | _ =>
      by_cases hm : m = 0 <;> simp [same, steadied, hm]

end Binary

namespace Value

mutual

-- Values without a NaN and without a channel, neither of which equals itself.
def isDefinite : Value → Bool
  | .float _ x => x != .nan
  | .named _ v | .pointer v => v.isDefinite
  | .list _ vs | .array _ vs => areDefinite vs
  | .map _ _ es => haveDefiniteEntries es
  | .record _ fs | .node _ _ fs => haveDefiniteFields fs
  | .channel _ => false
  | _ => true

def areDefinite : List Value → Bool
  | [] => true
  | v :: vs => v.isDefinite && areDefinite vs

def haveDefiniteEntries : List (Value × Value) → Bool
  | [] => true
  | (k, v) :: es => k.isDefinite && v.isDefinite && haveDefiniteEntries es

def haveDefiniteFields : List (String × Value) → Bool
  | [] => true
  | (_, v) :: fs => v.isDefinite && haveDefiniteFields fs

end

mutual

def steadied : Value → Value
  | .float k x => .float k x.steadied
  | .named t v => .named t v.steadied
  | .pointer v => .pointer v.steadied
  | .list t vs => .list t (steadiedAll vs)
  | .array t vs => .array t (steadiedAll vs)
  | .map k t es => .map k t (steadiedEntries es)
  | .record t fs => .record t (steadiedFields fs)
  | .node t s fs => .node t s (steadiedFields fs)
  | v => v

def steadiedAll : List Value → List Value
  | [] => []
  | v :: vs => v.steadied :: steadiedAll vs

def steadiedEntries : List (Value × Value) → List (Value × Value)
  | [] => []
  | (k, v) :: es => (k.steadied, v.steadied) :: steadiedEntries es

def steadiedFields : List (String × Value) → List (String × Value)
  | [] => []
  | (n, v) :: fs => (n, v.steadied) :: steadiedFields fs

end

theorem deepEq_of_ctorIdx_ne {v w : Value} (h : v.ctorIdx ≠ w.ctorIdx) : v.deepEq w = false := by
  rw [deepEq]
  all_goals
    intros
    subst_vars
    exact h rfl

theorem ctorIdx_steadied (v : Value) : v.steadied.ctorIdx = v.ctorIdx := by
  cases v <;> simp only [steadied] <;> rfl

-- Different constructors are never equal, and keep apart when zeros become one.
theorem deepEq_iff_of_ctorIdx_ne {v w : Value} (h : v.ctorIdx ≠ w.ctorIdx) :
    v.deepEq w = true ↔ v.isDefinite = true ∧ w.isDefinite = true ∧ v.steadied = w.steadied := by
  have hne : v.steadied ≠ w.steadied := by
    intro heq
    apply h
    rw [← ctorIdx_steadied v, heq, ctorIdx_steadied w]
  simp [deepEq_of_ctorIdx_ne h, hne]

mutual

theorem deepEq_iff : (v w : Value) → (v.deepEq w = true ↔
    v.isDefinite = true ∧ w.isDefinite = true ∧ v.steadied = w.steadied)
  | .null, w | .bool _, w | .int _ _, w | .text _, w | .octets _, w | .time _, w | .uuid _, w
  | .nilList _, w | .nilPointer _, w | .channel _, w => by
    cases w
    -- What is left is the case of the same constructor.
    all_goals try exact deepEq_iff_of_ctorIdx_ne (Nat.ne_of_beq_eq_false rfl)
    simp [deepEq, isDefinite, steadied]
  | .float k x, w => by
    cases w with
    | float l y =>
      simp only [deepEq, isDefinite, steadied, Bool.and_eq_true, beq_iff_eq, Binary.same_iff,
        bne_iff_ne, float.injEq]
      tauto
    | _ => exact deepEq_iff_of_ctorIdx_ne (Nat.ne_of_beq_eq_false rfl)
  | .named t v, w => by
    cases w with
    | named u w =>
      simp only [deepEq, isDefinite, steadied, Bool.and_eq_true, beq_iff_eq, deepEq_iff v w,
        named.injEq]
      tauto
    | _ => exact deepEq_iff_of_ctorIdx_ne (Nat.ne_of_beq_eq_false rfl)
  | .pointer v, w => by
    cases w with
    | pointer w => simp only [deepEq, isDefinite, steadied, deepEq_iff v w, pointer.injEq]
    | _ => exact deepEq_iff_of_ctorIdx_ne (Nat.ne_of_beq_eq_false rfl)
  | .list t vs, w => by
    cases w with
    | list u ws =>
      simp only [deepEq, isDefinite, steadied, Bool.and_eq_true, Ty.beq_iff, deepEqAll_iff vs ws,
        list.injEq]
      tauto
    | _ => exact deepEq_iff_of_ctorIdx_ne (Nat.ne_of_beq_eq_false rfl)
  | .array t vs, w => by
    cases w with
    | array u ws =>
      simp only [deepEq, isDefinite, steadied, Bool.and_eq_true, Ty.beq_iff, deepEqAll_iff vs ws,
        array.injEq]
      tauto
    | _ => exact deepEq_iff_of_ctorIdx_ne (Nat.ne_of_beq_eq_false rfl)
  | .map k t es, w => by
    cases w with
    | map l u fs =>
      simp only [deepEq, isDefinite, steadied, Bool.and_eq_true, Ty.beq_iff,
        deepEqEntries_iff es fs, map.injEq]
      tauto
    | _ => exact deepEq_iff_of_ctorIdx_ne (Nat.ne_of_beq_eq_false rfl)
  | .record t fs, w => by
    cases w with
    | record u gs =>
      simp only [deepEq, isDefinite, steadied, Bool.and_eq_true, beq_iff_eq,
        deepEqFields_iff fs gs, record.injEq]
      tauto
    | _ => exact deepEq_iff_of_ctorIdx_ne (Nat.ne_of_beq_eq_false rfl)
  | .node t s fs, w => by
    cases w with
    | node u r gs =>
      simp only [deepEq, isDefinite, steadied, Bool.and_eq_true, beq_iff_eq,
        deepEqFields_iff fs gs, node.injEq]
      tauto
    | _ => exact deepEq_iff_of_ctorIdx_ne (Nat.ne_of_beq_eq_false rfl)

theorem deepEqAll_iff : (vs ws : List Value) → (deepEqAll vs ws = true ↔
    areDefinite vs = true ∧ areDefinite ws = true ∧ steadiedAll vs = steadiedAll ws)
  | [], ws => by
    cases ws <;> simp [deepEqAll, areDefinite, steadiedAll]
  | v :: vs, ws => by
    cases ws with
    | nil => simp [deepEqAll, steadiedAll]
    | cons w ws =>
      simp only [deepEqAll, areDefinite, steadiedAll, Bool.and_eq_true, deepEq_iff v w,
        deepEqAll_iff vs ws, List.cons.injEq]
      tauto

theorem deepEqEntries_iff : (es fs : List (Value × Value)) → (deepEqEntries es fs = true ↔
    haveDefiniteEntries es = true ∧ haveDefiniteEntries fs = true ∧
      steadiedEntries es = steadiedEntries fs)
  | [], fs => by
    cases fs <;> simp [deepEqEntries, haveDefiniteEntries, steadiedEntries]
  | (k, v) :: es, fs => by
    cases fs with
    | nil => simp [deepEqEntries, steadiedEntries]
    | cons f fs =>
      obtain ⟨l, w⟩ := f
      simp only [deepEqEntries, haveDefiniteEntries, steadiedEntries, Bool.and_eq_true,
        deepEq_iff k l, deepEq_iff v w, deepEqEntries_iff es fs, List.cons.injEq, Prod.mk.injEq]
      tauto

theorem deepEqFields_iff : (fs gs : List (String × Value)) → (deepEqFields fs gs = true ↔
    haveDefiniteFields fs = true ∧ haveDefiniteFields gs = true ∧
      steadiedFields fs = steadiedFields gs)
  | [], gs => by
    cases gs <;> simp [deepEqFields, haveDefiniteFields, steadiedFields]
  | (n, v) :: fs, gs => by
    cases gs with
    | nil => simp [deepEqFields, steadiedFields]
    | cons g gs =>
      obtain ⟨m, w⟩ := g
      simp only [deepEqFields, haveDefiniteFields, steadiedFields, Bool.and_eq_true, beq_iff_eq,
        deepEq_iff v w, deepEqFields_iff fs gs, List.cons.injEq, Prod.mk.injEq]
      tauto

end

theorem normalFloat_ne_null (x : Binary) : normalFloat x ≠ .null := by
  unfold normalFloat
  split
  · split <;> simp
  · simp

theorem normalInt_ne_null (n : Int) : normalInt n ≠ .null := by
  unfold normalInt
  split <;> simp

theorem normalNumber_ne_null (s : String) : normalNumber s ≠ .null := by
  unfold normalNumber
  split
  · simp
  · split
    · exact normalFloat_ne_null _
    · simp

theorem normalize_ne_null {v : Value} (hv : v ≠ .null) : v.normalize ≠ .null := by
  cases v with
  | null => exact absurd rfl hv
  | int k n => exact normalInt_ne_null n
  | float k x => exact normalFloat_ne_null x
  | named t v =>
    cases v with
    | int k n => exact normalInt_ne_null n
    | float k x => exact normalFloat_ne_null x
    | text s =>
      rw [normalize, normalNamed]
      split
      · exact normalNumber_ne_null s
      · simp
    | octets bs =>
      rw [normalize, normalNamed]
      split <;> simp
    | map k t es =>
      rw [normalize, normalNamed]
      split <;> simp
    | _ => simp [normalize, normalNamed]
  | list t vs | nilList t =>
    by_cases ht : t = .int .uint8
    · subst ht
      rw [normalize]
      exact hv
    · rw [normalize]
      · simp
      · exact ht
  | map k t es =>
    rw [normalize]
    split <;> simp
  | _ => simp [normalize]

theorem steadied_normalize_ne_null {v : Value} (hv : v ≠ .null) :
    v.normalize.steadied ≠ .null := by
  have hnormal := normalize_ne_null hv
  cases h : v.normalize with
  | null => exact absurd h hnormal
  | _ => simp [steadied]

end Value
end QueryTree
