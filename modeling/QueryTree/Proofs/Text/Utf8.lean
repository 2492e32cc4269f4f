import Mathlib.Data.Char
import Mathlib.Data.List.Lex
import Mathlib.Tactic.SplitIfs
import QueryTree.Text.Utf8

namespace QueryTree.Text.Utf8

open String (utf8EncodeChar)

theorem toList_loop (bs : ByteArray) (i : Nat) (acc : List UInt8) :
    ByteArray.toList.loop bs i acc = acc.reverse ++ bs.data.toList.drop i := by
  fun_induction ByteArray.toList.loop bs i acc with
  | case1 i acc hi ih =>
    have hlength : i < bs.data.toList.length := by simpa using hi
    have hget : bs.get! i = bs.data.toList[i] := by
      simp only [ByteArray.get!, Array.getElem_toList]
      exact getElem!_pos bs.data i hi
    rw [ih, List.drop_eq_getElem_cons hlength, hget]
    simp
  | case2 i acc hi =>
    have hlength : bs.data.toList.length ≤ i := by simpa using hi
    rw [List.drop_eq_nil_of_le hlength, List.append_nil]

theorem encode_eq_flatMap (s : String) : encode s = s.toList.flatMap utf8EncodeChar := by
  have hbytes : s.toByteArray = (s.toList.flatMap utf8EncodeChar).toByteArray := by
    rw [← String.utf8Encode_toList, List.utf8Encode]
  rw [encode, String.toUTF8, hbytes, ByteArray.toList, toList_loop]
  simp

@[simp] theorem encode_append (s t : String) : encode (s ++ t) = encode s ++ encode t := by
  simp [encode_eq_flatMap]

-- Of two numbers the digits to the base 64 decide, the most significant ones first.
theorem digit_lt {m n : Nat} (h : m < n) : m / 64 < n / 64 ∨ m / 64 = n / 64 ∧ m % 64 < n % 64 := by
  omega

-- Where two characters differ, the first octet in which they differ decides as they do: a longer
-- sequence starts with a greater octet, and within one length the digits decide.
theorem encodeChar_lt {c d : Char} (h : c < d) (xs ys : List UInt8) :
    utf8EncodeChar c ++ xs < utf8EncodeChar d ++ ys := by
  have hlt : c.val.toNat < d.val.toNat := h
  have hd : d.val.toNat < 1114112 := by
    rcases d.valid with hd | ⟨_, hd⟩ <;> omega
  have hlast := digit_lt hlt
  simp only [utf8EncodeChar]
  split_ifs <;> first
    | omega
    | simp only [List.cons_append, List.nil_append, List.cons_lt_cons_iff, UInt8.lt_iff_toNat_lt,
        ← UInt8.toNat_inj, UInt8.toNat_ofNat']
      simp (disch := omega) only [Nat.mod_eq_of_lt]
      omega

theorem flatMap_encodeChar_lt {cs ds : List Char} (h : cs < ds) :
    cs.flatMap utf8EncodeChar < ds.flatMap utf8EncodeChar := by
  induction cs generalizing ds with
  | nil =>
    cases ds with
    | nil => exact absurd h (List.lt_irrefl [])
    | cons d ds =>
      cases hd : utf8EncodeChar d with
      | nil => exact absurd hd String.utf8EncodeChar_ne_nil
      | cons b bs => simp [hd]
  | cons c cs ih =>
    cases ds with
    | nil => exact absurd h (List.not_lt_nil _)
    | cons d ds =>
      rcases List.cons_lt_cons_iff.1 h with hcd | ⟨rfl, hrest⟩
      · exact encodeChar_lt hcd _ _
      · exact List.append_left_lt (ih hrest)

theorem lt_iff_encode_lt (s t : String) : s < t ↔ encode s < encode t := by
  rw [String.lt_iff, encode_eq_flatMap, encode_eq_flatMap]
  constructor
  · exact flatMap_encodeChar_lt
  · intro h
    by_contra hnot
    rcases List.le_iff_lt_or_eq.1 (List.not_lt.1 hnot) with hgt | heq
    · exact List.lt_asymm h (flatMap_encodeChar_lt hgt)
    · rw [heq] at h
      exact List.lt_irrefl _ h

theorem encode_inj {s t : String} : encode s = encode t ↔ s = t := by
  constructor
  · intro h
    have hirrefl : ¬ encode t < encode t := List.lt_irrefl _
    apply String.le_antisymm <;>
      rw [← String.not_lt, lt_iff_encode_lt, h] <;> exact hirrefl
  · rintro rfl
    rfl

theorem toNat_val_ofNat {n : Nat} (h : n.isValidChar) : (Char.ofNat n).val.toNat = n := by
  rw [Char.ofNat, dif_pos h]
  rfl

theorem isTail_iff {b : UInt8} : isTail b = true ↔ 128 ≤ b.toNat ∧ b.toNat ≤ 191 := by
  simp [isTail, UInt8.le_iff_toNat_le]

-- A second octet is a tail, and its range keeps out overlong sequences, the surrogates and what
-- is beyond the last code point.
theorem isSecond_iff {a b : UInt8} : isSecond a b = true ↔
    (128 ≤ b.toNat ∧ b.toNat ≤ 191) ∧ (a.toNat = 224 → 160 ≤ b.toNat) ∧
      (a.toNat = 237 → b.toNat ≤ 159) ∧ (a.toNat = 240 → 144 ≤ b.toNat) ∧
      (a.toNat = 244 → b.toNat ≤ 143) := by
  have hval : ∀ k : UInt8, a = k ↔ a.toNat = k.toNat := fun k => UInt8.toNat_inj.symm
  simp only [isSecond, beq_iff_eq, hval]
  split_ifs <;> simp_all [isTail, UInt8.le_iff_toNat_le] <;> omega

theorem ofNat_eq {a : UInt8} {n : Nat} (h : n = a.toNat) : UInt8.ofNat n = a := by
  rw [h, UInt8.ofNat_toNat]

theorem encodeChar_two {a b : UInt8} (ha : 194 ≤ a.toNat ∧ a.toNat ≤ 223)
    (hb : isTail b = true) :
    utf8EncodeChar (Char.ofNat (a.toNat % 32 * 64 + low b)) = [a, b] := by
  have hb := isTail_iff.1 hb
  rw [utf8EncodeChar, low, toNat_val_ofNat (.inl (by omega)), if_neg (by omega),
    if_pos (by omega), ofNat_eq (a := a) (by omega), ofNat_eq (a := b) (by omega)]

theorem encodeChar_three {a b c : UInt8} (ha : 224 ≤ a.toNat ∧ a.toNat ≤ 239)
    (hb : isSecond a b = true) (hc : isTail c = true) :
    utf8EncodeChar (Char.ofNat ((a.toNat % 16 * 64 + low b) * 64 + low c)) = [a, b, c] := by
  have hb := isSecond_iff.1 hb
  have hc := isTail_iff.1 hc
  have hvalid : ((a.toNat % 16 * 64 + low b) * 64 + low c).isValidChar := by
    simp only [low, Nat.isValidChar]
    omega
  rw [utf8EncodeChar, toNat_val_ofNat hvalid, low, low, if_neg (by omega), if_neg (by omega),
    if_pos (by omega), ofNat_eq (a := a) (by omega), ofNat_eq (a := b) (by omega),
    ofNat_eq (a := c) (by omega)]

theorem encodeChar_four {a b c d : UInt8} (ha : 240 ≤ a.toNat ∧ a.toNat ≤ 244)
    (hb : isSecond a b = true) (hc : isTail c = true) (hd : isTail d = true) :
    utf8EncodeChar (Char.ofNat (((a.toNat % 8 * 64 + low b) * 64 + low c) * 64 + low d))
      = [a, b, c, d] := by
  have hb := isSecond_iff.1 hb
  have hc := isTail_iff.1 hc
  have hd := isTail_iff.1 hd
  have hvalid : (((a.toNat % 8 * 64 + low b) * 64 + low c) * 64 + low d).isValidChar := by
    simp only [low, Nat.isValidChar]
    omega
  rw [utf8EncodeChar, toNat_val_ofNat hvalid, low, low, low, if_neg (by omega),
    if_neg (by omega), if_neg (by omega), ofNat_eq (a := a) (by omega),
    ofNat_eq (a := b) (by omega), ofNat_eq (a := c) (by omega), ofNat_eq (a := d) (by omega)]

-- The first unit of an octet list, when it is a character, is the one that the octets it takes
-- are the encoding of.
theorem first_char {a : UInt8} {rest : List UInt8} {c : Char} {n : Nat}
    (h : first a rest = (.char c, n)) : a :: rest = utf8EncodeChar c ++ rest.drop (n - 1) := by
  unfold first at h
  simp only [UInt8.lt_iff_toNat_lt, UInt8.le_iff_toNat_le, Bool.and_eq_true, decide_eq_true_eq]
    at h
  split_ifs at h with hone htwo hthree hfour
  · simp only [Prod.mk.injEq, Unit8.char.injEq] at h
    obtain ⟨rfl, rfl⟩ := h
    have ha : a.toNat < 128 := hone
    rw [utf8EncodeChar, toNat_val_ofNat (.inl (by omega)), if_pos (by omega)]
    simp
  · split at h
    · split_ifs at h with htail
      · simp only [Prod.mk.injEq, Unit8.char.injEq] at h
        obtain ⟨rfl, rfl⟩ := h
        rw [encodeChar_two htwo htail]
        rfl
      · simp at h
    · simp at h
  · split at h
    · split_ifs at h with htail
      · simp only [Prod.mk.injEq, Unit8.char.injEq] at h
        obtain ⟨rfl, rfl⟩ := h
        rw [encodeChar_three hthree htail.1 htail.2]
        rfl
      · simp at h
    · simp at h
  · split at h
    · split_ifs at h with htail
      · simp only [Prod.mk.injEq, Unit8.char.injEq] at h
        obtain ⟨rfl, rfl⟩ := h
        rw [encodeChar_four hfour htail.1.1 htail.1.2 htail.2]
        rfl
      · simp at h
    · simp at h
  · simp at h

theorem flatMap_units {bs : List UInt8} {cs : List Char}
    (h : (units bs).mapM Unit8.char? = some cs) : cs.flatMap utf8EncodeChar = bs := by
  induction bs using units.induct generalizing cs with
  | case1 =>
    obtain rfl : [] = cs := by simpa [units] using h
    rfl
  | case2 a rest u n hfirst ih =>
    rw [units] at h
    simp only [hfirst, List.mapM_cons] at h
    cases u with
    | stray b => simp [Unit8.char?] at h
    | char c =>
      simp only [Unit8.char?, Option.bind_eq_bind, Option.bind_some] at h
      obtain ⟨ds, hds, hcs⟩ := Option.bind_eq_some_iff.1 h
      obtain rfl : c :: ds = cs := by simpa using hcs
      rw [List.flatMap_cons, ih hds, first_char hfirst]

theorem encode_of_decode? {bs : List UInt8} {s : String} (h : decode? bs = some s) :
    encode s = bs := by
  obtain ⟨cs, hcs, rfl⟩ := Option.map_eq_some_iff.1 h
  rw [encode_eq_flatMap, String.toList_ofList]
  exact flatMap_units hcs

end QueryTree.Text.Utf8
