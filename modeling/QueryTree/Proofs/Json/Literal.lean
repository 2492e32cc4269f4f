import Mathlib.Data.List.TakeDrop
import Mathlib.Data.List.TakeWhile
import QueryTree.Json.Reader
import QueryTree.Json.Writer
import QueryTree.Proofs.Number.Integer

namespace QueryTree.Json

-- What may follow a number: the end of the text, or a character that cannot belong to the number.
def Ends (rest : List Char) : Prop :=
  ∀ c ∈ rest.head?, c.isDigit = false ∧ c ≠ '.' ∧ c ≠ 'e' ∧ c ≠ 'E'

theorem ends_nil : Ends [] := by
  simp [Ends]

-- Readers that take no more of a text when something follows that ends a number.
def Local (f : List Char → Except Fault (α × List Char)) : Prop :=
  ∀ ⦃cs a r rest⦄, f cs = .ok (a, r) → Ends rest → f (cs ++ rest) = .ok (a, r ++ rest)

theorem spanDigits_append (cs : List Char) {rest : List Char} (hrest : Ends rest) :
    spanDigits (cs ++ rest) = ((spanDigits cs).1, (spanDigits cs).2 ++ rest) := by
  simp only [spanDigits, List.span_eq_takeWhile_dropWhile, Prod.mk.injEq]
  induction cs with
  | nil =>
    cases rest with
    | nil => simp
    | cons c rest => simp [(hrest c rfl).1]
  | cons c cs ih =>
    by_cases hc : c.isDigit = true
    · simpa [hc] using ih
    · simp [hc]

theorem local_digits (place : String) (refused : List Char → List Char) (g : List Char → α) :
    Local fun cs =>
      if (spanDigits cs).1.isEmpty then refuse place (refused cs)
      else .ok (g (spanDigits cs).1, (spanDigits cs).2) := by
  intro cs a r rest h hrest
  dsimp only at h ⊢
  split at h
  · cases hrefused : refused cs <;> simp [hrefused, refuse] at h
  · next hds =>
    cases h
    rw [spanDigits_append cs hrest, if_neg hds]

theorem readWhole_of_ne {place : String} {c : Char} {cs : List Char} (hc : c ≠ '0') :
    readWhole place (c :: cs) =
      if (spanDigits (c :: cs)).1.isEmpty then refuse place (c :: cs)
      else .ok ((spanDigits (c :: cs)).1, (spanDigits (c :: cs)).2) := by
  unfold readWhole
  split
  · next h => exact absurd (List.cons.inj h).1 hc
  · rfl

theorem local_readWhole (place : String) : Local (readWhole place) := by
  intro cs a r rest h hrest
  cases cs with
  | nil => simp [readWhole, spanDigits, List.span, List.span.loop, refuse] at h
  | cons c cs =>
    by_cases hc : c = '0'
    · subst hc
      cases h
      rfl
    · rw [readWhole_of_ne hc] at h
      rw [List.cons_append, readWhole_of_ne hc]
      exact local_digits place id id h hrest

theorem readFraction_of_ne {cs : List Char} (hcs : '.' ∉ cs.head?) :
    readFraction cs = .ok ([], cs) := by
  unfold readFraction
  split
  · exact absurd rfl hcs
  · rfl

theorem local_readFraction : Local readFraction := by
  intro cs a r rest h hrest
  cases cs with
  | nil =>
    cases h
    exact readFraction_of_ne fun hpoint => (hrest '.' hpoint).2.1 rfl
  | cons c cs =>
    by_cases hc : c = '.'
    · subst hc
      exact local_digits _ (fun cs => (spanDigits cs).2) ('.' :: ·) h hrest
    · have hne : ∀ tail : List Char, '.' ∉ (c :: tail).head? := by
        intro tail hpoint
        exact hc (Option.some.inj hpoint)
      rw [readFraction_of_ne (hne cs)] at h
      cases h
      exact readFraction_of_ne (hne _)

theorem local_readExponent : Local readExponent := by
  intro cs a r rest h hrest
  cases cs with
  | nil =>
    cases h
    cases rest with
    | nil => rfl
    | cons c rest =>
      obtain ⟨-, -, he, hE⟩ := hrest c rfl
      simp [readExponent, he, hE]
  | cons e cs =>
    by_cases he : (e == 'e' || e == 'E') = true
    · have hsigned : ∀ sign, Local fun cs =>
          if (spanDigits cs).1.isEmpty then
            refuse "in exponent of numeric literal" (spanDigits cs).2
          else .ok (e :: sign ++ (spanDigits cs).1, (spanDigits cs).2) :=
        fun sign => local_digits _ (fun cs => (spanDigits cs).2) (e :: sign ++ ·)
      simp only [readExponent, he, if_true] at h
      simp only [List.cons_append, readExponent, he, if_true]
      cases cs with
      | nil => cases h
      | cons c cs =>
        by_cases hplus : c = '+'
        · subst hplus
          exact hsigned ['+'] h hrest
        by_cases hminus : c = '-'
        · subst hminus
          exact hsigned ['-'] h hrest
        -- Without a sign the digits start at once.
        split at h
        · next heq => exact absurd (List.cons.inj heq).1 hplus
        · next heq => exact absurd (List.cons.inj heq).1 hminus
        · have := hsigned [] h hrest
          split
          · next heq => exact absurd (List.cons.inj heq).1 hplus
          · next heq => exact absurd (List.cons.inj heq).1 hminus
          · exact this
    · simp only [readExponent, he] at h
      cases h
      simp only [List.cons_append, readExponent, he]
      rfl

theorem bind_eq_ok {x : Except ε α} {f : α → Except ε β} {b : β} (h : x >>= f = .ok b) :
    ∃ a, x = .ok a ∧ f a = .ok b := by
  cases x with
  | error e => cases h
  | ok a => exact ⟨a, rfl, h⟩

def readUnsigned (sign : List Char) (place : String) (cs : List Char) :
    Except Fault (String × List Char) := do
  let (whole, cs) ← readWhole place cs
  let (part, cs) ← readFraction cs
  let (exponent, cs) ← readExponent cs
  return (String.ofList (sign ++ whole ++ part ++ exponent), cs)

theorem readNumber_minus (cs : List Char) :
    readNumber ('-' :: cs) = readUnsigned ['-'] "in numeric literal" cs := rfl

theorem readNumber_of_ne {cs : List Char} (hcs : '-' ∉ cs.head?) :
    readNumber cs = readUnsigned [] atValue cs := by
  unfold readNumber
  split
  next heq =>
  split at heq
  · exact absurd rfl hcs
  · cases heq
    rfl

theorem local_readUnsigned (sign : List Char) (place : String) :
    Local (readUnsigned sign place) := by
  intro cs t r rest h hrest
  obtain ⟨⟨whole, r₁⟩, h₁, h⟩ := bind_eq_ok h
  obtain ⟨⟨part, r₂⟩, h₂, h⟩ := bind_eq_ok h
  obtain ⟨⟨exponent, r₃⟩, h₃, h⟩ := bind_eq_ok h
  cases h
  unfold readUnsigned
  rw [local_readWhole place h₁ hrest]
  change (readFraction (r₁ ++ rest) >>= _) = _
  rw [local_readFraction h₂ hrest]
  change (readExponent (r₂ ++ rest) >>= _) = _
  rw [local_readExponent h₃ hrest]
  rfl

theorem local_readNumber : Local readNumber := by
  intro cs t r rest h hrest
  cases cs with
  | nil => cases h
  | cons c cs =>
    by_cases hc : c = '-'
    · subst hc
      exact local_readUnsigned ['-'] _ h hrest
    · have hne : ∀ tail : List Char, '-' ∉ (c :: tail).head? :=
        fun tail hminus => hc (Option.some.inj hminus)
      rw [readNumber_of_ne (hne cs)] at h
      rw [List.cons_append, readNumber_of_ne (hne _)]
      exact local_readUnsigned [] atValue h hrest

section Taken

theorem refuse_ne_ok {α : Type} {place : String} {cs : List Char} {a : α} :
    (refuse place cs : Except Fault α) ≠ .ok a := by
  cases cs <;> exact fun h => by cases h

theorem spanDigits_parts (cs : List Char) : (spanDigits cs).1 ++ (spanDigits cs).2 = cs := by
  rw [spanDigits, List.span_eq_takeWhile_dropWhile]
  exact List.takeWhile_append_dropWhile

variable {cs ds rest : List Char} {place : String}

theorem readWhole_append (h : readWhole place cs = .ok (ds, rest)) : ds ++ rest = cs := by
  unfold readWhole at h
  split at h
  · cases h
    rfl
  · dsimp only at h
    split at h
    · exact absurd h refuse_ne_ok
    · cases h
      exact spanDigits_parts _

theorem readFraction_append (h : readFraction cs = .ok (ds, rest)) : ds ++ rest = cs := by
  unfold readFraction at h
  split at h
  · dsimp only at h
    split at h
    · exact absurd h refuse_ne_ok
    · cases h
      rw [List.cons_append, spanDigits_parts]
  · cases h
    rfl

theorem readExponent_append (h : readExponent cs = .ok (ds, rest)) : ds ++ rest = cs := by
  unfold readExponent at h
  split at h
  · next e tail =>
    split at h
    · split at h
      next sign digits hsign =>
      have htail : sign ++ digits = tail := by
        split at hsign
        all_goals
          cases hsign
          rfl
      dsimp only at h
      split at h
      · exact absurd h refuse_ne_ok
      · cases h
        rw [List.cons_append, List.cons_append, List.append_assoc, spanDigits_parts, htail]
    · cases h
      rfl
  · cases h
    rfl

theorem readUnsigned_append {sign : List Char} {t : String}
    (h : readUnsigned sign place cs = .ok (t, rest)) : t.toList ++ rest = sign ++ cs := by
  obtain ⟨⟨whole, r₁⟩, hwhole, h⟩ := bind_eq_ok h
  obtain ⟨⟨part, r₂⟩, hpart, h⟩ := bind_eq_ok h
  obtain ⟨⟨exponent, r₃⟩, hexponent, h⟩ := bind_eq_ok h
  cases h
  rw [← readWhole_append hwhole, ← readFraction_append hpart, ← readExponent_append hexponent]
  simp [String.toList_ofList]

-- The number that is read is the text that is taken for it.
theorem readNumber_append {t : String} (h : readNumber cs = .ok (t, rest)) :
    t.toList ++ rest = cs := by
  by_cases hminus : '-' ∈ cs.head?
  · obtain ⟨cs, rfl⟩ := List.head?_eq_some_iff.mp hminus
    exact readUnsigned_append h
  · rw [readNumber_of_ne hminus] at h
    exact readUnsigned_append h

end Taken

theorem readWhole_toDigits (place : String) (n : Nat) :
    readWhole place (Nat.toDigits 10 n) = .ok (Nat.toDigits 10 n, []) := by
  rcases Number.toDigits_cases n with hzero | ⟨c, cs, hdigits, hc⟩
  · rw [hzero]
    rfl
  · have hspan : spanDigits (Nat.toDigits 10 n) = (Nat.toDigits 10 n, []) := by
      have hall := @Number.isDigit_of_mem_toDigits n
      rw [spanDigits, List.span_eq_takeWhile_dropWhile, List.takeWhile_eq_self_iff.mpr hall,
        List.dropWhile_eq_nil_iff.mpr hall]
    rw [hdigits] at hspan ⊢
    rw [readWhole_of_ne hc, hspan]
    rfl

theorem readUnsigned_toDigits (sign : List Char) (place : String) (n : Nat) :
    readUnsigned sign place (Nat.toDigits 10 n) =
      .ok (String.ofList (sign ++ Nat.toDigits 10 n), []) := by
  unfold readUnsigned
  rw [readWhole_toDigits]
  change Except.ok (String.ofList (sign ++ Nat.toDigits 10 n ++ [] ++ []), []) = _
  simp

theorem readNumber_toString (n : Int) : readNumber (toString n).toList = .ok (toString n, []) := by
  have htext : String.ofList (toString n).toList = toString n := String.ofList_toList
  rcases Number.toList_toString_cases n with ⟨-, h⟩ | ⟨-, h⟩
  · have hne : '-' ∉ (toString n).toList.head? := by
      intro hminus
      rw [h] at hminus
      exact absurd (Number.isDigit_of_mem_toDigits '-' (List.mem_of_mem_head? hminus)) (by decide)
    rw [readNumber_of_ne hne, h, readUnsigned_toDigits, List.nil_append, ← h, htext]
  · rw [h, readNumber_minus, readUnsigned_toDigits, List.singleton_append, ← h, htext]

def unitDigits (n : Nat) : List Char :=
  List.replicate (4 - (Nat.toDigits 16 n).length) '0' ++ Nat.toDigits 16 n

theorem toList_hex (n : Nat) : (Text.hex 4 n).toList = unitDigits n := String.toList_ofList

-- The characters that are written by their number: controls, three marks and two line ends.
def isNumbered (c : Char) : Bool :=
  c.toNat < 32 || c == '<' || c == '>' || c == '&' || c.toNat == 0x2028 || c.toNat == 0x2029

theorem toNat_of_isNumbered {c : Char} (hc : isNumbered c = true) :
    c.toNat < 64 ∨ c.toNat = 0x2028 ∨ c.toNat = 0x2029 := by
  simp only [isNumbered, Bool.or_eq_true, decide_eq_true_eq, beq_iff_eq] at hc
  rcases hc with ((((h | rfl) | rfl) | rfl) | h) | h
  · exact .inl (by omega)
  · exact .inl (by decide)
  · exact .inl (by decide)
  · exact .inl (by decide)
  · exact .inr (.inl h)
  · exact .inr (.inr h)

theorem readDigits?_unitDigits_small : ∀ n, n < 64 →
    (unitDigits n).length = 4 ∧ Number.readDigits? 16 (unitDigits n) = some n := by
  decide

theorem hexUnit_unitDigits {c : Char} (hc : isNumbered c = true) (rest : List Char) :
    hexUnit (unitDigits c.toNat ++ rest) = .ok (c.toNat, rest) := by
  obtain ⟨hlen, hread⟩ : (unitDigits c.toNat).length = 4 ∧
      Number.readDigits? 16 (unitDigits c.toNat) = some c.toNat := by
    rcases toNat_of_isNumbered hc with h | h | h
    · exact readDigits?_unitDigits_small _ h
    · rw [h]
      exact ⟨rfl, rfl⟩
    · rw [h]
      exact ⟨rfl, rfl⟩
  match hds : unitDigits c.toNat, hlen with
  | [a, b, c, d], _ =>
    rw [hds] at hread
    simp only [List.cons_append, List.nil_append, hexUnit, hread]

theorem unitChar_toNat {c : Char} (hc : isNumbered c = true) (rest : List Char) :
    unitChar c.toNat rest = (c, rest) := by
  have hsmall : c.toNat < 0xd800 := by
    have := toNat_of_isNumbered hc
    omega
  have hhigh : isHighUnit c.toNat = false := by
    simp only [isHighUnit, Bool.and_eq_false_iff, decide_eq_false_iff_not]
    omega
  have hlow : isLowUnit c.toNat = false := by
    simp only [isLowUnit, Bool.and_eq_false_iff, decide_eq_false_iff_not]
    omega
  simp only [unitChar, hhigh, hlow, Bool.false_eq_true, if_false, Char.ofNat_toNat]

-- How a character is written inside quotes: as itself, behind a backslash, or by its number.
theorem escapeChar_cases (c : Char) :
    ((escapeChar c).toList = [c] ∧ c ≠ '"' ∧ c ≠ '\\' ∧ 32 ≤ c.toNat) ∨
    (∃ e, e ≠ 'u' ∧ (escapeChar c).toList = ['\\', e] ∧ escapedChar? e = some c) ∨
    ((escapeChar c).toList = '\\' :: 'u' :: unitDigits c.toNat ∧ isNumbered c = true) := by
  unfold escapeChar
  split
  · exact .inr (.inl ⟨'"', by decide, rfl, rfl⟩)
  · exact .inr (.inl ⟨'\\', by decide, rfl, rfl⟩)
  · exact .inr (.inl ⟨'n', by decide, rfl, rfl⟩)
  · exact .inr (.inl ⟨'r', by decide, rfl, rfl⟩)
  · exact .inr (.inl ⟨'t', by decide, rfl, rfl⟩)
  · next hquote hback _ _ _ =>
    dsimp only
    have hofNat : ∀ n, (c.toNat == n) = true → Char.ofNat n = c := by
      intro n hn
      rw [← eq_of_beq hn, Char.ofNat_toNat]
    split
    · next h => exact .inr (.inl ⟨'b', by decide, rfl, congrArg some (hofNat 8 h)⟩)
    split
    · next h => exact .inr (.inl ⟨'f', by decide, rfl, congrArg some (hofNat 12 h)⟩)
    split
    · next h =>
      exact .inr (.inr ⟨by rw [String.toList_append, toList_hex]; rfl, h⟩)
    · next h =>
      refine .inl ⟨by simp [Char.toString], hquote, hback, ?_⟩
      simp only [Bool.or_eq_true, decide_eq_true_eq, not_or] at h
      omega

theorem readString_shown {c : Char} (hquote : c ≠ '"') (hback : c ≠ '\\')
    (hshown : 32 ≤ c.toNat) (fuel : Nat) (acc rest : List Char) :
    readString (fuel + 1) acc (c :: rest) = readString fuel (c :: acc) rest := by
  simp [readString, hback, Nat.not_lt.mpr hshown]

theorem readString_letter {e c : Char} (he : e ≠ 'u') (hletter : escapedChar? e = some c)
    (fuel : Nat) (acc rest : List Char) :
    readString (fuel + 1) acc ('\\' :: e :: rest) = readString fuel (c :: acc) rest := by
  simp [readString, hletter]

theorem readString_numbered {c : Char} (hc : isNumbered c = true) (fuel : Nat)
    (acc rest : List Char) :
    readString (fuel + 1) acc ('\\' :: 'u' :: unitDigits c.toNat ++ rest) =
      readString fuel (c :: acc) rest := by
  simp only [List.cons_append, readString, hexUnit_unitDigits hc]
  change readString fuel ((unitChar c.toNat rest).1 :: acc) (unitChar c.toNat rest).2 = _
  rw [unitChar_toNat hc]

def escaped (cs : List Char) : List Char := cs.flatMap fun c => (escapeChar c).toList

theorem readString_escaped (cs : List Char) {fuel : Nat} (hfuel : cs.length < fuel)
    (acc rest : List Char) :
    readString fuel acc (escaped cs ++ '"' :: rest) =
      .ok (String.ofList (acc.reverse ++ cs), rest) := by
  induction cs generalizing fuel acc with
  | nil =>
    obtain ⟨fuel, rfl⟩ := Nat.exists_eq_succ_of_ne_zero (Nat.ne_of_gt hfuel)
    simp [escaped, readString]
  | cons c cs ih =>
    obtain ⟨fuel, rfl⟩ := Nat.exists_eq_succ_of_ne_zero (Nat.ne_of_gt (Nat.zero_lt_of_lt hfuel))
    have hrest := ih (Nat.lt_of_succ_lt_succ hfuel) (c :: acc)
    rw [List.reverse_cons, List.append_assoc, List.singleton_append] at hrest
    rw [escaped, List.flatMap_cons, List.append_assoc, ← escaped, ← hrest]
    rcases escapeChar_cases c with
      ⟨hc, hquote, hback, hshown⟩ | ⟨e, he, hc, hletter⟩ | ⟨hc, hnumbered⟩
    · rw [hc]
      exact readString_shown hquote hback hshown fuel acc _
    · rw [hc]
      exact readString_letter he hletter fuel acc _
    · rw [hc]
      exact readString_numbered hnumbered fuel acc _

theorem length_le_escaped (cs : List Char) : cs.length ≤ (escaped cs).length := by
  induction cs with
  | nil => exact Nat.le_refl 0
  | cons c cs ih =>
    have hpos : 1 ≤ (escapeChar c).toList.length := by
      rcases escapeChar_cases c with ⟨hc, -⟩ | ⟨e, -, hc, -⟩ | ⟨hc, -⟩
      · simp [hc]
      · simp [hc]
      · simp [hc]
    rw [escaped, List.flatMap_cons, List.length_append, ← escaped, List.length_cons]
    omega

theorem toList_quoted (s : String) : (quoted s).toList = '"' :: escaped s.toList ++ ['"'] := by
  simp [quoted, escaped, String.toList_join, List.flatMap_map]

theorem readString_quoted (s : String) (rest : List Char) :
    readString ((escaped s.toList ++ '"' :: rest).length + 1) [] (escaped s.toList ++ '"' :: rest) =
      .ok (s, rest) := by
  have hfuel : s.toList.length < (escaped s.toList ++ '"' :: rest).length + 1 := by
    have := length_le_escaped s.toList
    rw [List.length_append]
    omega
  rw [readString_escaped s.toList hfuel]
  simp

end QueryTree.Json
