import QueryTree.Number.Decimal
import QueryTree.Text.Identifier

namespace QueryTree

namespace Text

def isPlain (c : Char) : Bool := !(['"', '\'', '[', '\x60', '?', '@', ':'].contains c)

def allPlain (s : String) : Bool := s.toList.all isPlain

theorem isPlain_of_isWordChar {c : Char} (h : isWordChar c = true) : isPlain c = true := by
  simp only [isPlain, List.contains_cons, List.contains_nil, Bool.or_false, Bool.not_eq_true',
    Bool.or_eq_false_iff, beq_eq_false_iff_ne]
  refine ⟨?_, ?_, ?_, ?_, ?_, ?_, ?_⟩ <;> rintro rfl <;> exact absurd h (by decide)

theorem isWordChar_of_isDigit {c : Char} (h : c.isDigit = true) : isWordChar c = true := by
  simp [isWordChar, Char.isAlphanum, h]

theorem isPlain_of_isDigit {c : Char} (h : c.isDigit = true) : isPlain c = true :=
  isPlain_of_isWordChar (isWordChar_of_isDigit h)

@[simp] theorem allPlain_append (s t : String) :
    allPlain (s ++ t) = (allPlain s && allPlain t) := by
  simp [allPlain]

theorem allPlain_of_isIdentifier {s : String} (h : isIdentifier s = true) : allPlain s = true := by
  simp only [isIdentifier, Bool.and_eq_true, List.all_eq_true] at h
  simp only [allPlain, List.all_eq_true]
  exact fun c hc => isPlain_of_isWordChar (h.2 c hc)

-- The characters of numbers, of infinite ones and of those that are none.
def isNumeral (c : Char) : Bool :=
  c.isDigit || ['.', '-', '+', 'e', 'N', 'a', 'I', 'n', 'f'].contains c

def allNumeral (s : String) : Bool := s.toList.all isNumeral

theorem isPlain_of_isNumeral {c : Char} (h : isNumeral c = true) : isPlain c = true := by
  have table : ['.', '-', '+', 'e', 'N', 'a', 'I', 'n', 'f'].all isPlain = true := by decide
  simp only [isNumeral, Bool.or_eq_true, List.contains_iff_mem] at h
  exact h.elim isPlain_of_isDigit (List.all_eq_true.mp table c)

theorem allPlain_of_allNumeral {s : String} (h : allNumeral s = true) : allPlain s = true := by
  simp only [allNumeral, allPlain, List.all_eq_true] at h ⊢
  exact fun c hc => isPlain_of_isNumeral (h c hc)

@[simp] theorem allNumeral_append (s t : String) :
    allNumeral (s ++ t) = (allNumeral s && allNumeral t) := by
  simp [allNumeral]

@[simp] theorem allNumeral_ofList (cs : List Char) :
    allNumeral (String.ofList cs) = cs.all isNumeral := by
  simp [allNumeral]

theorem all_isNumeral_digits (n : Nat) : (Nat.toDigits 10 n).all isNumeral = true := by
  rw [List.all_eq_true]
  intro c hc
  simp [isNumeral, Nat.isDigit_of_mem_toDigits (by decide) (by decide) hc]

theorem allNumeral_nat (n : Nat) : allNumeral (toString n) = true := by
  simp [allNumeral, all_isNumeral_digits]

theorem allNumeral_int (n : Int) : allNumeral (toString n) = true := by
  cases n with
  | ofNat n => exact allNumeral_nat n
  | negSucc n =>
    change allNumeral ("-" ++ Nat.repr (n + 1)) = true
    rw [allNumeral_append, allNumeral, allNumeral, Nat.toList_repr, all_isNumeral_digits]
    decide

@[simp] theorem allPlain_nat (n : Nat) : allPlain (toString n) = true :=
  allPlain_of_allNumeral (allNumeral_nat n)

@[simp] theorem allPlain_int (n : Int) : allPlain (toString n) = true :=
  allPlain_of_allNumeral (allNumeral_int n)

end Text

namespace Decimal

open Text (isNumeral allNumeral all_isNumeral_digits)

-- The digits of a decimal, wherever they come from.
def HasNumerals (d : Decimal) : Prop := d.digits.all isNumeral = true

def HasDigits (d : Decimal) : Prop := ∀ c ∈ d.digits, c.isDigit = true

theorem HasDigits.hasNumerals {d : Decimal} (h : d.HasDigits) : d.HasNumerals :=
  List.all_eq_true.mpr fun c hc => by simp [isNumeral, h c hc]

theorem isDigit_of_mem_digitsOf {n : Nat} {c : Char} (h : c ∈ digitsOf n) : c.isDigit = true :=
  Nat.isDigit_of_mem_toDigits (by decide) (by decide) h

theorem mem_of_mem_dropZeros {ds : List Char} {c : Char} (h : c ∈ dropZeros ds) : c ∈ ds := by
  have hmem : c ∈ ds.reverse.dropWhile (· == '0') := by simpa [dropZeros] using h
  exact List.mem_reverse.mp ((List.dropWhile_sublist _).subset hmem)

theorem hasDigits_zero : HasDigits ⟨[], 0⟩ := fun _ hc => absurd hc List.not_mem_nil

theorem hasDigits_ofScaled (n : Nat) (shift : Int) : (ofScaled n shift).HasDigits := by
  unfold ofScaled
  split
  · exact hasDigits_zero
  · exact fun c hc => isDigit_of_mem_digitsOf (mem_of_mem_dropZeros hc)

theorem hasDigits_withDigits {i : Interval} {point : Int} {count : Nat} {d : Decimal}
    (h : i.withDigits? point count = some d) : d.HasDigits := by
  simp only [Interval.withDigits?] at h
  split at h
  · cases h
    exact hasDigits_ofScaled _ _
  · split at h
    · cases h
      exact hasDigits_ofScaled _ _
    · split at h
      · cases h
        exact hasDigits_ofScaled _ _
      · cases h

theorem hasDigits_shortest (fmt : FloatFormat) (m : Nat) (e : Int) :
    (shortest fmt m e).HasDigits := by
  unfold shortest
  split
  · exact hasDigits_zero
  · simp only []
    cases hf : (List.range 17).findSome? _ with
    | none => exact hasDigits_zero
    | some d =>
      obtain ⟨count, _, hd⟩ := List.exists_of_findSome?_eq_some hf
      exact hasDigits_withDigits hd

theorem allNumeral_exponentText (e : Int) : allNumeral (exponentText e) = true := by
  have hds := all_isNumeral_digits e.natAbs
  simp only [exponentText, Text.allNumeral_append, Text.allNumeral_ofList, Bool.and_eq_true]
  constructor
  · split <;> decide
  · split
    · rw [List.all_cons, digitsOf, hds]
      decide
    · exact hds

theorem allNumeral_scientificText {d : Decimal} (h : d.HasNumerals) :
    allNumeral d.scientificText = true := by
  unfold HasNumerals at h
  unfold scientificText
  split
  · decide
  · next c hc =>
    rw [hc] at h
    have he := allNumeral_exponentText (d.point - 1)
    simp_all [allNumeral]
    decide
  · next c rest _ hc =>
    rw [hc] at h
    have he := allNumeral_exponentText (d.point - 1)
    simp_all [allNumeral]
    decide

theorem allNumeral_positionalText {d : Decimal} (h : d.HasNumerals) :
    allNumeral d.positionalText = true := by
  unfold HasNumerals at h
  simp only [List.all_eq_true] at h
  have hzeros : ∀ n c, c ∈ List.replicate n '0' → isNumeral c = true := by
    intro n c hc
    rw [(List.mem_replicate.mp hc).2]
    decide
  have hpair : allNumeral d.positional.1 = true ∧ allNumeral d.positional.2 = true := by
    unfold positional
    split
    · decide
    · split
      · refine ⟨(by decide : allNumeral "0" = true), ?_⟩
        simp only [Text.allNumeral_ofList, List.all_append, Bool.and_eq_true, List.all_eq_true]
        exact ⟨hzeros _, h⟩
      · simp only [Text.allNumeral_ofList, List.all_append, Bool.and_eq_true, List.all_eq_true]
        exact ⟨⟨fun c hc => h c (List.mem_of_mem_take hc), hzeros _⟩,
          fun c hc => h c (List.mem_of_mem_drop hc)⟩
  simp only [positionalText]
  split
  · exact hpair.1
  · rw [Text.allNumeral_append, Text.allNumeral_append, hpair.1, hpair.2]
    decide

end Decimal

theorem Binary.hasDigits_decimal (fmt : FloatFormat) (x : Binary) : (x.decimal fmt).HasDigits := by
  unfold Binary.decimal
  split
  · exact Decimal.hasDigits_shortest _ _ _
  · exact Decimal.hasDigits_zero

theorem Binary.allNumeral_write (style : DecimalStyle) (fmt : FloatFormat) {inf : String}
    (hinf : Text.allNumeral inf = true) (x : Binary) :
    Text.allNumeral (x.write style fmt inf) = true := by
  have hdecimal := (x.hasDigits_decimal fmt).hasNumerals
  have hstyle : Text.allNumeral (style.write (x.decimal fmt)) = true := by
    unfold DecimalStyle.write
    split
    · decide
    · split
      · exact Decimal.allNumeral_scientificText hdecimal
      · exact Decimal.allNumeral_positionalText hdecimal
  unfold Binary.write
  split
  · decide
  · decide
  · exact hinf
  · rw [Text.allNumeral_append, hstyle]
    split <;> decide

end QueryTree
