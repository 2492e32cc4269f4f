import QueryTree.Number.Reader

namespace QueryTree.Number

theorem digitValue?_of_isDigit {c : Char} (hc : c.isDigit = true) :
    digitValue? 10 c = some (c.toNat - '0'.toNat) := by
  have hle : c.toNat ≤ '9'.toNat := (Char.isDigit_iff_toNat.mp hc).2
  have hlt : c.toNat - '0'.toNat < 10 := by
    change c.toNat - 48 < 10
    change c.toNat ≤ 57 at hle
    omega
  simp only [digitValue?, hc, if_true, if_pos hlt]

theorem foldlM_digitValue? {cs : List Char} (hcs : ∀ c ∈ cs, c.isDigit = true) (n : Nat) :
    cs.foldlM (fun n c => (digitValue? 10 c).map (n * 10 + ·)) n =
      some (Nat.ofDigitChars 10 cs n) := by
  induction cs generalizing n with
  | nil => rfl
  | cons c cs ih =>
    obtain ⟨hc, hrest⟩ := List.forall_mem_cons.mp hcs
    rw [List.foldlM_cons, digitValue?_of_isDigit hc, Option.map_some, Nat.ofDigitChars_cons,
      Nat.mul_comm 10 n]
    exact ih hrest _

theorem isDigit_of_mem_toDigits {n : Nat} : ∀ c ∈ Nat.toDigits 10 n, c.isDigit = true :=
  fun _ hc => Nat.isDigit_of_mem_toDigits (by decide) (by decide) hc

theorem digitChar_ne_zero : ∀ n, n < 10 → n ≠ 0 → n.digitChar ≠ '0' := by
  decide

theorem readDigits?_toDigits (n : Nat) : readDigits? 10 (Nat.toDigits 10 n) = some n := by
  have hne : (Nat.toDigits 10 n).isEmpty = false := by simp
  rw [readDigits?, hne, foldlM_digitValue? isDigit_of_mem_toDigits,
    Nat.ofDigitChars_toDigits (by decide) (by decide)]
  rfl

theorem toDigits_cases (n : Nat) :
    Nat.toDigits 10 n = ['0'] ∨ ∃ c cs, Nat.toDigits 10 n = c :: cs ∧ c ≠ '0' := by
  induction n using Nat.strongRecOn with
  | ind n ih =>
    by_cases hn : n < 10
    · rw [Nat.toDigits_of_lt_base hn]
      by_cases hzero : n = 0
      · exact .inl (by rw [hzero]; rfl)
      · exact .inr ⟨_, [], rfl, digitChar_ne_zero n hn hzero⟩
    · -- The last digit stands behind the digits of the rest.
      have hsplit : Nat.toDigits 10 n = Nat.toDigits 10 (n / 10) ++ Nat.toDigits 10 (n % 10) := by
        rw [Nat.toDigits_append_toDigits (by decide) (by omega) (by omega)]
        congr 1
        omega
      rcases ih (n / 10) (by omega) with h | ⟨c, cs, h, hc⟩
      · have hread := readDigits?_toDigits (n / 10)
        rw [h] at hread
        have : 0 = n / 10 := Option.some.inj hread
        omega
      · exact .inr ⟨c, cs ++ Nat.toDigits 10 (n % 10), by rw [hsplit, h]; rfl, hc⟩

theorem toList_toString_cases (n : Int) :
    (0 ≤ n ∧ (toString n).toList = Nat.toDigits 10 n.toNat) ∨
      (n < 0 ∧ (toString n).toList = '-' :: Nat.toDigits 10 (-n).toNat) := by
  rw [Int.toString_eq_repr, Int.repr_eq_if]
  split
  · next h => exact .inl ⟨h, Nat.toList_repr⟩
  · next h =>
    refine .inr ⟨by omega, ?_⟩
    rw [String.toList_append, Nat.toList_repr]
    rfl

theorem readSign_toDigits (n : Nat) :
    readSign (Nat.toDigits 10 n) = (false, Nat.toDigits 10 n) := by
  have hdigit := @isDigit_of_mem_toDigits n
  unfold readSign
  split
  · next h => exact absurd (hdigit '-' (by rw [h]; exact List.mem_cons_self)) (by decide)
  · next h => exact absurd (hdigit '+' (by rw [h]; exact List.mem_cons_self)) (by decide)
  · rfl

theorem readInt?_toString (n : Int) : readInt? (toString n).toList = some n := by
  rcases toList_toString_cases n with ⟨hn, h⟩ | ⟨hn, h⟩
  · rw [h, readInt?, readSign_toDigits]
    simp [readDigits?_toDigits, Int.toNat_of_nonneg hn]
  · rw [h, readInt?, readSign]
    simp [readDigits?_toDigits, Int.toNat_of_nonneg (Int.neg_nonneg_of_nonpos (Int.le_of_lt hn))]

-- Integers of 64 bits.
def isInt64 (n : Int) : Bool := -9223372036854775808 ≤ n && n ≤ 9223372036854775807

theorem readInt64?_toString {n : Int} (hn : isInt64 n = true) :
    readInt64? (toString n).toList = some n := by
  rw [readInt64?, readInt?_toString]
  exact Option.filter_some_pos hn

end QueryTree.Number
