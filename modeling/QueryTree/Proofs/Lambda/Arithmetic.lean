import QueryTree.Proofs.Lambda.Datum

namespace QueryTree

def Kind.cls : Kind → Lambda.Class
  | .int => .int
  | .bool => .bool
  | .text => .text

namespace Lambda.Constant

open Text

variable {op : InfixOp} {d : Datum}

def datum? : Constant → Option Datum
  | .bool b => some (.bool b)
  | .text s => some (.text (Utf8.encode s))
  | .octets bs => some (.text bs)
  | .int n => some (.int n)
  | _ => none

theorem ofValue?_of_datum {v : Value} (h : v.datum? = some d) :
    ∃ c, ofValue? v = some (c, d.kind.cls) ∧ c.datum? = some d := by
  cases v <;> simp [Value.datum?] at h <;> subst h <;> exact ⟨_, rfl, rfl⟩

theorem datum?_ofOctets (bs : List UInt8) : (Value.ofOctets bs).datum? = some (.text bs) := by
  unfold Value.ofOctets
  split
  case h_1 s hs => rw [Value.datum?, Utf8.encode_of_decode? hs]
  case h_2 => rfl

theorem datum?_of_toValue {c : Constant} {v : Value} (hc : c.datum? = some d)
    (h : c.toValue d.kind.cls = .ok v) : v.datum? = some d := by
  cases c with
  | bool b =>
    cases h
    exact hc
  | text s =>
    cases h
    exact hc
  | octets bs =>
    cases h
    rw [datum?_ofOctets]
    exact hc
  | int n =>
    obtain rfl : Datum.int n = d := by simpa [datum?] using hc
    simp only [toValue, intValue, Datum.kind, Kind.cls, reduceCtorEq, beq_iff_eq, if_false] at h
    split at h
    · cases h
      rfl
    · cases h
  | ratio n d => simp [datum?] at hc
  | unknown => simp [datum?] at hc

section Inversion

variable {c : Constant}

theorem eq_int_of_datum {n : Int} (h : c.datum? = some (.int n)) : c = .int n := by
  cases c <;> simp_all [datum?]

theorem eq_bool_of_datum {b : Bool} (h : c.datum? = some (.bool b)) : c = .bool b := by
  cases c <;> simp_all [datum?]

theorem eq_text_of_datum {bs : List UInt8} (h : c.datum? = some (.text bs)) :
    c = .octets bs ∨ ∃ s, c = .text s ∧ Utf8.encode s = bs := by
  cases c <;> simp_all [datum?]

end Inversion

section Comparisons

theorem lessOctets_eq (as bs : List UInt8) : lessOctets as bs = decide (as < bs) := by
  induction as generalizing bs with
  | nil => cases bs <;> simp [lessOctets]
  | cons a as ih =>
    cases bs with
    | nil => simp [lessOctets]
    | cons b bs =>
      rw [lessOctets, ih]
      by_cases hab : a = b <;> simp [hab, List.cons_lt_cons_iff]

theorem octets_trichotomy (as bs : List UInt8) : as < bs ∨ as = bs ∨ bs < as := by
  by_cases hlt : as < bs
  · exact .inl hlt
  · rcases List.le_iff_lt_or_eq.1 (List.not_lt.1 hlt) with hgt | heq
    · exact .inr (.inr hgt)
    · exact .inr (.inl heq.symm)

theorem result?_int (hop : isComparison op = true) (m n : Int) :
    op.result? (.int m) (.int n) = some (.bool (compareInt op m n)) := by
  cases op <;> simp [isComparison] at hop <;>
    simp only [InfixOp.result?, Datum.same?, Datum.less?, Datum.kind, compareInt, if_true,
      Option.map_some, Option.some.injEq, Datum.bool.injEq, Datum.int.injEq] <;>
    grind

-- The order of texts as a number compares with zero as the texts compare.
theorem result?_text (hop : isComparison op = true) (as bs : List UInt8) :
    op.result? (.text as) (.text bs) =
      some (.bool (compareInt op (orderOf (lessOctets as bs) (lessOctets bs as)) 0)) := by
  rw [lessOctets_eq, lessOctets_eq]
  rcases octets_trichotomy as bs with hlt | rfl | hgt
  · have hnot := List.lt_asymm hlt
    have hne : as ≠ bs := fun heq => List.lt_irrefl bs (heq ▸ hlt)
    cases op <;> simp [isComparison] at hop <;>
      simp [InfixOp.result?, Datum.same?, Datum.less?, Datum.kind, compareInt, orderOf, hlt, hnot,
        hne]
  · cases op <;> simp [isComparison] at hop <;>
      simp [InfixOp.result?, Datum.same?, Datum.less?, Datum.kind, compareInt, orderOf,
        List.lt_irrefl]
  · have hnot := List.lt_asymm hgt
    have hne : as ≠ bs := fun heq => List.lt_irrefl bs (heq ▸ hgt)
    cases op <;> simp [isComparison] at hop <;>
      simp [InfixOp.result?, Datum.same?, Datum.less?, Datum.kind, compareInt, orderOf, hgt, hnot,
        hne]

theorem result?_encode (hop : isComparison op = true) (s t : String) :
    op.result? (.text (Utf8.encode s)) (.text (Utf8.encode t)) =
      some (.bool (compareText op s t)) := by
  cases op <;> simp [isComparison] at hop <;>
    simp [InfixOp.result?, Datum.same?, Datum.less?, Datum.kind, compareText, Utf8.encode_inj,
      ← Utf8.lt_iff_encode_lt, bne, beq_eq_decide]

theorem result?_compare_text (hop : isComparison op = true) {x y : Constant} {as bs : List UInt8}
    (hx : x.datum? = some (.text as)) (hy : y.datum? = some (.text bs)) :
    op.result? (.text as) (.text bs) = some (.bool (compare op x y)) := by
  obtain rfl | ⟨s, rfl, rfl⟩ := eq_text_of_datum hx <;>
    obtain rfl | ⟨t, rfl, rfl⟩ := eq_text_of_datum hy
  · exact result?_text hop _ _
  · exact result?_text hop _ _
  · exact result?_text hop _ _
  · exact result?_encode hop s t

theorem compare_sound {x y : Constant} {e f : Datum} (hop : isComparison op = true)
    (hx : x.datum? = some d) (hy : y.datum? = some e) (h : op.result? d e = some f) :
    f = .bool (compare op x y) := by
  cases d <;> cases e
  case int.int m n =>
    obtain rfl := eq_int_of_datum hx
    obtain rfl := eq_int_of_datum hy
    rw [result?_int hop] at h
    exact (Option.some.inj h).symm
  case text.text as bs =>
    rw [result?_compare_text hop hx hy] at h
    exact (Option.some.inj h).symm
  case bool.bool b c =>
    obtain rfl := eq_bool_of_datum hx
    obtain rfl := eq_bool_of_datum hy
    cases op <;> simp [isComparison] at hop <;>
      simp [InfixOp.result?, Datum.same?, Datum.less?, Datum.kind] at h <;>
      simp [← h, compare, bne, beq_eq_decide]
  all_goals
    cases op <;> simp [isComparison] at hop <;>
      simp [InfixOp.result?, Datum.same?, Datum.less?, Datum.kind] at h

end Comparisons

theorem combine_sound {x y : Constant} {e f : Datum} (hop : isComparison op = false)
    (hx : x.datum? = some d) (hy : y.datum? = some e) (h : op.result? d e = some f) :
    (combine op x y).datum? = some f := by
  cases d <;> cases e
  case int.int m n =>
    obtain rfl := eq_int_of_datum hx
    obtain rfl := eq_int_of_datum hy
    cases op <;> simp [InfixOp.result?, isComparison] at h hop <;>
      simp [combine, combineInt, datum?, h]
  case bool.bool b c =>
    obtain rfl := eq_bool_of_datum hx
    obtain rfl := eq_bool_of_datum hy
    cases op <;> simp [InfixOp.result?, isComparison] at h hop <;> simp [combine, datum?, h]
  case text.text as bs =>
    obtain rfl : Datum.text (as ++ bs) = f := by
      cases op <;> simp_all [InfixOp.result?, isComparison]
    obtain rfl | ⟨s, rfl, rfl⟩ := eq_text_of_datum hx <;>
      obtain rfl | ⟨t, rfl, rfl⟩ := eq_text_of_datum hy <;>
      simp [combine, quotient?, asOctets, datum?]
  all_goals
    cases op <;> simp [InfixOp.result?, isComparison] at h hop

theorem kind_of_result? {e f : Datum} (hop : isComparison op = false)
    (h : op.result? d e = some f) : d.kind = f.kind ∧ e.kind = f.kind := by
  cases d <;> cases e <;> cases op <;> simp [InfixOp.result?, isComparison] at h hop <;>
    subst h <;> exact ⟨rfl, rfl⟩

theorem infixValue_sound {type : String} {x y : Constant} {e f : Datum} {v : Value}
    (hx : x.datum? = some d) (hy : y.datum? = some e) (hf : op.result? d e = some f)
    (h : infixValue op type x d.kind.cls y e.kind.cls = .ok v) : v.datum? = some f := by
  have hfloat : (e.kind.cls == Class.float) = false := by cases e <;> rfl
  simp only [infixValue, hfloat, Bool.false_eq_true, if_false] at h
  split at h
  case isTrue hop =>
    split at h
    · cases h
    · cases h
      rw [compare_sound hop hx hy hf]
      rfl
  case isFalse hop =>
    have hop : isComparison op = false := by simpa using hop
    have hconst := combine_sound hop hx hy hf
    have hkind := (kind_of_result? hop hf).1
    rw [hkind] at h
    split at h
    case isTrue hshift =>
      rcases Bool.or_eq_true_iff.1 hshift with hshift | hshift <;>
        simp [eq_of_beq hshift, InfixOp.result?] at hf
    case isFalse =>
      split at h
      · cases h
      · split at h
        · cases h
        · split at h
          · next hunknown => simp [hunknown, datum?] at hconst
          · exact datum?_of_toValue hconst h

theorem prefixValue_sound {op : PrefixOp} {type : String} {x : Constant} {f : Datum} {v : Value}
    (hx : x.datum? = some d) (hf : op.result? d = some f)
    (h : prefixValue op type x d.kind.cls = .ok v) : v.datum? = some f := by
  simp only [prefixValue] at h
  split at h
  case isTrue => cases h
  case isFalse =>
    cases d with
    | bool b =>
      obtain rfl := eq_bool_of_datum hx
      cases op <;> simp [PrefixOp.result?] at hf
      subst hf
      exact datum?_of_toValue rfl h
    | int n =>
      obtain rfl := eq_int_of_datum hx
      cases op <;> simp [PrefixOp.result?] at hf <;> subst hf <;> exact datum?_of_toValue rfl h
    | text bs => cases op <;> simp [PrefixOp.result?] at hf

end Lambda.Constant
end QueryTree
