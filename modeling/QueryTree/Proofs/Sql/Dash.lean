import QueryTree.Proofs.Sql.Engine

namespace QueryTree

namespace Text

def hasDashes : List Char → Bool
  | [] => false
  | c :: cs => (c == '-' && cs.head? == some '-') || hasDashes cs

def beginsWithDash (cs : List Char) : Bool := cs.head? == some '-'

def endsWithDash (cs : List Char) : Bool := cs.getLast? == some '-'

-- Two dashes stand in one of two texts, or one at each side of where they meet.
theorem hasDashes_append (cs ds : List Char) :
    hasDashes (cs ++ ds) =
      (hasDashes cs || hasDashes ds || (endsWithDash cs && beginsWithDash ds)) := by
  induction cs with
  | nil => simp [hasDashes, endsWithDash]
  | cons c cs ih =>
    cases cs with
    | nil => simp [hasDashes, endsWithDash, beginsWithDash, Bool.or_comm]
    | cons b cs =>
      have hlast : endsWithDash (c :: b :: cs) = endsWithDash (b :: cs) := by
        simp [endsWithDash, List.getLast?_cons_cons]
      have hfirst : hasDashes (c :: b :: cs) = (c == '-' && b == '-' || hasDashes (b :: cs)) := rfl
      have hwhole : hasDashes (c :: b :: cs ++ ds) =
          (c == '-' && b == '-' || hasDashes (b :: cs ++ ds)) := rfl
      rw [hwhole, ih, hlast, hfirst]
      simp only [Bool.or_assoc]

theorem not_hasDashes {cs : List Char} (h : '-' ∉ cs) :
    hasDashes cs = false ∧ beginsWithDash cs = false := by
  induction cs with
  | nil => decide
  | cons c cs ih =>
    have hc : c ≠ '-' := fun hc => h (hc ▸ List.mem_cons_self)
    have hrest := ih fun hmem => h (List.mem_cons_of_mem c hmem)
    simp [hasDashes, beginsWithDash, hc, hrest.1]

-- A text without two dashes in a row.
def isCalm (t : String) : Bool := !hasDashes t.toList

theorem hasDashes_of_isCalm {t : String} (h : isCalm t = true) : hasDashes t.toList = false := by
  simpa [isCalm] using h

-- A text that keeps dashes on its two sides apart.
def isSpacer (t : String) : Bool :=
  isCalm t && !t.isEmpty && !beginsWithDash t.toList && !endsWithDash t.toList

theorem isCalm_append {s t : String} (hs : isCalm s = true) (ht : isCalm t = true)
    (h : endsWithDash s.toList = false ∨ beginsWithDash t.toList = false) :
    isCalm (s ++ t) = true := by
  simp only [isCalm, Bool.not_eq_true'] at hs ht ⊢
  rw [String.toList_append, hasDashes_append, hs, ht]
  rcases h with h | h <;> simp [h]

theorem isSpacer_spaced {kw : String} (h : isCalm kw = true) :
    isSpacer (" " ++ kw ++ " ") = true := by
  have hchars : (" " ++ kw ++ " ").toList = ' ' :: (kw.toList ++ [' ']) := by simp
  have hcalm : isCalm (" " ++ kw ++ " ") = true :=
    isCalm_append (isCalm_append (by decide) h (.inl (by decide))) (by decide) (.inr (by decide))
  have hlast : endsWithDash (" " ++ kw ++ " ").toList = false := by
    simp [hchars, endsWithDash, List.getLast?_cons, List.getLast?_append]
  have hfirst : beginsWithDash (" " ++ kw ++ " ").toList = false := by
    simp [hchars, beginsWithDash]
  rw [isSpacer, hcalm, hlast, hfirst]
  simp

theorem dash_not_mem_of_isIdentifier {s : String} (h : isIdentifier s = true) :
    '-' ∉ s.toList := by
  simp only [isIdentifier, Bool.and_eq_true, List.all_eq_true] at h
  exact fun hmem => absurd (h.2 _ hmem) (by decide)

theorem dash_not_mem_of_isDigit {cs : List Char} (h : ∀ c ∈ cs, c.isDigit = true) : '-' ∉ cs :=
  fun hmem => absurd (h _ hmem) (by decide)

-- Numbers, with a dash only for their sign and that of an exponent.

theorem isCalm_signed (negative : Bool) {t : String} (ht : isCalm t = true)
    (hfirst : beginsWithDash t.toList = false) :
    isCalm ((if negative then "-" else "") ++ t) = true ∧
      beginsWithDash ((if negative then "-" else "") ++ t).toList = negative := by
  cases negative with
  | true =>
    refine ⟨isCalm_append (by decide) ht (.inr hfirst), ?_⟩
    simp [beginsWithDash]
  | false => simpa using ⟨ht, hfirst⟩

theorem isCalm_int (n : Int) :
    isCalm (toString n) = true ∧ beginsWithDash (toString n).toList = decide (n < 0) := by
  have hnat (k : Nat) :
      isCalm (Nat.repr k) = true ∧ beginsWithDash (Nat.repr k).toList = false := by
    have hdigits : '-' ∉ (Nat.repr k).toList := by
      rw [Nat.toList_repr]
      exact dash_not_mem_of_isDigit fun c hc =>
        Nat.isDigit_of_mem_toDigits (by decide) (by decide) hc
    rw [isCalm, (not_hasDashes hdigits).1]
    exact ⟨rfl, (not_hasDashes hdigits).2⟩
  cases n with
  | ofNat k => exact hnat k
  | negSucc k =>
    have hnegative : decide (Int.negSucc k < 0) = true := by simp
    rw [hnegative]
    exact isCalm_signed true (hnat (k + 1)).1 (hnat (k + 1)).2

end Text

namespace Decimal

open Text (isCalm beginsWithDash not_hasDashes dash_not_mem_of_isDigit)

variable {d : Decimal}

theorem dash_not_mem_positionalText (h : d.HasDigits) : '-' ∉ d.positionalText.toList := by
  have hzeros (n : Nat) : '-' ∉ List.replicate n '0' := fun hmem =>
    absurd (List.mem_replicate.mp hmem).2 (by decide)
  have hdigits : '-' ∉ d.digits := dash_not_mem_of_isDigit h
  have hpair : '-' ∉ d.positional.1.toList ∧ '-' ∉ d.positional.2.toList := by
    unfold positional
    split
    · decide
    · split
      · refine ⟨(by decide : '-' ∉ "0".toList), ?_⟩
        simp only [String.toList_ofList, List.mem_append, not_or]
        exact ⟨hzeros _, hdigits⟩
      · simp only [String.toList_ofList, List.mem_append, not_or]
        exact ⟨⟨fun hc => hdigits (List.mem_of_mem_take hc), hzeros _⟩,
          fun hc => hdigits (List.mem_of_mem_drop hc)⟩
  simp only [positionalText]
  split
  · exact hpair.1
  · simpa using hpair

theorem isCalm_exponentText (e : Int) : isCalm (exponentText e) = true := by
  have hdigits : '-' ∉ (if (digitsOf e.natAbs).length < 2 then '0' :: digitsOf e.natAbs
      else digitsOf e.natAbs) := by
    have hmem : '-' ∉ digitsOf e.natAbs :=
      dash_not_mem_of_isDigit fun c hc => isDigit_of_mem_digitsOf hc
    split
    · simpa using hmem
    · exact hmem
  have hcalm := not_hasDashes hdigits
  refine Text.isCalm_append ?_ ?_ (.inr ?_)
  · split <;> decide
  · simpa [isCalm] using hcalm.1
  · simpa using hcalm.2

theorem isCalm_scientificText (h : d.HasDigits) :
    isCalm d.scientificText = true ∧ beginsWithDash d.scientificText.toList = false := by
  have hmantissa (t : String) (ht : '-' ∉ t.toList) : isCalm (t ++ "e" ++
      exponentText (d.point - 1)) = true := by
    have hcalm : isCalm t = true := by simpa [isCalm] using (not_hasDashes ht).1
    refine Text.isCalm_append (Text.isCalm_append hcalm (by decide) (.inr (by decide)))
      (isCalm_exponentText _) (.inl ?_)
    simp [Text.endsWithDash]
  unfold HasDigits at h
  unfold scientificText
  split
  · decide
  · next c hc =>
    have hdash : '-' ≠ c := fun hdash => absurd (h c (by simp [hc])) (hdash ▸ by decide)
    refine ⟨hmantissa c.toString (by simpa using hdash), ?_⟩
    simpa [beginsWithDash] using hdash.symm
  · next c rest _ hc =>
    rw [hc] at h
    have hdash : '-' ∉ c :: rest := dash_not_mem_of_isDigit h
    simp only [List.mem_cons, not_or] at hdash
    refine ⟨hmantissa (c.toString ++ "." ++ String.ofList rest) (by simpa using hdash), ?_⟩
    simpa [beginsWithDash] using Ne.symm hdash.1

end Decimal

theorem DecimalStyle.isCalm_write (style : DecimalStyle) {d : Decimal} (h : d.HasDigits) :
    Text.isCalm (style.write d) = true ∧
      Text.beginsWithDash (style.write d).toList = false := by
  have hpositional := Text.not_hasDashes (Decimal.dash_not_mem_positionalText h)
  unfold write
  split
  · decide
  · split
    · exact Decimal.isCalm_scientificText h
    · simpa [Text.isCalm] using hpositional

theorem Binary.isCalm_write (style : DecimalStyle) (fmt : FloatFormat) (x : Binary) :
    Text.isCalm (x.write style fmt "+Inf") = true ∧
      Text.beginsWithDash (x.write style fmt "+Inf").toList = x.isNegative := by
  unfold write
  split
  · decide
  · decide
  · decide
  · obtain ⟨hcalm, hfirst⟩ := style.isCalm_write (x.hasDigits_decimal fmt)
    exact Text.isCalm_signed x.isNegative hcalm hfirst

-- Numbers below zero, negative zero among them.
def Value.isNegativeNumber (v : Value) : Bool :=
  match v.under with
  | .int _ n => n < 0
  | .float _ x => x.isNegative
  | _ => false

namespace Engine

open Text (isCalm isSpacer beginsWithDash endsWithDash)

theorem isCalm_literal (g : Engine) {v : Value} {t : String} (h : g.dialect.literal v = .ok t) :
    isCalm t = true ∧ beginsWithDash t.toList = v.isNegativeNumber := by
  have hwrite (yes no : String)
      (hyes : isCalm yes = true ∧ beginsWithDash yes.toList = false)
      (hno : isCalm no = true ∧ beginsWithDash no.toList = false)
      (h : writeLiteral v yes no = .ok t) :
      isCalm t = true ∧ beginsWithDash t.toList = v.isNegativeNumber := by
    unfold writeLiteral at h
    unfold Value.isNegativeNumber
    split at h
    · next b hv =>
      cases h
      rw [hv]
      cases b
      · exact hno
      · exact hyes
    · next n hv =>
      cases h
      rw [hv]
      exact Text.isCalm_int n
    · next x hv =>
      cases h
      rw [hv]
      exact x.isCalm_write .display .double
    · cases h
  cases g <;> exact hwrite _ _ (by decide) (by decide) h

theorem isSpacer_logicKeyword (g : Engine) {op : LogicOp} {kw : String}
    (h : g.dialect.logicKeyword op = some kw) : isSpacer (" " ++ kw ++ " ") = true := by
  have table : ∀ kw ∈ logicKeywords, isCalm kw = true := by decide
  exact Text.isSpacer_spaced (table kw (g.mem_logicKeywords h))

theorem isSpacer_valueKeyword (g : Engine) {op : ValueOp} {kw : String}
    (h : g.dialect.valueKeyword op = some kw) : isSpacer (" " ++ kw ++ " ") = true := by
  have table : ∀ kw ∈ valueKeywords, isCalm kw = true := by decide
  exact Text.isSpacer_spaced (table kw (g.mem_valueKeywords h))

theorem unaryKeyword_cases (g : Engine) {op : UnaryOp} {kw : String} (hop : op ≠ .not)
    (h : g.dialect.unaryKeyword op = some kw) : op = .negate ∧ kw = "-" ∨ kw = "~" := by
  have hunary : g.dialect.unaryKeyword op = standardUnary op := by cases g <;> rfl
  rw [hunary, standardUnary, if_neg (by simpa using hop)] at h
  split at h
  · next hnegate =>
    cases h
    exact .inl ⟨by simpa using hnegate, rfl⟩
  · split at h
    · cases h
      exact .inr rfl
    · cases h

theorem isCalm_counted (kw : String) (hkw : isSpacer kw = true) (n : Int) :
    isCalm (kw ++ toString n) = true := by
  simp only [isSpacer, Bool.and_eq_true, Bool.not_eq_true'] at hkw
  exact Text.isCalm_append hkw.1.1.1 (Text.isCalm_int n).1 (.inl hkw.2)

theorem isCalm_paging (g : Engine) {skip take : Int} {ordered : Bool} {t : String}
    (h : g.dialect.paging skip take ordered = .ok t) : isCalm t = true := by
  have hoffset : isCalm (if skip > 0 then " OFFSET " ++ toString skip else "") = true ∧
      beginsWithDash (if skip > 0 then " OFFSET " ++ toString skip else "").toList = false := by
    split
    · exact ⟨isCalm_counted _ (by decide) skip, by simp [beginsWithDash]⟩
    · decide
  have hlimit (s : String) (hs : isCalm s = true) :
      isCalm (s ++ (if skip > 0 then " OFFSET " ++ toString skip else "")) = true :=
    Text.isCalm_append hs hoffset.1 (.inr hoffset.2)
  cases g with
  | postgres escape =>
    cases h
    unfold Dialect.Postgres.paging
    split <;> split
    · exact isCalm_counted "OFFSET " (by decide) skip
    · decide
    · have hboth := Text.isCalm_append (isCalm_counted "LIMIT " (by decide) take)
        (isCalm_counted " OFFSET " (by decide) skip) (.inr (by simp [beginsWithDash]))
      have hspaced : " OFFSET " ++ toString skip = " " ++ ("OFFSET " ++ toString skip) := by
        rw [← String.append_assoc]
        rfl
      rw [hspaced] at hboth
      simpa [String.append_assoc] using hboth
    · exact isCalm_counted "LIMIT " (by decide) take
  | sqlite escape =>
    cases h
    exact hlimit _ (isCalm_counted _ (by decide) take)
  | mssql escape strict =>
    cases h
    unfold Dialect.Mssql.paging
    refine Text.isCalm_append (Text.isCalm_append ?_ (by decide) (.inr (by decide))) ?_ (.inr ?_)
    · split
      · exact isCalm_counted "OFFSET " (by decide) skip
      · exact isCalm_counted "ORDER BY (SELECT NULL) OFFSET " (by decide) skip
    · split
      · decide
      · refine Text.isCalm_append (isCalm_counted _ (by decide) take) (by decide) (.inr (by decide))
    · split <;> simp [beginsWithDash]
  | mariadb escape =>
    cases h
    refine hlimit _ ?_
    split
    · decide
    · exact isCalm_counted _ (by decide) take

end Engine
end QueryTree
