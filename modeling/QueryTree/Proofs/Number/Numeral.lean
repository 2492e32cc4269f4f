import QueryTree.Proofs.Json.Literal

namespace QueryTree.Number

variable {ds rest cs : List Char}

structure Numeral where
  whole : List Char
  part : List Char
  exponent : Option (Bool × List Char)

namespace Numeral

-- A numeral of the interchange form: only digits, and a leading zero only alone.
structure IsProper (n : Numeral) : Prop where
  whole : ∀ c ∈ n.whole, c.isDigit = true
  part : ∀ c ∈ n.part, c.isDigit = true
  exponent : ∀ x ∈ n.exponent, x.2 ≠ [] ∧ ∀ c ∈ x.2, c.isDigit = true
  first : n.whole = ['0'] ∨ ∃ c cs, n.whole = c :: cs ∧ c ≠ '0'

def partChars (n : Numeral) : List Char := if n.part = [] then [] else '.' :: n.part

def exponentChars (n : Numeral) : List Char :=
  n.exponent.elim [] fun x => 'e' :: (if x.1 then '-' else '+') :: x.2

def chars (n : Numeral) : List Char := n.whole ++ (n.partChars ++ n.exponentChars)

def mantissa (n : Numeral) : Nat := Nat.ofDigitChars 10 (n.whole ++ n.part) 0

def exponentValue (x : Bool × List Char) : Int :=
  if x.1 then -(Nat.ofDigitChars 10 x.2 0 : Int) else Nat.ofDigitChars 10 x.2 0

-- The power of ten that the fraction and the exponent say.
def shift (n : Numeral) : Int := (n.exponent.map exponentValue).getD 0 - n.part.length

end Numeral

section Reading

theorem span_digits {p : Char → Bool} (hds : ∀ c ∈ ds, p c = true)
    (hrest : ∀ c ∈ rest.head?, p c = false) : (ds ++ rest).span p = (ds, rest) := by
  rw [List.span_eq_takeWhile_dropWhile, List.takeWhile_append_of_pos hds,
    List.dropWhile_append_of_pos hds]
  cases rest with
  | nil => simp
  | cons c rest => simp [hrest c rfl]

theorem readDigits?_of_isDigit (hne : ds ≠ []) (hds : ∀ c ∈ ds, c.isDigit = true) :
    readDigits? 10 ds = some (Nat.ofDigitChars 10 ds 0) := by
  rw [readDigits?, foldlM_digitValue? hds, if_neg (by simpa using hne)]

theorem withoutUnderscores_of_isDigit (hds : ∀ c ∈ ds, c.isDigit = true) :
    withoutUnderscores ds = ds := by
  refine List.filter_eq_self.mpr fun c hc => ?_
  have := hds c hc
  rw [bne_iff_ne]
  rintro rfl
  exact absurd this (by decide)

theorem underscoresFit_of_notMem {digit : Char → Bool} (hcs : '_' ∉ cs) (before : Bool) :
    underscoresFit digit before cs = true := by
  induction cs generalizing before with
  | nil => rfl
  | cons c cs ih =>
    obtain ⟨hc, hrest⟩ := not_or.mp (mt List.mem_cons.mpr hcs)
    rw [underscoresFit]
    · exact ih hrest _
    · rintro _ _ rfl
      exact absurd rfl hc
    · rintro rfl
      exact absurd rfl hc

end Reading

namespace Numeral

variable {n : Numeral}

theorem head?_tail (n : Numeral) :
    ∀ c ∈ (n.partChars ++ n.exponentChars).head?, c = '.' ∨ c = 'e' := by
  unfold partChars
  split
  · cases hexp : n.exponent <;> simp [exponentChars, hexp]
  · simp

theorem head?_exponentChars (n : Numeral) : ∀ c ∈ n.exponentChars.head?, c = 'e' := by
  cases hexp : n.exponent <;> simp [exponentChars, hexp]

section Documents

open Json (readWhole readFraction readExponent readUnsigned)

theorem json_spanDigits (hds : ∀ c ∈ ds, c.isDigit = true)
    (hrest : ∀ c ∈ rest.head?, c = '.' ∨ c = 'e') : Json.spanDigits (ds ++ rest) = (ds, rest) := by
  refine span_digits hds fun c hc => ?_
  rcases hrest c hc with rfl | rfl <;> rfl

theorem readWhole_chars (hn : n.IsProper) (place : String) :
    readWhole place n.chars = .ok (n.whole, n.partChars ++ n.exponentChars) := by
  rw [chars]
  rcases hn.first with hzero | ⟨c, cs, hcs, hc⟩
  · rw [hzero]
    rfl
  · have hspan := json_spanDigits hn.whole n.head?_tail
    rw [hcs, List.cons_append] at hspan ⊢
    rw [Json.readWhole_of_ne hc, hspan]
    rfl

theorem readFraction_chars (hn : n.IsProper) :
    readFraction (n.partChars ++ n.exponentChars) = .ok (n.partChars, n.exponentChars) := by
  unfold partChars
  split
  · refine Json.readFraction_of_ne fun hpoint => ?_
    exact absurd (n.head?_exponentChars '.' hpoint) (by decide)
  · next hne =>
    simp only [List.cons_append, readFraction,
      json_spanDigits hn.part fun c hc => .inr (n.head?_exponentChars c hc)]
    rw [if_neg (by simpa using hne)]

theorem readExponent_chars (hn : n.IsProper) :
    readExponent n.exponentChars = .ok (n.exponentChars, []) := by
  cases hexp : n.exponent with
  | none => simp [exponentChars, hexp, readExponent]
  | some x =>
    obtain ⟨negative, ds⟩ := x
    obtain ⟨hne, hds⟩ := hn.exponent _ hexp
    have hspan := @json_spanDigits ds [] hds (by simp)
    rw [List.append_nil] at hspan
    cases negative <;> simp [exponentChars, hexp, readExponent, hspan, hne]

theorem readUnsigned_chars (hn : n.IsProper) (sign : List Char) (place : String) :
    readUnsigned sign place n.chars = .ok (String.ofList (sign ++ n.chars), []) := by
  unfold readUnsigned
  rw [readWhole_chars hn]
  change (readFraction (n.partChars ++ n.exponentChars) >>= _) = _
  rw [readFraction_chars hn]
  change (readExponent n.exponentChars >>= _) = _
  rw [readExponent_chars hn]
  change Except.ok (String.ofList (sign ++ n.whole ++ n.partChars ++ n.exponentChars), []) = _
  simp only [chars, List.append_assoc]

end Documents

-- A sign only before a negative number.
def signed (negative : Bool) (n : Numeral) : List Char :=
  if negative then '-' :: n.chars else n.chars

theorem chars_eq_cons (hn : n.IsProper) : ∃ c cs, n.chars = c :: cs ∧ c.isDigit = true := by
  have hwhole := hn.whole
  rw [chars]
  rcases hn.first with h | ⟨c, cs, h, -⟩
  · exact ⟨'0', n.partChars ++ n.exponentChars, by rw [h]; rfl, rfl⟩
  · rw [h] at hwhole ⊢
    exact ⟨c, cs ++ _, rfl, hwhole c List.mem_cons_self⟩

theorem readNumber_signed (hn : n.IsProper) (negative : Bool) :
    Json.readNumber (n.signed negative) = .ok (String.ofList (n.signed negative), []) := by
  cases negative with
  | true => exact readUnsigned_chars hn ['-'] _
  | false =>
    obtain ⟨c, cs, hcs, hc⟩ := chars_eq_cons hn
    have hne : '-' ∉ n.chars.head? := by
      rw [hcs]
      rintro ⟨⟩
      exact absurd hc (by decide)
    exact (Json.readNumber_of_ne hne).trans (readUnsigned_chars hn [] _)

theorem readSign_signed (hn : n.IsProper) (negative : Bool) :
    readSign (n.signed negative) = (negative, n.chars) := by
  cases negative with
  | true => rfl
  | false =>
    obtain ⟨c, cs, hcs, hc⟩ := chars_eq_cons hn
    change readSign n.chars = _
    rw [hcs, readSign]
    · rintro rest ⟨⟩
      exact absurd hc (by decide)
    · rintro rest ⟨⟩
      exact absurd hc (by decide)

section Scaled

theorem number_spanDigits (hds : ∀ c ∈ ds, c.isDigit = true)
    (hrest : ∀ c ∈ rest.head?, c = '.' ∨ c = 'e') : spanDigits 10 (ds ++ rest) = (ds, rest) := by
  refine span_digits (fun c hc => ?_) fun c hc => ?_
  · rw [digitValue?_of_isDigit (hds c hc)]
    simp
  · rcases hrest c hc with rfl | rfl <;> rfl

theorem readExponent?_chars {x : Bool × List Char} (hne : x.2 ≠ [])
    (hds : ∀ c ∈ x.2, c.isDigit = true) :
    readExponent? ((if x.1 then '-' else '+') :: x.2) = some (exponentValue x) := by
  obtain ⟨negative, ds⟩ := x
  have hhead : ds.head?.any Char.isDigit = true := by
    cases ds with
    | nil => exact absurd rfl hne
    | cons c cs => exact hds c List.mem_cons_self
  cases negative <;>
    simp [readExponent?, readSign, withoutUnderscores_of_isDigit hds,
      readDigits?_of_isDigit hne hds, hhead, exponentValue]

-- What is left to read when the digits before and after the point are found.
def readMarked (mark : Char) (whole part rest : List Char) : Option (Nat × Nat × Option Int) := do
  let m ← readDigits? 10 (withoutUnderscores (whole ++ part))
  match rest with
  | [] => some (m, (withoutUnderscores part).length, none)
  | c :: rest =>
    if c.toLower == mark then do
      let e ← readExponent? rest
      some (m, (withoutUnderscores part).length, some e)
    else none

theorem readScaled?_point {mark : Char} {whole tail part : List Char}
    (hwhole : spanDigits 10 cs = (whole, '.' :: tail)) (hpart : spanDigits 10 tail = (part, rest)) :
    readScaled? 10 mark cs = readMarked mark whole part rest := by
  simp only [readScaled?, hwhole, hpart]
  rfl

theorem readScaled?_of_ne {mark : Char} {whole : List Char}
    (hwhole : spanDigits 10 cs = (whole, rest)) (hrest : '.' ∉ rest.head?) :
    readScaled? 10 mark cs = readMarked mark whole [] rest := by
  simp only [readScaled?, hwhole]
  cases rest with
  | nil => rfl
  | cons c rest =>
    have hc : c ≠ '.' := fun h => hrest (by simp [h])
    split
    · next heq => exact absurd (List.cons.inj heq).1 hc
    · rfl

theorem readScaled?_chars (hn : n.IsProper) :
    readScaled? 10 'e' n.chars =
      some (n.mantissa, n.part.length, n.exponent.map exponentValue) := by
  have hdigits : ∀ c ∈ n.whole ++ n.part, c.isDigit = true := by
    intro c hc
    exact (List.mem_append.mp hc).elim (hn.whole c) (hn.part c)
  have hne : n.whole ++ n.part ≠ [] := by
    rcases hn.first with h | ⟨c, cs, h, -⟩ <;> simp [h]
  have hwhole := number_spanDigits hn.whole n.head?_tail
  have hpart := number_spanDigits hn.part fun c hc => .inr (n.head?_exponentChars c hc)
  have hsplit : readScaled? 10 'e' n.chars = readMarked 'e' n.whole n.part n.exponentChars := by
    by_cases hnone : n.part = []
    · rw [partChars, if_pos hnone, List.nil_append] at hwhole
      rw [chars, partChars, if_pos hnone, List.nil_append, hnone]
      exact readScaled?_of_ne hwhole fun h => absurd (n.head?_exponentChars '.' h) (by decide)
    · rw [partChars, if_neg hnone] at hwhole
      rw [chars, partChars, if_neg hnone]
      exact readScaled?_point hwhole hpart
  simp only [hsplit, readMarked, withoutUnderscores_of_isDigit hdigits,
    withoutUnderscores_of_isDigit hn.part, readDigits?_of_isDigit hne hdigits]
  cases hexp : n.exponent with
  | none => simp [exponentChars, hexp, mantissa]
  | some x =>
    obtain ⟨hne, hds⟩ := hn.exponent _ hexp
    simp [exponentChars, hexp, mantissa, readExponent?_chars hne hds]

theorem notMem_underscore (hn : n.IsProper) : '_' ∉ n.chars := by
  have hdigit : ∀ ds : List Char, (∀ c ∈ ds, c.isDigit = true) → '_' ∉ ds :=
    fun ds hds hmem => absurd (hds _ hmem) (by decide)
  have hexp : '_' ∉ n.exponentChars := by
    cases hexp : n.exponent with
    | none => simp [exponentChars, hexp]
    | some x =>
      obtain ⟨negative, ds⟩ := x
      have := hdigit ds (hn.exponent _ hexp).2
      cases negative <;> simpa [exponentChars, hexp] using this
  have hpart : '_' ∉ n.partChars := by
    have := hdigit _ hn.part
    unfold partChars
    split <;> simp [this]
  simp [chars, hdigit _ hn.whole, hpart, hexp]

theorem isWord_of_ne {word : String} {c : Char} (h : word.toList.head? ≠ some c.toLower) :
    isWord word (c :: cs) = false := by
  rw [isWord, beq_eq_false_iff_ne]
  rintro rfl
  exact h (by simp)

theorem toLower_of_isDigit {c : Char} (hc : c.isDigit = true) : c.toLower = c := by
  have hle : c.toNat ≤ 57 := (Char.isDigit_iff_toNat.mp hc).2
  refine dif_neg fun h => ?_
  have : 65 ≤ c.toNat := h.1
  omega

theorem isWord_signed (hn : n.IsProper) (negative : Bool) {word : String} {d : Char}
    (hd : word.toList.head? = some d) (hdigit : d.isDigit = false) (hminus : d ≠ '-') :
    isWord word (n.signed negative) = false := by
  have hne : ∀ c cs, c.toLower = c → (c.isDigit = true ∨ c = '-') →
      isWord word (c :: cs) = false := by
    intro c cs hlower hc
    refine isWord_of_ne fun hhead => ?_
    rw [hlower, hd] at hhead
    cases hhead
    exact hc.elim (fun h => absurd h (by simp [hdigit])) hminus
  cases negative with
  | true => exact hne '-' _ (by decide) (.inr rfl)
  | false =>
    obtain ⟨c, cs, hcs, hc⟩ := chars_eq_cons hn
    rw [signed, if_neg (by decide), hcs]
    exact hne c cs (toLower_of_isDigit hc) (.inl hc)

theorem readDecimal_chars (hn : n.IsProper) (negative : Bool) :
    read?.decimal negative n.chars = some (.scaled negative n.mantissa 10 n.shift) := by
  rw [read?.decimal, if_pos (underscoresFit_of_notMem (notMem_underscore hn) false),
    readScaled?_chars hn]
  rfl

theorem read?_signed (hn : n.IsProper) (negative : Bool) :
    read? (n.signed negative) = some (.scaled negative n.mantissa 10 n.shift) := by
  have hnan : isWord "nan" (n.signed negative) = false :=
    isWord_signed hn negative rfl rfl (by decide)
  have hinf : isWord "inf" n.chars = false := isWord_signed hn false rfl rfl (by decide)
  have hinfinity : isWord "infinity" n.chars = false :=
    isWord_signed hn false rfl rfl (by decide)
  rw [read?, readSign_signed hn]
  simp only [hnan, hinf, hinfinity, Bool.or_self, Bool.false_eq_true, if_false]
  split
  · next x rest hchars =>
    -- Behind a leading zero comes no mark of a base.
    have hx : x = '.' ∨ x = 'e' := by
      rw [chars] at hchars
      rcases hn.first with hzero | ⟨c, cs, hcs, hc⟩
      · rw [hzero, List.cons_append, List.nil_append] at hchars
        exact n.head?_tail x (by rw [(List.cons.inj hchars).2]; rfl)
      · rw [hcs] at hchars
        exact absurd (List.cons.inj hchars).1 hc
    rw [if_neg (by rcases hx with rfl | rfl <;> decide)]
    exact readDecimal_chars hn negative
  · exact readDecimal_chars hn negative

end Scaled

section Integers

theorem readDigits?_eq_none {c : Char} (hmem : c ∈ cs) (hc : digitValue? 10 c = none) :
    readDigits? 10 cs = none := by
  have hfold : ∀ n, cs.foldlM (fun n c => (digitValue? 10 c).map (n * 10 + ·)) n = none := by
    induction cs with
    | nil => exact absurd hmem List.not_mem_nil
    | cons d cs ih =>
      intro n
      rw [List.foldlM_cons]
      rcases List.mem_cons.mp hmem with rfl | hmem
      · rw [hc]
        rfl
      · cases hd : digitValue? 10 d with
        | none => rfl
        | some v => exact ih hmem _
  rw [readDigits?, hfold]
  exact ite_self none

theorem readInt?_signed (hn : n.IsProper) (negative : Bool) :
    readInt? (n.signed negative) =
      if n.part = [] ∧ n.exponent = none then
        some (if negative then -(n.mantissa : Int) else n.mantissa)
      else none := by
  simp only [readInt?, readSign_signed hn]
  by_cases h : n.part = [] ∧ n.exponent = none
  · have hne : n.whole ≠ [] := by
      rcases hn.first with h | ⟨c, cs, h, -⟩ <;> simp [h]
    have hchars : n.chars = n.whole := by simp [chars, partChars, exponentChars, h]
    rw [if_pos h, hchars, readDigits?_of_isDigit hne hn.whole, mantissa, h.1, List.append_nil]
    rfl
  · have hnone : readDigits? 10 n.chars = none := by
      by_cases hpart : n.part = []
      · obtain ⟨x, hx⟩ := Option.ne_none_iff_exists'.mp fun hexp => h ⟨hpart, hexp⟩
        exact readDigits?_eq_none (c := 'e') (by simp [chars, exponentChars, hx]) rfl
      · exact readDigits?_eq_none (c := '.') (by simp [chars, partChars, hpart]) rfl
    rw [if_neg h, hnone]
    rfl

end Integers

end Numeral

end QueryTree.Number
