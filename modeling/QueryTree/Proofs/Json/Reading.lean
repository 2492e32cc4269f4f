import QueryTree.Proofs.Json.RoundTrip

namespace QueryTree.Json

-- A text with a digit at its front, or behind a minus sign.
def IsNumeric (t : String) : Prop :=
  ∃ (negative : Bool) (c : Char) (cs : List Char), c.isDigit = true ∧
    t.toList = if negative then '-' :: c :: cs else c :: cs

def HasNumeric (j : Json) : Prop := ∀ t ∈ j.numbers, IsNumeric t

section Number

theorem readWhole_cons {place : String} {cs ds rest : List Char}
    (h : readWhole place cs = .ok (ds, rest)) : ∃ c tail, ds = c :: tail ∧ c.isDigit = true := by
  unfold readWhole at h
  split at h
  · cases h
    exact ⟨'0', [], rfl, rfl⟩
  · rw [spanDigits, List.span_eq_takeWhile_dropWhile] at h
    dsimp only at h
    cases hds : cs.takeWhile Char.isDigit with
    | nil =>
      rw [hds] at h
      exact absurd h refuse_ne_ok
    | cons c tail =>
      rw [hds] at h
      cases h
      refine ⟨c, tail, rfl, ?_⟩
      exact List.mem_takeWhile_imp (l := cs) (by rw [hds]; exact List.mem_cons_self)

theorem toList_of_readUnsigned {sign cs rest : List Char} {place t : String}
    (h : readUnsigned sign place cs = .ok (t, rest)) :
    ∃ c tail, c.isDigit = true ∧ t.toList = sign ++ c :: tail := by
  obtain ⟨⟨whole, r₁⟩, hwhole, h⟩ := bind_eq_ok h
  obtain ⟨⟨part, r₂⟩, -, h⟩ := bind_eq_ok h
  obtain ⟨⟨exponent, r₃⟩, -, h⟩ := bind_eq_ok h
  cases h
  obtain ⟨c, tail, rfl, hc⟩ := readWhole_cons hwhole
  exact ⟨c, tail ++ (part ++ exponent), hc, by simp [String.toList_ofList]⟩

theorem isNumeric_of_readNumber {cs rest : List Char} {t : String}
    (h : readNumber cs = .ok (t, rest)) : IsNumeric t := by
  by_cases hminus : '-' ∈ cs.head?
  · obtain ⟨cs, rfl⟩ := List.head?_eq_some_iff.mp hminus
    rw [readNumber_minus] at h
    obtain ⟨c, tail, hc, ht⟩ := toList_of_readUnsigned h
    exact ⟨true, c, tail, hc, ht⟩
  · rw [readNumber_of_ne hminus] at h
    obtain ⟨c, tail, hc, ht⟩ := toList_of_readUnsigned h
    exact ⟨false, c, tail, hc, ht⟩

end Number

theorem eq_of_readWord {word : String} {v j : Json} {ws cs rest : List Char}
    (h : readWord word v ws cs = .ok (j, rest)) : j = v := by
  induction ws generalizing cs with
  | nil =>
    cases h
    rfl
  | cons w ws ih =>
    cases cs with
    | nil => cases h
    | cons c cs =>
      rw [readWord] at h
      split at h
      · exact ih h
      · cases h

theorem itemNumbers_eq (js : List Json) : itemNumbers js = js.flatMap numbers := by
  induction js with
  | nil => rfl
  | cons j js ih => rw [itemNumbers, ih, List.flatMap_cons]

theorem memberNumbers_eq (ms : List (String × Json)) :
    memberNumbers ms = ms.flatMap fun m => m.2.numbers := by
  induction ms with
  | nil => rfl
  | cons m ms ih => rw [memberNumbers, ih, List.flatMap_cons]

theorem hasNumeric_array {js : List Json} (h : ∀ j ∈ js, j.HasNumeric) :
    HasNumeric (.array js) := by
  intro t ht
  rw [numbers, itemNumbers_eq] at ht
  obtain ⟨j, hj, ht⟩ := List.mem_flatMap.mp ht
  exact h j hj t ht

theorem hasNumeric_object {ms : List (String × Json)} (h : ∀ m ∈ ms, m.2.HasNumeric) :
    HasNumeric (.object ms) := by
  intro t ht
  rw [numbers, memberNumbers_eq] at ht
  obtain ⟨m, hm, ht⟩ := List.mem_flatMap.mp ht
  exact h m hm t ht

structure ReadsNumeric (fuel : Nat) : Prop where
  value : ∀ {cs j rest}, readValue fuel cs = .ok (j, rest) → j.HasNumeric
  items : ∀ {acc cs j rest}, (∀ x ∈ acc, x.HasNumeric) →
    readItems fuel acc cs = .ok (j, rest) → j.HasNumeric
  members : ∀ {acc cs j rest}, (∀ m ∈ acc, m.2.HasNumeric) →
    readMembers fuel acc cs = .ok (j, rest) → j.HasNumeric

section Step

variable {fuel : Nat} {cs rest : List Char} {j : Json}

theorem ReadsNumeric.value_step (hfuel : ReadsNumeric fuel)
    (h : readValue (fuel + 1) cs = .ok (j, rest)) : j.HasNumeric := by
  have hword : ∀ {word v ws cs}, v.numbers = [] → readWord word v ws cs = .ok (j, rest) →
      j.HasNumeric := by
    intro word v ws cs hv h t ht
    rw [eq_of_readWord h, hv] at ht
    exact absurd ht List.not_mem_nil
  rw [readValue] at h
  split at h
  · exact hword rfl h
  · exact hword rfl h
  · exact hword rfl h
  · obtain ⟨⟨s, r⟩, -, h⟩ := bind_eq_ok h
    cases h
    exact fun t ht => absurd ht List.not_mem_nil
  · split at h
    · cases h
      exact fun t ht => absurd ht List.not_mem_nil
    · exact hfuel.items (fun x hx => absurd hx List.not_mem_nil) h
  · split at h
    · cases h
      exact fun t ht => absurd ht List.not_mem_nil
    · exact hfuel.members (fun m hm => absurd hm List.not_mem_nil) h
  · obtain ⟨⟨t, r⟩, ht, h⟩ := bind_eq_ok h
    cases h
    intro u hu
    rw [List.mem_singleton.mp hu]
    exact isNumeric_of_readNumber ht

theorem ReadsNumeric.items_step (hfuel : ReadsNumeric fuel) {acc : List Json}
    (hacc : ∀ x ∈ acc, x.HasNumeric) (h : readItems (fuel + 1) acc cs = .ok (j, rest)) :
    j.HasNumeric := by
  rw [readItems] at h
  obtain ⟨⟨v, r⟩, hv, h⟩ := bind_eq_ok h
  have hmore : ∀ x ∈ v :: acc, x.HasNumeric :=
    List.forall_mem_cons.mpr ⟨hfuel.value hv, hacc⟩
  dsimp only at h
  split at h
  · exact hfuel.items hmore h
  · cases h
    exact hasNumeric_array fun x hx => hmore x (List.mem_reverse.mp hx)
  · exact absurd h refuse_ne_ok

theorem ReadsNumeric.members_step (hfuel : ReadsNumeric fuel) {acc : List (String × Json)}
    (hacc : ∀ m ∈ acc, m.2.HasNumeric) (h : readMembers (fuel + 1) acc cs = .ok (j, rest)) :
    j.HasNumeric := by
  rw [readMembers] at h
  split at h
  · obtain ⟨⟨name, r⟩, -, h⟩ := bind_eq_ok h
    dsimp only at h
    split at h
    · obtain ⟨⟨v, r'⟩, hv, h⟩ := bind_eq_ok h
      have hmore : ∀ m ∈ (name, v) :: acc, m.2.HasNumeric :=
        List.forall_mem_cons.mpr ⟨hfuel.value hv, hacc⟩
      dsimp only at h
      split at h
      · exact hfuel.members hmore h
      · cases h
        exact hasNumeric_object fun m hm => hmore m (List.mem_reverse.mp hm)
      · exact absurd h refuse_ne_ok
    · exact absurd h refuse_ne_ok
  · exact absurd h refuse_ne_ok

end Step

theorem readsNumeric (fuel : Nat) : ReadsNumeric fuel := by
  induction fuel with
  | zero =>
    exact
      { value := fun h => by rw [readValue] at h; cases h
        items := fun _ h => by rw [readItems] at h; cases h
        members := fun _ h => by rw [readMembers] at h; cases h }
  | succ fuel ih =>
    exact { value := ih.value_step, items := ih.items_step, members := ih.members_step }

theorem hasNumeric_of_readPrefix {s : String} {j : Json} {rest : List Char}
    (h : readPrefix s = .ok (j, rest)) : j.HasNumeric := by
  unfold readPrefix at h
  split at h
  · cases h
  · exact (readsNumeric _).value h

section Inside

inductive Inside : Json → Json → Prop
  | part {v j : Json} (hv : v ∈ j.parts) : Inside v j
  | within {v w j : Json} (hw : w ∈ j.parts) (hv : Inside v w) : Inside v j

-- What passes from all that stands inside a document to the document holds for every document.
theorem ofInside {motive : Json → Prop} (step : ∀ j, (∀ v, v.Inside j → motive v) → motive j)
    (j : Json) : motive j := by
  have hinside : ∀ v, v.Inside j → motive v := by
    induction j using ofParts with
    | step j ih =>
      intro v hv
      cases hv with
      | part hv => exact step v (ih v hv)
      | within hw hv => exact ih _ hw v hv
  exact step j hinside

theorem HasNumeric.inside {v j : Json} (hj : j.HasNumeric) (hv : v.Inside j) : v.HasNumeric := by
  induction hv with
  | part hv => exact fun t ht => hj t (mem_numbers_of_part hv ht)
  | within hw _ ih => exact ih fun t ht => hj t (mem_numbers_of_part hw ht)

theorem not_inside_nil {v : Json} : ¬ v.Inside (.array []) := by
  intro hv
  cases hv with
  | part hv => exact List.not_mem_nil hv
  | within hw _ => exact List.not_mem_nil hw

theorem Inside.cons {v : Json} {js : List Json} (hv : v.Inside (.array js)) (j : Json) :
    v.Inside (.array (j :: js)) := by
  cases hv with
  | part hv => exact .part (List.mem_cons_of_mem j hv)
  | within hw hv => exact .within (List.mem_cons_of_mem j hw) hv

theorem mem_of_last? {ms : List (String × Json)} {name : String} {v : Json}
    (h : last? ms name = some v) : v ∈ ms.map (·.2) := by
  induction ms with
  | nil => cases h
  | cons m ms ih =>
    obtain ⟨n, w⟩ := m
    rw [last?] at h
    split at h
    · next u hu =>
      cases h
      exact List.mem_cons_of_mem w (ih hu)
    · split at h
      · cases h
        exact List.mem_cons_self
      · cases h

end Inside

end QueryTree.Json
