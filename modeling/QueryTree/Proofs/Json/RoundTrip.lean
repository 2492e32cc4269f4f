import QueryTree.Proofs.Json.Literal

namespace QueryTree.Json

def parts : Json → List Json
  | .array items => items
  | .object members => members.map (·.2)
  | _ => []

section Parts

variable {motive : Json → Prop}

mutual

theorem ofParts (step : ∀ j, (∀ x ∈ j.parts, motive x) → motive j) : (j : Json) → motive j
  | .null => step .null (by simp [parts])
  | .bool b => step (.bool b) (by simp [parts])
  | .number t => step (.number t) (by simp [parts])
  | .string s => step (.string s) (by simp [parts])
  | .octets bs => step (.octets bs) (by simp [parts])
  | .array items => step (.array items) (ofItems step items)
  | .object members => step (.object members) (ofMembers step members)

theorem ofItems (step : ∀ j, (∀ x ∈ j.parts, motive x) → motive j) :
    (items : List Json) → ∀ x ∈ items, motive x
  | [] => by simp
  | j :: js => List.forall_mem_cons.mpr ⟨ofParts step j, ofItems step js⟩

theorem ofMembers (step : ∀ j, (∀ x ∈ j.parts, motive x) → motive j) :
    (members : List (String × Json)) → ∀ x ∈ members.map (·.2), motive x
  | [] => by simp
  | (_, j) :: ms => List.forall_mem_cons.mpr ⟨ofParts step j, ofMembers step ms⟩

end

end Parts

mutual

-- The numbers of a document, and the octets in it, which are spelled like no number.
def numbers : Json → List String
  | .number t => [t]
  | .octets bs => [quotedOctets bs]
  | .array items => itemNumbers items
  | .object members => memberNumbers members
  | _ => []

def itemNumbers : List Json → List String
  | [] => []
  | j :: js => j.numbers ++ itemNumbers js

def memberNumbers : List (String × Json) → List String
  | [] => []
  | (_, j) :: ms => j.numbers ++ memberNumbers ms

end

theorem mem_numbers_of_part {j x : Json} (hx : x ∈ j.parts) {t : String} (ht : t ∈ x.numbers) :
    t ∈ j.numbers := by
  cases j with
  | array items =>
    change x ∈ items at hx
    change t ∈ itemNumbers items
    induction items with
    | nil => cases hx
    | cons i is ih =>
      rw [itemNumbers, List.mem_append]
      rcases List.mem_cons.mp hx with rfl | hx
      · exact .inl ht
      · exact .inr (ih hx)
  | object members =>
    change x ∈ members.map (·.2) at hx
    change t ∈ memberNumbers members
    induction members with
    | nil => cases hx
    | cons m ms ih =>
      obtain ⟨n, j⟩ := m
      rw [memberNumbers, List.mem_append]
      rcases List.mem_cons.mp hx with rfl | hx
      · exact .inl ht
      · exact .inr (ih hx)
  | null | bool b | number t | string s | octets bs => cases hx

-- Texts that are read as numbers from end to end.
def IsNumber (t : String) : Prop := readNumber t.toList = .ok (t, [])

theorem isDigit_head_of_readWhole {place : String} {c : Char} {cs : List Char}
    {whole : List Char × List Char} (h : readWhole place (c :: cs) = .ok whole) :
    c.isDigit = true := by
  by_cases hzero : c = '0'
  · rw [hzero]
    rfl
  · rw [readWhole_of_ne hzero, spanDigits, List.span_eq_takeWhile_dropWhile] at h
    by_cases hc : c.isDigit = true
    · exact hc
    · simp [hc, refuse] at h

theorem IsNumber.head {t : String} (ht : IsNumber t) :
    ∃ c cs, t.toList = c :: cs ∧ (c = '-' ∨ c.isDigit = true) := by
  unfold IsNumber at ht
  cases hcs : t.toList with
  | nil =>
    rw [hcs] at ht
    cases ht
  | cons c cs =>
    refine ⟨c, cs, rfl, ?_⟩
    by_cases hc : c = '-'
    · exact .inl hc
    · have hne : '-' ∉ (c :: cs).head? := fun h => hc (Option.some.inj h)
      rw [hcs, readNumber_of_ne hne] at ht
      obtain ⟨whole, hwhole, -⟩ := bind_eq_ok ht
      exact .inr (isDigit_head_of_readWhole hwhole)

def itemsText (items : List Json) : List Char :=
  [','].intercalate (items.map fun j => j.write.toList)

def memberText (m : String × Json) : List Char := (quoted m.1).toList ++ ':' :: m.2.write.toList

def membersText (members : List (String × Json)) : List Char :=
  [','].intercalate (members.map memberText)

theorem toList_write_array (items : List Json) :
    (Json.array items).write.toList = '[' :: itemsText items ++ [']'] := by
  have hitems : writeItems items = items.map write := by
    induction items with
    | nil => rfl
    | cons j js ih => rw [writeItems, ih, List.map_cons]
  simp [write, hitems, itemsText, String.toList_intercalate, Function.comp_def]

theorem toList_write_object (members : List (String × Json)) :
    (Json.object members).write.toList = '\x7b' :: membersText members ++ ['\x7d'] := by
  have hmembers : writeMembers members = members.map fun m => quoted m.1 ++ ":" ++ m.2.write := by
    induction members with
    | nil => rfl
    | cons m ms ih => rw [writeMembers, ih, List.map_cons]
  simp [write, hmembers, membersText, String.toList_intercalate, Function.comp_def]
  rfl

theorem ne_of_numeric {c d : Char} (hc : c = '-' ∨ c.isDigit = true) (hd : d.isDigit = false)
    (hminus : d ≠ '-') : c ≠ d := by
  rintro rfl
  rcases hc with rfl | hc
  · exact hminus rfl
  · rw [hc] at hd
    cases hd

theorem isSpace_of_numeric {c : Char} (hc : c = '-' ∨ c.isDigit = true) : isSpace c = false := by
  simp only [isSpace, Bool.or_eq_false_iff, beq_eq_false_iff_ne]
  exact ⟨⟨⟨ne_of_numeric hc rfl (by decide), ne_of_numeric hc rfl (by decide)⟩,
    ne_of_numeric hc rfl (by decide)⟩, ne_of_numeric hc rfl (by decide)⟩

theorem quotedOctets_head (bs : List UInt8) : '"' ∈ (quotedOctets bs).toList.head? := by
  simp [quotedOctets]

theorem not_isNumber_octets (bs : List UInt8) : ¬ IsNumber (quotedOctets bs) := by
  intro h
  obtain ⟨c, cs, hcs, hc⟩ := h.head
  have hquote := quotedOctets_head bs
  rw [hcs] at hquote
  exact ne_of_numeric hc rfl (by decide) (Option.some.inj hquote)

-- A document starts with a character that is neither blank nor the end of an array.
theorem write_head {j : Json} (hj : ∀ t ∈ j.numbers, IsNumber t) :
    ∃ c cs, j.write.toList = c :: cs ∧ isSpace c = false ∧ c ≠ ']' := by
  cases j with
  | null => exact ⟨'n', ['u', 'l', 'l'], rfl, rfl, by decide⟩
  | bool b =>
    cases b with
    | true => exact ⟨'t', ['r', 'u', 'e'], rfl, rfl, by decide⟩
    | false => exact ⟨'f', ['a', 'l', 's', 'e'], rfl, rfl, by decide⟩
  | number t =>
    obtain ⟨c, cs, hcs, hc⟩ := (hj t (by simp [numbers])).head
    exact ⟨c, cs, hcs, isSpace_of_numeric hc, ne_of_numeric hc rfl (by decide)⟩
  | string s => exact ⟨'"', _, toList_quoted s, rfl, by decide⟩
  | octets bs => exact absurd (hj _ List.mem_cons_self) (not_isNumber_octets bs)
  | array items => exact ⟨'[', _, toList_write_array items, rfl, by decide⟩
  | object members => exact ⟨'\x7b', _, toList_write_object members, rfl, by decide⟩

theorem skipSpace_cons {c : Char} (hc : isSpace c = false) (cs : List Char) :
    skipSpace (c :: cs) = c :: cs := by
  rw [skipSpace, List.dropWhile_cons_of_neg (by simp [hc])]

theorem readValue_numeric {c : Char} (hc : c = '-' ∨ c.isDigit = true) (fuel : Nat)
    (cs : List Char) :
    readValue (fuel + 1) (c :: cs) =
      (readNumber (c :: cs)).map fun (t, rest) => (.number t, rest) := by
  rw [readValue, skipSpace_cons (isSpace_of_numeric hc)]
  have hne : ∀ d : Char, d.isDigit = false → d ≠ '-' → ∀ rest, c :: cs ≠ d :: rest :=
    fun d hd hminus rest h => ne_of_numeric hc hd hminus (List.cons.inj h).1
  split
  · next h => exact absurd h (hne 'n' rfl (by decide) _)
  · next h => exact absurd h (hne 't' rfl (by decide) _)
  · next h => exact absurd h (hne 'f' rfl (by decide) _)
  · next h => exact absurd h (hne '"' rfl (by decide) _)
  · next h => exact absurd h (hne '[' rfl (by decide) _)
  · next h => exact absurd h (hne '\x7b' rfl (by decide) _)
  · cases readNumber (c :: cs) <;> rfl

-- A document is read from the front of a text that goes on with something else.
def ReadsBack (j : Json) : Prop :=
  ∀ fuel rest, 2 * j.write.toList.length ≤ fuel → Ends rest →
    readValue fuel (j.write.toList ++ rest) = .ok (j, rest)

theorem ends_cons {c : Char} (hc : c.isDigit = false) (hpoint : c ≠ '.') (he : c ≠ 'e')
    (hE : c ≠ 'E') (rest : List Char) : Ends (c :: rest) := by
  intro d hd
  cases hd
  exact ⟨hc, hpoint, he, hE⟩

theorem readsBack_null : ReadsBack .null := by
  intro fuel rest hfuel _
  change 8 ≤ fuel at hfuel
  obtain ⟨fuel, rfl⟩ : ∃ k, fuel = k + 1 := ⟨fuel - 1, by omega⟩
  rfl

theorem readsBack_bool (b : Bool) : ReadsBack (.bool b) := by
  intro fuel rest hfuel _
  cases b with
  | true =>
    change 8 ≤ fuel at hfuel
    obtain ⟨fuel, rfl⟩ : ∃ k, fuel = k + 1 := ⟨fuel - 1, by omega⟩
    rfl
  | false =>
    change 10 ≤ fuel at hfuel
    obtain ⟨fuel, rfl⟩ : ∃ k, fuel = k + 1 := ⟨fuel - 1, by omega⟩
    rfl

theorem readsBack_number {t : String} (ht : IsNumber t) : ReadsBack (.number t) := by
  intro fuel rest hfuel hrest
  obtain ⟨c, cs, hcs, hc⟩ := ht.head
  unfold IsNumber at ht
  change readValue fuel (t.toList ++ rest) = _
  change 2 * t.toList.length ≤ fuel at hfuel
  rw [hcs] at ht hfuel ⊢
  obtain ⟨fuel, rfl⟩ : ∃ k, fuel = k + 1 := ⟨fuel - 1, by rw [List.length_cons] at hfuel; omega⟩
  rw [List.cons_append, readValue_numeric hc, ← List.cons_append, local_readNumber ht hrest]
  rfl

theorem readsBack_string (s : String) : ReadsBack (.string s) := by
  intro fuel rest hfuel hrest
  change readValue fuel ((quoted s).toList ++ rest) = _
  change 2 * (quoted s).toList.length ≤ fuel at hfuel
  rw [toList_quoted] at hfuel ⊢
  obtain ⟨fuel, rfl⟩ : ∃ k, fuel = k + 1 :=
    ⟨fuel - 1, by rw [List.length_append, List.length_cons] at hfuel; omega⟩
  rw [List.append_assoc, List.singleton_append, List.cons_append, readValue,
    skipSpace_cons (by decide)]
  simp only [readString_quoted]
  rfl

theorem itemsText_cons_cons (j k : Json) (ks : List Json) :
    itemsText (j :: k :: ks) = j.write.toList ++ ',' :: itemsText (k :: ks) := by
  simp [itemsText, List.intercalate_cons_cons]

theorem readItems_itemsText {items : List Json} (hitems : ∀ j ∈ items, ReadsBack j)
    (hne : items ≠ []) {fuel : Nat} (hfuel : 2 * (itemsText items).length < fuel)
    (acc : List Json) (rest : List Char) :
    readItems fuel acc (itemsText items ++ ']' :: rest) =
      .ok (.array (acc.reverse ++ items), rest) := by
  induction items generalizing fuel acc with
  | nil => exact absurd rfl hne
  | cons j js ih =>
    obtain ⟨hj, hjs⟩ := List.forall_mem_cons.mp hitems
    obtain ⟨fuel, rfl⟩ := Nat.exists_eq_succ_of_ne_zero (Nat.ne_of_gt (Nat.zero_lt_of_lt hfuel))
    cases js with
    | nil =>
      have htext : itemsText [j] = j.write.toList := by simp [itemsText]
      rw [htext] at hfuel ⊢
      rw [readItems, hj fuel _ (by omega) (ends_cons rfl (by decide) (by decide) (by decide) rest)]
      change Except.ok (Json.array (j :: acc).reverse, rest) = _
      rw [List.reverse_cons]
    | cons k ks =>
      rw [itemsText_cons_cons, List.length_append, List.length_cons] at hfuel
      rw [itemsText_cons_cons, List.append_assoc, List.cons_append, readItems,
        hj fuel _ (by omega) (ends_cons rfl (by decide) (by decide) (by decide) _)]
      change readItems fuel (j :: acc) (itemsText (k :: ks) ++ ']' :: rest) = _
      rw [ih hjs (by simp) (by omega), List.reverse_cons, List.append_assoc,
        List.singleton_append]

theorem membersText_cons_cons (m k : String × Json) (ks : List (String × Json)) :
    membersText (m :: k :: ks) = memberText m ++ ',' :: membersText (k :: ks) := by
  simp [membersText, List.intercalate_cons_cons]

-- How an object goes on once a member has been read.
def afterMember (fuel : Nat) (acc : List (String × Json)) :
    List Char → Except Fault (Json × List Char)
  | ',' :: rest => readMembers fuel acc rest
  | '\x7d' :: rest => .ok (.object acc.reverse, rest)
  | rest => refuse "after object key:value pair" rest

-- One member is read, and then whatever its value is followed by.
theorem readMembers_memberText {n : String} {j : Json} (hj : ReadsBack j) {fuel : Nat}
    (hfuel : 2 * (memberText (n, j)).length ≤ fuel) (acc : List (String × Json)) {c : Char}
    (hc : Ends [c]) (rest : List Char) :
    readMembers (fuel + 1) acc (memberText (n, j) ++ c :: rest) =
      afterMember fuel ((n, j) :: acc) (skipSpace (c :: rest)) := by
  have hrest : Ends (c :: rest) := fun d hd => hc d hd
  have hlen : 2 * j.write.toList.length ≤ fuel := by
    simp only [memberText, List.length_append, List.length_cons] at hfuel
    omega
  rw [memberText, toList_quoted, readMembers]
  simp only [List.append_assoc, List.cons_append, List.nil_append]
  rw [skipSpace_cons (by decide)]
  simp only [readString_quoted, bind, Except.bind]
  rw [skipSpace_cons (by decide)]
  simp only [hj fuel _ hlen hrest]
  rfl

theorem readMembers_membersText {members : List (String × Json)}
    (hmembers : ∀ m ∈ members, ReadsBack m.2) (hne : members ≠ []) {fuel : Nat}
    (hfuel : 2 * (membersText members).length < fuel) (acc : List (String × Json))
    (rest : List Char) :
    readMembers fuel acc (membersText members ++ '\x7d' :: rest) =
      .ok (.object (acc.reverse ++ members), rest) := by
  induction members generalizing fuel acc with
  | nil => exact absurd rfl hne
  | cons m ms ih =>
    obtain ⟨n, j⟩ := m
    obtain ⟨hj, hms⟩ := List.forall_mem_cons.mp hmembers
    obtain ⟨fuel, rfl⟩ := Nat.exists_eq_succ_of_ne_zero (Nat.ne_of_gt (Nat.zero_lt_of_lt hfuel))
    cases ms with
    | nil =>
      have htext : membersText [(n, j)] = memberText (n, j) := by simp [membersText]
      rw [htext] at hfuel ⊢
      rw [readMembers_memberText hj (Nat.lt_succ_iff.mp hfuel) acc
        (ends_cons rfl (by decide) (by decide) (by decide) []), skipSpace_cons (by decide)]
      change Except.ok (Json.object ((n, j) :: acc).reverse, rest) = _
      rw [List.reverse_cons]
    | cons k ks =>
      rw [membersText_cons_cons, List.length_append, List.length_cons] at hfuel
      have hlen : 2 * (memberText (n, j)).length ≤ fuel := by omega
      rw [membersText_cons_cons, List.append_assoc, List.cons_append,
        readMembers_memberText hj hlen acc (ends_cons rfl (by decide) (by decide) (by decide) []),
        skipSpace_cons (by decide)]
      change readMembers fuel ((n, j) :: acc) (membersText (k :: ks) ++ '\x7d' :: rest) = _
      rw [ih hms (by simp) (by omega), List.reverse_cons, List.append_assoc,
        List.singleton_append]

theorem readValue_array {c : Char} (hc : isSpace c = false) (hclose : c ≠ ']') (fuel : Nat)
    (cs : List Char) : readValue (fuel + 1) ('[' :: c :: cs) = readItems fuel [] (c :: cs) := by
  rw [readValue, skipSpace_cons (by decide)]
  simp only [skipSpace_cons hc]
  split
  · next h => exact absurd (List.cons.inj h).1 hclose
  · rfl

theorem readsBack_array {items : List Json} (hitems : ∀ j ∈ items, ReadsBack j)
    (hnumbers : ∀ j ∈ items, ∀ t ∈ j.numbers, IsNumber t) : ReadsBack (.array items) := by
  intro fuel rest hfuel hrest
  rw [toList_write_array] at hfuel ⊢
  simp only [List.length_append, List.length_cons, List.length_nil] at hfuel
  obtain ⟨fuel, rfl⟩ : ∃ k, fuel = k + 1 := ⟨fuel - 1, by omega⟩
  rw [List.append_assoc, List.singleton_append, List.cons_append]
  cases items with
  | nil => rfl
  | cons j js =>
    -- The first item does not look like the end of the array.
    obtain ⟨c, cs, hhead, hc, hclose⟩ := write_head (hnumbers j List.mem_cons_self)
    obtain ⟨tail, htail⟩ : ∃ tail, itemsText (j :: js) ++ ']' :: rest = c :: tail := by
      cases js with
      | nil => exact ⟨cs ++ ']' :: rest, by simp [itemsText, hhead]⟩
      | cons k ks =>
        rw [itemsText_cons_cons, hhead]
        exact ⟨_, rfl⟩
    have hlen : 2 * (itemsText (j :: js)).length < fuel := by omega
    have hread := readItems_itemsText hitems (by simp) hlen [] rest
    rw [htail] at hread ⊢
    rw [readValue_array hc hclose]
    exact hread

theorem readsBack_object {members : List (String × Json)}
    (hmembers : ∀ m ∈ members, ReadsBack m.2) : ReadsBack (.object members) := by
  intro fuel rest hfuel hrest
  rw [toList_write_object] at hfuel ⊢
  simp only [List.length_append, List.length_cons, List.length_nil] at hfuel
  obtain ⟨fuel, rfl⟩ : ∃ k, fuel = k + 1 := ⟨fuel - 1, by omega⟩
  rw [List.append_assoc, List.singleton_append, List.cons_append]
  cases members with
  | nil => rfl
  | cons m ms =>
    obtain ⟨tail, htail⟩ : ∃ tail, membersText (m :: ms) ++ '\x7d' :: rest = '"' :: tail := by
      cases ms with
      | nil => exact ⟨_, by simp [membersText, memberText, toList_quoted]; rfl⟩
      | cons k ks =>
        rw [membersText_cons_cons, memberText, toList_quoted]
        exact ⟨_, rfl⟩
    have hlen : 2 * (membersText (m :: ms)).length < fuel := by omega
    have hread := readMembers_membersText hmembers (by simp) hlen [] rest
    rw [htail] at hread ⊢
    exact hread

theorem readsBack (j : Json) (hj : ∀ t ∈ j.numbers, IsNumber t) : ReadsBack j := by
  induction j using ofParts with
  | step j ih =>
    have hparts : ∀ x ∈ j.parts, ReadsBack x :=
      fun x hx => ih x hx fun t ht => hj t (mem_numbers_of_part hx ht)
    cases j with
    | null => exact readsBack_null
    | bool b => exact readsBack_bool b
    | number t => exact readsBack_number (hj t (by simp [numbers]))
    | string s => exact readsBack_string s
    | octets bs => exact absurd (hj _ List.mem_cons_self) (not_isNumber_octets bs)
    | array items =>
      exact readsBack_array hparts fun x hx t ht => hj t (mem_numbers_of_part hx ht)
    | object members =>
      exact readsBack_object fun m hm => hparts m.2 (List.mem_map_of_mem hm)

theorem readPrefix_write (j : Json) (hj : ∀ t ∈ j.numbers, IsNumber t) :
    readPrefix j.write = .ok (j, []) := by
  obtain ⟨c, cs, hhead, hc, -⟩ := write_head hj
  have hread := readsBack j hj (2 * j.write.length + 2) []
    (by rw [String.length_toList]; omega) ends_nil
  rw [List.append_nil] at hread
  unfold readPrefix
  rw [hread, hhead, skipSpace_cons hc]
  rfl

end QueryTree.Json
