import QueryTree.Proofs.Json.Reading
import QueryTree.Proofs.Number.Notation
import QueryTree.Proofs.Value.Portable

namespace QueryTree

namespace Number

theorem read?.decimal_eq_some {negative : Bool} {cs : List Char} {r : Reading}
    (h : read?.decimal negative cs = some r) : ∃ m e, r = .scaled negative m 10 e := by
  unfold read?.decimal at h
  split at h
  · obtain ⟨⟨m, places, e⟩, -, h⟩ := Option.bind_eq_some_iff.mp h
    cases h
    exact ⟨_, _, rfl⟩
  · cases h

-- A text with a digit at its front is no word, so it is read as digits or not at all.
theorem read?_of_isNumeric {t : String} (ht : Json.IsNumeric t) {r : Reading}
    (h : read? t.toList = some r) : ∃ negative m base e, r = .scaled negative m base e := by
  obtain ⟨negative, c, cs, hc, ht⟩ := ht
  have hsign : readSign t.toList = (negative, c :: cs) := by
    rw [ht]
    cases negative with
    | true => rfl
    | false =>
      rw [if_neg Bool.false_ne_true, readSign]
      · rintro rest ⟨rfl⟩
        cases hc
      · rintro rest ⟨rfl⟩
        cases hc
  have hword : ∀ {word : String} {d : Char}, word.toList.head? = some d → d.isDigit = false →
      isWord word (c :: cs) = false := by
    intro word d hd hdigit
    refine Numeral.isWord_of_ne ?_
    rw [hd, Numeral.toLower_of_isDigit hc]
    rintro ⟨rfl⟩
    rw [hc] at hdigit
    cases hdigit
  have hnan : isWord "nan" t.toList = false := by
    rw [ht]
    cases negative with
    | true => exact Numeral.isWord_of_ne (by decide)
    | false => exact hword rfl rfl
  have hinf : isWord "inf" (c :: cs) = false := hword rfl rfl
  have hinfinity : isWord "infinity" (c :: cs) = false := hword rfl rfl
  rw [read?, hsign] at h
  simp only [hnan, hinf, hinfinity, Bool.or_self, Bool.false_eq_true, if_false] at h
  have hdecimal : ∀ {body}, read?.decimal negative body = some r →
      ∃ negative m base e, r = .scaled negative m base e := by
    intro body hbody
    obtain ⟨m, e, rfl⟩ := read?.decimal_eq_some hbody
    exact ⟨_, _, _, _, rfl⟩
  split at h
  · split at h
    · split at h
      · obtain ⟨⟨m, places, e⟩, -, h⟩ := Option.bind_eq_some_iff.mp h
        obtain ⟨e, -, h⟩ := Option.bind_eq_some_iff.mp h
        cases h
        exact ⟨_, _, _, _, rfl⟩
      · cases h
    · exact hdecimal h
  · exact hdecimal h

theorem Reading.toBinary_scaled_cases (negative : Bool) (m base : Nat) (e : Int) :
    (scaled negative m base e).toBinary = .infinite negative ∨
      ∃ n k, FloatFormat.double.Holds n k ∧
        (scaled negative m base e).toBinary = .finite negative n k := by
  have hround : ∀ num den, Binary.ofRatio negative num den = .infinite negative ∨
      ∃ n k, FloatFormat.double.Holds n k ∧
        Binary.ofRatio negative num den = .finite negative n k :=
    fun num den => Binary.round_cases FloatFormat.isProper_double
  rw [toBinary]
  split
  · exact hround 0 1
  · split
    · exact .inl rfl
    · split
      · exact hround 0 1
      · split <;> exact hround _ _

theorem readBinary?_of_isNumeric {t : String} (ht : Json.IsNumeric t) {x : Binary}
    (h : readBinary? t.toList = some x) :
    ∃ negative m e, FloatFormat.double.Holds m e ∧ x = .finite negative m e := by
  obtain ⟨r, hr, h⟩ := Option.bind_eq_some_iff.mp h
  obtain ⟨negative, m, base, e, rfl⟩ := read?_of_isNumeric ht hr
  rcases Reading.toBinary_scaled_cases negative m base e with hinf | ⟨n, k, hn, hfinite⟩
  · rw [Reading.overflows, hinf] at h
    cases h
  · rw [Reading.overflows, hfinite] at h
    cases h
    exact ⟨negative, n, k, hn, rfl⟩

end Number

namespace Value

theorem normalize_normalFloat (x : Binary) : (normalFloat x).normalize = normalFloat x := by
  unfold normalFloat
  split
  · next n hn =>
    split
    · next hsmall =>
      have hle : n ≤ 9223372036854775807 := by
        have hwidth : Nat.pow 2 53 = 9007199254740992 := rfl
        omega
      rw [normalize, normalInt, if_pos hle]
    · next hlarge => rw [normalize, normalFloat, hn]; exact if_neg hlarge
  · next hn => rw [normalize, normalFloat, hn]

theorem isInt64_of_readInt64 {cs : List Char} {n : Int} (h : Number.readInt64? cs = some n) :
    Number.isInt64 n = true := by
  rw [Number.readInt64?, Option.filter_eq_some_iff] at h
  exact h.2

theorem normalize_normalNumber (s : String) : (normalNumber s).normalize = normalNumber s := by
  unfold normalNumber
  split
  · next n hn => exact normalize_int (isInt64_of_readInt64 hn) .int64
  · split
    · next x _ => exact normalize_normalFloat x
    · rfl

theorem mem_insert {es : List (Value × Value)} {e x : Value × Value}
    (h : x ∈ mapOf.insert es e) : x = e ∨ x ∈ es := by
  induction es with
  | nil => exact .inl (List.mem_singleton.mp h)
  | cons y es ih =>
    unfold mapOf.insert at h
    split at h
    · exact List.mem_cons.mp h
    · split at h
      · rcases List.mem_cons.mp h with rfl | hx
        · exact .inr List.mem_cons_self
        · exact (ih hx).imp_right (List.mem_cons_of_mem y)
      · exact (List.mem_cons.mp h).imp_right (List.mem_cons_of_mem y)

theorem mem_foldl_insert {es acc : List (Value × Value)} {x : Value × Value}
    (h : x ∈ es.foldl mapOf.insert acc) : x ∈ acc ∨ x ∈ es := by
  induction es generalizing acc with
  | nil => exact .inl h
  | cons e es ih =>
    rcases ih h with hacc | hes
    · rcases mem_insert hacc with rfl | hacc
      · exact .inr List.mem_cons_self
      · exact .inl hacc
    · exact .inr (List.mem_cons_of_mem e hes)

theorem ofJsonMembers_eq (ms : List (String × Json)) :
    ofJsonMembers ms = ms.map fun m => (.text m.1, ofJson m.2) := by
  induction ms with
  | nil => rfl
  | cons m ms ih => rw [ofJsonMembers, ih, List.map_cons]

theorem mem_entries_ofJson {ms : List (String × Json)} {e : Value × Value}
    (h : e ∈ (ofJsonMembers ms).foldl mapOf.insert []) :
    ∃ m ∈ ms, e = (.text m.1, ofJson m.2) := by
  have hmem := (mem_foldl_insert h).resolve_left List.not_mem_nil
  rw [ofJsonMembers_eq] at hmem
  obtain ⟨m, hm, rfl⟩ := List.mem_map.mp hmem
  exact ⟨m, hm, rfl⟩

mutual

theorem normalize_ofJson : (j : Json) → (ofJson j).normalize = ofJson j
  | .null => rfl
  | .bool _ => rfl
  | .number t => normalize_normalNumber t
  | .string _ => rfl
  | .octets _ => rfl
  | .array js => by
    change Value.items (normalizeAll (ofJsonItems js)) = .items (ofJsonItems js)
    rw [normalizeAll_eq, List.map_congr_left (normalize_ofJsonItems js), List.map_id']
  | .object ms => by
    change Value.map .text .any (normalizeEntries (List.foldl _ _ _)) = .map .text .any _
    rw [normalizeEntries_eq fun e he => by
      obtain ⟨m, -, rfl⟩ := mem_entries_ofJson he
      exact ⟨m.1, rfl⟩]
    refine congrArg (Value.map .text .any) ?_
    refine (List.map_congr_left fun e he => ?_).trans (List.map_id' _)
    have hmem := (mem_foldl_insert he).resolve_left List.not_mem_nil
    rw [normalize_ofJsonMembers ms e hmem]

theorem normalize_ofJsonItems : (js : List Json) → ∀ v ∈ ofJsonItems js, v.normalize = v
  | [] => fun _ hv => absurd hv List.not_mem_nil
  | j :: js => List.forall_mem_cons.mpr ⟨normalize_ofJson j, normalize_ofJsonItems js⟩

theorem normalize_ofJsonMembers :
    (ms : List (String × Json)) → ∀ e ∈ ofJsonMembers ms, e.2.normalize = e.2
  | [] => fun _ he => absurd he List.not_mem_nil
  | (_, j) :: ms => List.forall_mem_cons.mpr ⟨normalize_ofJson j, normalize_ofJsonMembers ms⟩

end

-- What reading a document can give: integers of 64 bits, finite doubles, and lists of such values
-- and maps from texts to them.
inductive IsRead : Value → Prop
  | null : IsRead .null
  | bool (b : Bool) : IsRead (.bool b)
  | text (s : String) : IsRead (.text s)
  | int {n : Int} (hn : Number.isInt64 n = true) : IsRead (.int64 n)
  | float {negative : Bool} {m : Nat} {e : Int} (hm : FloatFormat.double.Holds m e) :
    IsRead (.float64 (.finite negative m e))
  | items {vs : List Value} (hvs : ∀ v ∈ vs, IsRead v) : IsRead (.items vs)
  | map {es : List (Value × Value)} (htexts : ∀ e ∈ es, ∃ s, e.1 = .text s)
    (hes : ∀ e ∈ es, IsRead e.2) : IsRead (.map .text .any es)

section Reading

theorem isRead_normalFloat {negative : Bool} {m : Nat} {e : Int}
    (hm : FloatFormat.double.Holds m e) : IsRead (normalFloat (.finite negative m e)) := by
  unfold normalFloat
  split
  · next n _ =>
    split
    · refine .int ?_
      have hwidth : Nat.pow 2 53 = 9007199254740992 := rfl
      simp only [Number.isInt64, Bool.and_eq_true, decide_eq_true_eq]
      omega
    · exact .float hm
  · exact .float hm

theorem isRead_normalNumber {t : String} (ht : Json.IsNumeric t) : IsRead (normalNumber t) := by
  unfold normalNumber
  split
  · next n hn => exact .int (isInt64_of_readInt64 hn)
  · split
    · next x hx =>
      obtain ⟨negative, m, e, hm, rfl⟩ := Number.readBinary?_of_isNumeric ht hx
      exact isRead_normalFloat hm
    · exact .text t

theorem ofJsonItems_eq (js : List Json) : ofJsonItems js = js.map ofJson := by
  induction js with
  | nil => rfl
  | cons j js ih => rw [ofJsonItems, ih, List.map_cons]

theorem isRead_ofJson (j : Json) (hj : j.HasNumeric) : IsRead (ofJson j) := by
  induction j using Json.ofParts with
  | step j ih =>
    have hparts : ∀ x ∈ j.parts, IsRead (ofJson x) :=
      fun x hx => ih x hx fun t ht => hj t (Json.mem_numbers_of_part hx ht)
    cases j with
    | null => exact .null
    | bool b => exact .bool b
    | number t => exact isRead_normalNumber (hj t List.mem_cons_self)
    | string s => exact .text s
    | octets bs => exact .text _
    | array js =>
      refine .items ?_
      rw [ofJsonItems_eq]
      exact List.forall_mem_map.mpr hparts
    | object ms =>
      refine .map (fun e he => ?_) fun e he => ?_
      · obtain ⟨m, -, rfl⟩ := mem_entries_ofJson he
        exact ⟨m.1, rfl⟩
      · obtain ⟨m, hm, rfl⟩ := mem_entries_ofJson he
        exact hparts m.2 (List.mem_map_of_mem hm)

end Reading

-- What is read from the document of a value.
def reread (v : Value) : Value :=
  match v.toJson with
  | .ok j => ofJson j
  | .error _ => v

section Writing

theorem hasDocument_reread {v : Value} {j : Json} (hj : v.toJson = .ok j)
    (hnumbers : ∀ t ∈ j.numbers, Json.IsNumber t) (hnull : j.isNull = v.isNull) :
    HasDocument reread v :=
  ⟨j, hj, hnumbers, by rw [reread, hj], hnull⟩

theorem isNumber_numeral (negative : Bool) (m : Nat) (e : Int) :
    Json.IsNumber (String.ofList
      (((Binary.finite negative m e).numeral .double).signed negative)) := by
  rw [Json.IsNumber, String.toList_ofList]
  exact Number.Numeral.readNumber_signed (Binary.numeral_isProper _ _) negative

theorem numbers_sorted {ms : List (String × Json)} {t : String}
    (ht : t ∈ (Json.object (Json.sorted ms)).numbers) : t ∈ Json.memberNumbers ms := by
  rw [Json.numbers, Json.memberNumbers_eq] at ht
  rw [Json.memberNumbers_eq]
  exact ((List.mergeSort_perm ms _).flatMap_right _).mem_iff.mp ht

theorem hasDocument_of_isRead {v : Value} (hv : IsRead v) : HasDocument reread v := by
  induction hv with
  | null | bool b | text s => exact hasDocument_reread (by rw [toJson]) (by simp [Json.numbers]) rfl
  | @int n hn =>
    obtain ⟨j, hj, hnumbers, -, hnull⟩ := hasDocument_int hn .int64
    exact hasDocument_reread hj hnumbers hnull
  | @float negative m e hm =>
    refine hasDocument_reread (by rw [toJson, Binary.floatJson_finite]) ?_ rfl
    intro t ht
    rw [List.mem_singleton.mp ht]
    exact isNumber_numeral negative m e
  | items _ ih =>
    obtain ⟨js, hjs, hnumbers, -⟩ := jsonItems_of_documents ih
    refine hasDocument_reread (j := .array js) ?_ hnumbers rfl
    rw [toJson, hjs]
    · rfl
    · simp
  | map htexts _ ih =>
    obtain ⟨ms, hms, hnumbers, -, -⟩ := jsonEntries_of_documents ih htexts
    refine hasDocument_reread (j := .object (Json.sorted ms)) ?_
      (fun t ht => hnumbers t (numbers_sorted ht)) rfl
    rw [toJson, hms]
    rfl

theorem isPrimitive_normalFloat (x : Binary) : (normalFloat x).isPrimitive = true := by
  unfold normalFloat
  repeat' split
  all_goals rfl

theorem isPrimitive_reread {v : Value} (hv : IsRead v) (h : v.isPrimitive = true) :
    v.reread.isPrimitive = true := by
  cases hv with
  | bool b =>
    rw [reread, toJson]
    rfl
  | int hn =>
    rw [reread, toJson]
    change (normalNumber (toString _)).isPrimitive = true
    rw [normalNumber, Number.readInt64?_toString hn]
    rfl
  | float hm =>
    rw [reread, toJson, Binary.floatJson_finite]
    change (normalNumber (String.ofList _)).isPrimitive = true
    rw [normalNumber, String.toList_ofList, floatFormat, Binary.readBinary?_numeral hm]
    split
    · rfl
    · exact isPrimitive_normalFloat _
  | null | text | items | map => cases h

end Writing

end Value
end QueryTree
