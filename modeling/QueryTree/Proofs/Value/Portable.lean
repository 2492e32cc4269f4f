import QueryTree.Codec.Decode
import QueryTree.Value.Json
import QueryTree.Proofs.Json.RoundTrip

namespace QueryTree.Value

open Number (isInt64)

variable {es : List (Value × Value)}

def isInteger : Value → Bool
  | .int _ n => isInt64 n
  | _ => false

-- A number kept as text that is an integer.
def isNumeral (s : String) : Bool := isJsonNumber s && (normalNumber s).isInteger

mutual

-- Values that a document can carry: null, booleans, texts, integers of 64 bits, of declared types
-- and as number texts too, and lists of such values and maps from texts to them. The keys of a map
-- ascend.
def isPortable : Value → Bool
  | .null | .bool _ | .text _ => true
  | .int _ n | .named _ (.int _ n) => isInt64 n
  | .named t (.text s) => t == numberType && isNumeral s
  | .list .any vs => arePortable vs
  | .map .text .any es => hasPortableEntries es
  | _ => false

def arePortable : List Value → Bool
  | [] => true
  | v :: vs => v.isPortable && arePortable vs

def hasPortableEntries : List (Value × Value) → Bool
  | [] => true
  | (.text s, v) :: es =>
    es.all (fun e => keyLess (.text s) e.1) && v.isPortable && hasPortableEntries es
  | _ => false

end

section Induction

variable {motive : Value → Prop}

structure PortableCases (motive : Value → Prop) : Prop where
  null : motive .null
  bool : ∀ b, motive (.bool b)
  text : ∀ s, motive (.text s)
  int : ∀ k n, isInt64 n = true → motive (.int k n)
  declared : ∀ t k n, isInt64 n = true → motive (.named t (.int k n))
  numeral : ∀ s, isNumeral s = true → motive (.named numberType (.text s))
  items : ∀ vs, (∀ v ∈ vs, motive v) → motive (.items vs)
  map : ∀ es, hasPortableEntries es = true → (∀ e ∈ es, motive e.2) → motive (.map .text .any es)

mutual

theorem ofPortable (hcases : PortableCases motive) : (v : Value) → v.isPortable = true → motive v
  | .null, _ => hcases.null
  | .bool b, _ => hcases.bool b
  | .text s, _ => hcases.text s
  | .int k n, h => hcases.int k n h
  | .named t (.int k n), h => hcases.declared t k n h
  | .named t (.text s), h => by
    rw [isPortable, Bool.and_eq_true, beq_iff_eq] at h
    exact h.1 ▸ hcases.numeral s h.2
  | .list .any vs, h => hcases.items vs (ofPortableAll hcases vs h)
  | .map .text .any es, h => hcases.map es h (ofPortableEntries hcases es h)

theorem ofPortableAll (hcases : PortableCases motive) :
    (vs : List Value) → arePortable vs = true → ∀ v ∈ vs, motive v
  | [], _ => by simp
  | v :: vs, h => by
    rw [arePortable, Bool.and_eq_true] at h
    exact List.forall_mem_cons.mpr ⟨ofPortable hcases v h.1, ofPortableAll hcases vs h.2⟩

theorem ofPortableEntries (hcases : PortableCases motive) :
    (es : List (Value × Value)) → hasPortableEntries es = true → ∀ e ∈ es, motive e.2
  | [], _ => by simp
  | (.text s, v) :: es, h => by
    rw [hasPortableEntries, Bool.and_eq_true, Bool.and_eq_true] at h
    exact List.forall_mem_cons.mpr ⟨ofPortable hcases v h.1.2, ofPortableEntries hcases es h.2⟩

end

end Induction

theorem isNull_iff (v : Value) : v.isNull = true ↔ v = .null := by
  cases v <;> simp [isNull]

theorem keyLess_asymm {a b : Value} (h : keyLess a b = true) : keyLess b a = false := by
  unfold keyLess at h ⊢
  generalize a.under = x at h ⊢
  generalize b.under = y at h ⊢
  split at h
  · simp_all
  · simp only [decide_eq_true_eq, decide_eq_false_iff_not] at h ⊢
    omega
  · simp only [decide_eq_true_eq, decide_eq_false_iff_not] at h ⊢
    exact String.lt_asymm h
  · next hbools hints htexts =>
    split
    · exact absurd rfl (hbools _ _ rfl)
    · exact absurd rfl (hints _ _ _ _ rfl)
    · exact absurd rfl (htexts _ _ rfl)
    · simp only [decide_eq_true_eq, decide_eq_false_iff_not] at h ⊢
      exact List.lt_asymm h

abbrev Ascending (es : List (Value × Value)) : Prop := es.Pairwise fun a b => keyLess a.1 b.1 = true

theorem ascending_of_portable (h : hasPortableEntries es = true) :
    Ascending es ∧ ∀ e ∈ es, ∃ s, e.1 = .text s := by
  induction es with
  | nil => simp
  | cons e es ih =>
    obtain ⟨k, v⟩ := e
    cases k with
    | text s =>
      rw [hasPortableEntries, Bool.and_eq_true, Bool.and_eq_true] at h
      obtain ⟨hes, htexts⟩ := ih h.2
      exact ⟨List.pairwise_cons.mpr ⟨List.all_eq_true.mp h.1.1, hes⟩,
        List.forall_mem_cons.mpr ⟨⟨s, rfl⟩, htexts⟩⟩
    | _ => cases h

theorem insert_last {e : Value × Value} (h : ∀ x ∈ es, keyLess x.1 e.1 = true) :
    mapOf.insert es e = es ++ [e] := by
  induction es with
  | nil => rfl
  | cons x es ih =>
    obtain ⟨hx, hes⟩ := List.forall_mem_cons.mp h
    rw [mapOf.insert, if_neg (by simp [keyLess_asymm hx]), if_pos hx, ih hes, List.cons_append]

theorem foldl_insert {acc : List (Value × Value)} (h : Ascending (acc ++ es)) :
    es.foldl mapOf.insert acc = acc ++ es := by
  induction es generalizing acc with
  | nil => simp
  | cons e es ih =>
    have hacc : ∀ x ∈ acc, keyLess x.1 e.1 = true := by
      intro x hx
      exact (List.pairwise_append.mp h).2.2 x hx e List.mem_cons_self
    rw [← List.singleton_append, ← List.append_assoc] at h
    rw [List.foldl_cons, insert_last hacc, ih h, List.append_assoc, List.singleton_append]

theorem mapOf_of_ascending {key elem : Ty} (h : Ascending es) :
    mapOf key elem es = .map key elem es := by
  rw [mapOf, foldl_insert (by simpa using h), List.nil_append]

theorem normalize_int {n : Int} (hn : isInt64 n = true) (k : IntKind) :
    (Value.int k n).normalize = .int64 n := by
  have hle : n ≤ 9223372036854775807 := by
    simp only [isInt64, Bool.and_eq_true, decide_eq_true_eq] at hn
    exact hn.2
  rw [normalize, normalInt, if_pos hle]

theorem normalize_declared {n : Int} (hn : isInt64 n = true) (t : String) (k : IntKind) :
    (Value.named t (.int k n)).normalize = .int64 n := normalize_int hn k

theorem normalizeAll_eq (vs : List Value) : normalizeAll vs = vs.map normalize := by
  induction vs with
  | nil => rfl
  | cons v vs ih => rw [normalizeAll, ih, List.map_cons]

theorem normalizeEntries_eq (htexts : ∀ e ∈ es, ∃ s, e.1 = .text s) :
    normalizeEntries es = es.map fun e => (e.1, e.2.normalize) := by
  induction es with
  | nil => rfl
  | cons e es ih =>
    obtain ⟨⟨s, hs⟩, hrest⟩ := List.forall_mem_cons.mp htexts
    obtain ⟨k, v⟩ := e
    cases hs
    rw [normalizeEntries, ih hrest, List.map_cons]
    rfl

section Documents

variable {σ : Value → Value}

-- A value has a document, from which what `σ` makes of the value is read.
def HasDocument (σ : Value → Value) (v : Value) : Prop :=
  ∃ j, v.toJson = .ok j ∧ (∀ t ∈ j.numbers, Json.IsNumber t) ∧ ofJson j = σ v ∧
    j.isNull = v.isNull

theorem isNull_ofJson (j : Json) : (ofJson j).isNull = j.isNull := by
  cases j with
  | number t =>
    change (normalNumber t).isNull = false
    unfold normalNumber normalFloat
    repeat' split
    all_goals rfl
  | _ => rfl

theorem HasDocument.isNull {v : Value} (h : HasDocument σ v) :
    (σ v).isNull = v.isNull := by
  obtain ⟨j, -, -, hvalue, hnull⟩ := h
  rw [← hvalue, isNull_ofJson, hnull]

theorem hasDocument_int {n : Int} (hn : isInt64 n = true) (k : IntKind) :
    HasDocument normalize (.int k n) := by
  refine ⟨.ofInt n, by rw [toJson], ?_, ?_, rfl⟩
  · intro t ht
    rw [List.mem_singleton.mp ht]
    exact Json.readNumber_toString n
  · change normalNumber (toString n) = _
    rw [normalNumber, Number.readInt64?_toString hn, normalize_int hn]

theorem isNumber_of_isJsonNumber {s : String} (hs : isJsonNumber s = true) : Json.IsNumber s := by
  unfold isJsonNumber at hs
  split at hs
  · next t hread =>
    have htaken := Json.readNumber_append hread
    rw [List.append_nil] at htaken
    rw [Json.IsNumber, hread, String.ext htaken]
  · cases hs

theorem hasDocument_numeral {s : String} (hs : isNumeral s = true) :
    HasDocument normalize (.named numberType (.text s)) := by
  rw [isNumeral, Bool.and_eq_true] at hs
  have hne : s.isEmpty = false := by
    cases hempty : s.isEmpty with
    | false => rfl
    | true =>
      rw [String.isEmpty_iff.mp hempty] at hs
      cases hs.1
  refine ⟨.number s, ?_, ?_, rfl, rfl⟩
  · rw [toJson, namedJson, numberType, if_pos (beq_self_eq_true _), numberJson, hne, hs.1]
    rfl
  · intro t ht
    rw [List.mem_singleton.mp ht]
    exact isNumber_of_isJsonNumber hs.1

theorem jsonItems_of_documents {vs : List Value} (h : ∀ v ∈ vs, HasDocument σ v) :
    ∃ js, jsonItems vs = .ok js ∧ (∀ t ∈ Json.itemNumbers js, Json.IsNumber t) ∧
      ofJsonItems js = vs.map σ := by
  induction vs with
  | nil => exact ⟨[], by rw [jsonItems], by simp [Json.itemNumbers], rfl⟩
  | cons v vs ih =>
    obtain ⟨⟨j, hj, hnumbers, hvalue, -⟩, hvs⟩ := List.forall_mem_cons.mp h
    obtain ⟨js, hjs, hrest, hvalues⟩ := ih hvs
    refine ⟨j :: js, by rw [jsonItems, hj, hjs]; rfl, ?_, ?_⟩
    · rw [Json.itemNumbers]
      exact List.forall_mem_append.mpr ⟨hnumbers, hrest⟩
    · rw [ofJsonItems, List.map_cons, hvalue, hvalues]

theorem jsonEntries_of_documents (h : ∀ e ∈ es, HasDocument σ e.2)
    (htexts : ∀ e ∈ es, ∃ s, e.1 = .text s) :
    ∃ ms, jsonEntries es = .ok ms ∧ (∀ t ∈ Json.memberNumbers ms, Json.IsNumber t) ∧
      (ofJsonMembers ms = es.map fun e => (e.1, σ e.2)) ∧
        ms.map (Value.text ·.1) = es.map (·.1) := by
  induction es with
  | nil => exact ⟨[], by rw [jsonEntries], by simp [Json.memberNumbers], rfl, rfl⟩
  | cons e es ih =>
    obtain ⟨k, v⟩ := e
    obtain ⟨⟨j, hj, hnumbers, hvalue, -⟩, hes⟩ := List.forall_mem_cons.mp h
    obtain ⟨⟨s, hs⟩, hrest⟩ := List.forall_mem_cons.mp htexts
    obtain ⟨ms, hms, hmore, hvalues, hkeys⟩ := ih hes hrest
    cases hs
    refine ⟨(s, j) :: ms, by rw [jsonEntries, hj, hms]; rfl, ?_, ?_, ?_⟩
    · rw [Json.memberNumbers]
      exact List.forall_mem_append.mpr ⟨hnumbers, hmore⟩
    · rw [ofJsonMembers, List.map_cons, hvalue, hvalues]
    · rw [List.map_cons, List.map_cons, hkeys]

end Documents

theorem sorted_of_ascending {ms : List (String × Json)}
    (h : ms.Pairwise fun a b => a.1 < b.1) : Json.sorted ms = ms := by
  refine List.mergeSort_of_pairwise (h.imp ?_)
  intro a b hab
  simpa using String.lt_asymm hab

theorem ascending_members {ms : List (String × Json)}
    (hkeys : ms.map (Value.text ·.1) = es.map (·.1)) (hes : Ascending es) :
    ms.Pairwise fun a b => a.1 < b.1 := by
  have hpairs : (ms.map (Value.text ·.1)).Pairwise fun a b => keyLess a b = true := by
    rw [hkeys]
    exact List.pairwise_map.mpr hes
  exact (List.pairwise_map.mp hpairs).imp fun h => by simpa [keyLess, under] using h

theorem ascending_normalizeEntries (htexts : ∀ e ∈ es, ∃ s, e.1 = .text s) (hes : Ascending es) :
    Ascending (normalizeEntries es) := by
  rw [normalizeEntries_eq htexts]
  exact List.pairwise_map.mpr hes

theorem hasDocument_of_portable {v : Value} (hv : v.isPortable = true) :
    HasDocument normalize v := by
  refine ofPortable ?_ v hv
  exact
    { null := ⟨.null, by rw [toJson], by simp [Json.numbers], rfl, rfl⟩
      bool := fun b => ⟨.bool b, by rw [toJson], by simp [Json.numbers], rfl, rfl⟩
      text := fun s => ⟨.string s, by rw [toJson], by simp [Json.numbers], rfl, rfl⟩
      int := fun k n hn => hasDocument_int hn k
      declared := fun t k n hn => by
        obtain ⟨j, hj, hdocument⟩ := hasDocument_int hn k
        rw [toJson] at hj
        exact ⟨j, by rw [toJson, namedJson, hj], hdocument⟩
      numeral := fun s hs => hasDocument_numeral hs
      items := by
        intro vs hvs
        obtain ⟨js, hjs, hnumbers, hvalues⟩ := jsonItems_of_documents hvs
        refine ⟨.array js, ?_, hnumbers, ?_, rfl⟩
        · rw [toJson, hjs]
          · rfl
          · simp
        · rw [ofJson, hvalues, ← normalizeAll_eq]
          rfl
      map := by
        intro es hportable hes
        obtain ⟨hascending, htexts⟩ := ascending_of_portable hportable
        obtain ⟨ms, hms, hnumbers, hvalues, hkeys⟩ := jsonEntries_of_documents hes htexts
        refine ⟨.object ms, ?_, hnumbers, ?_, rfl⟩
        · rw [toJson, hms]
          change Except.ok (Json.object (Json.sorted ms)) = _
          rw [sorted_of_ascending (ascending_members hkeys hascending)]
        · rw [ofJson, hvalues, ← normalizeEntries_eq htexts,
            mapOf_of_ascending (ascending_normalizeEntries htexts hascending)]
          rfl }

theorem isPrimitive_normalize {v : Value} (hv : v.isPortable = true) (h : v.isPrimitive = true) :
    v.normalize.isPrimitive = true := by
  revert h
  refine ofPortable (motive := fun v => v.isPrimitive = true → v.normalize.isPrimitive = true) ?_ v hv
  exact
    { null := id
      bool := fun _ => id
      text := fun _ => id
      int := fun k n hn _ => by
        rw [normalize_int hn]
        rfl
      declared := fun t k n hn _ => by
        rw [normalize_declared hn]
        rfl
      numeral := fun _ _ h => absurd h (by simp [isPrimitive, under])
      items := fun _ _ => id
      map := fun _ _ _ => id }

end QueryTree.Value
