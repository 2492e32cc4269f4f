import QueryTree.Codec.Decode
import QueryTree.Codec.Encode
import QueryTree.Proofs.Expr.Normal

namespace QueryTree.Codec

open Json (IsNumber numbers itemNumbers memberNumbers)

section Writing

-- A draft becomes a document all of whose numbers can be read.
def Writes (d : Draft) (j : Json) : Prop :=
  d.finish = .ok j ∧ ∀ t ∈ j.numbers, IsNumber t

def WritesAll (ds : List Draft) (js : List Json) : Prop :=
  finishAll ds = .ok js ∧ ∀ t ∈ itemNumbers js, IsNumber t

def WritesMembers (ds : List (String × Draft)) (ms : Members) : Prop :=
  finishMembers ds = .ok ms ∧ ∀ t ∈ memberNumbers ms, IsNumber t

theorem writes_text (s : String) : Writes (.text s) (.string s) :=
  ⟨rfl, by simp [numbers]⟩

theorem writes_bool (b : Bool) : Writes (.json (.bool b)) (.bool b) :=
  ⟨rfl, by simp [numbers]⟩

theorem writes_int (n : Int) : Writes (.int n) (.ofInt n) := by
  refine ⟨rfl, fun t ht => ?_⟩
  rw [List.mem_singleton.mp ht]
  exact Json.readNumber_toString n

theorem writesAll_nil : WritesAll [] [] := ⟨rfl, by simp [itemNumbers]⟩

theorem WritesAll.cons {d : Draft} {j : Json} {ds : List Draft} {js : List Json} (hd : Writes d j)
    (hds : WritesAll ds js) : WritesAll (d :: ds) (j :: js) := by
  refine ⟨?_, ?_⟩
  · rw [finishAll, hd.1, hds.1]
    rfl
  · rw [itemNumbers]
    exact List.forall_mem_append.mpr ⟨hd.2, hds.2⟩

theorem WritesAll.array {ds : List Draft} {js : List Json} (h : WritesAll ds js) :
    Writes (.array ds) (.array js) := by
  refine ⟨?_, h.2⟩
  rw [Draft.finish, h.1]
  rfl

theorem writesMembers_nil : WritesMembers [] [] := ⟨rfl, by simp [memberNumbers]⟩

theorem WritesMembers.cons {d : Draft} {j : Json} {ds : List (String × Draft)} {ms : Members}
    (hds : WritesMembers ds ms) (name : String) (hd : Writes d j) :
    WritesMembers ((name, d) :: ds) ((name, j) :: ms) := by
  refine ⟨?_, ?_⟩
  · rw [finishMembers, hd.1, hds.1]
    rfl
  · rw [memberNumbers]
    exact List.forall_mem_append.mpr ⟨hd.2, hds.2⟩

theorem WritesMembers.object {ds : List (String × Draft)} {ms : Members} (h : WritesMembers ds ms) :
    Writes (.object ds) (.object ms) := by
  refine ⟨?_, h.2⟩
  rw [Draft.finish, h.1]
  rfl

theorem WritesMembers.node {ds : List (String × Draft)} {ms : Members} (h : WritesMembers ds ms)
    (tag : String) : Writes (.node tag ds) (.object (("$", .string tag) :: ms)) :=
  (h.cons "$" (writes_text tag)).object

theorem WritesMembers.append {ds es : List (String × Draft)} {ms ns : Members}
    (hds : WritesMembers ds ms) (hes : WritesMembers es ns) :
    WritesMembers (ds ++ es) (ms ++ ns) := by
  induction ds generalizing ms with
  | nil =>
    obtain rfl : [] = ms := Except.ok.inj hds.1
    exact hes
  | cons d ds ih =>
    obtain ⟨name, d⟩ := d
    obtain ⟨j, hj, hrest⟩ := Json.bind_eq_ok hds.1
    obtain ⟨ks, hks, hms⟩ := Json.bind_eq_ok hrest
    cases hms
    have hnumbers := hds.2
    rw [memberNumbers, List.forall_mem_append] at hnumbers
    exact (ih ⟨hks, hnumbers.2⟩).cons name ⟨hj, hnumbers.1⟩

end Writing

section Reading

variable {path key tag : String} {ms : Members} {j : Json}

theorem decodeAt_node (hms : Json.last? ms "$" = none) :
    decodeAt path (.object (("$", .string tag) :: ms)) =
      decodeNode path (("$", .string tag) :: ms) tag := by
  rw [decodeAt]
  simp [Json.last?, hms]

theorem decodeMember_eq (h : Json.last? ms key = some j) :
    decodeMember path ms key = decodeAt (child path key) j := by
  rw [decodeMember]
  split
  · next hnone =>
    rw [h] at hnone
    cases hnone
  · next v hv =>
    rw [h] at hv
    cases hv
    rfl

theorem decodeOption_none (h : Json.last? ms key = none) :
    decodeOption path ms key = .ok none := by
  rw [decodeOption]
  split
  · rfl
  · rfl
  · next v _ hv =>
    rw [h] at hv
    cases hv

theorem decodeOption_null (h : Json.last? ms key = some .null) :
    decodeOption path ms key = .ok none := by
  rw [decodeOption]
  split
  · rfl
  · rfl
  · next v hv hlast =>
    rw [h] at hlast
    cases hlast
    exact absurd rfl hv

theorem decodeOption_some (h : Json.last? ms key = some j) (hj : j.isNull = false) :
    decodeOption path ms key = (decodeAt (child path key) j).map some := by
  rw [decodeOption]
  split
  · next hnone =>
    rw [h] at hnone
    cases hnone
  · next hnull =>
    rw [h] at hnull
    cases hnull
    cases hj
  · next v _ hv =>
    rw [h] at hv
    cases hv
    rfl

theorem items_eq {js : List Json} (h : Json.last? ms key = some (.array js)) :
    items path ms key = .ok js := by
  unfold items
  rw [h]

theorem decodeList_eq {js : List Json} (h : Json.last? ms key = some (.array js)) :
    decodeList path ms key = decodeItems (child path key) 0 js := by
  rw [decodeList]
  split
  · next hitems =>
    rw [items_eq h] at hitems
    cases hitems
  · next hitems =>
    rw [items_eq h] at hitems
    cases hitems
    rfl

theorem present?_eq (h : Json.last? ms key = some j) (hj : j.isNull = false) :
    present? ms key = some j := by
  unfold present?
  rw [h]
  cases j with
  | null => cases hj
  | _ => rfl

theorem requiredText_eq (s : String) (h : Json.last? ms key = some (.string s)) :
    requiredText path ms key = .ok s := by
  rw [requiredText, present?_eq h rfl]

theorem decodeStage_order {q : Query} {js : List Json} (hq : q.isPlain = true)
    (h : Json.last? ms "keys" = some (.array js)) :
    decodeStage path ms "orderby" q =
      (decodeKeys (child path "keys") 0 js).map fun keys => .query (.order q keys) := by
  rw [decodeStage, if_pos hq]
  split
  · next hitems =>
    rw [items_eq h] at hitems
    cases hitems
  · next hitems =>
    rw [items_eq h] at hitems
    cases hitems
    cases decodeKeys (child path "keys") 0 js <;> rfl

theorem decodeStage_select {q : Query} {js : List Json} (hq : q.isProjectable = true)
    (h : Json.last? ms "columns" = some (.array js)) :
    decodeStage path ms "select" q =
      (decodeColumns (child path "columns") 0 js).map fun cs => .query (.select q cs) := by
  rw [decodeStage]
  · rw [if_pos hq]
    split
    · next hitems =>
      rw [items_eq h] at hitems
      cases hitems
    · next hitems =>
      rw [items_eq h] at hitems
      cases hitems
      cases decodeColumns (child path "columns") 0 js <;> rfl
  all_goals decide

end Reading

-- Members that are there only when there is something to say.
section Optional

variable {path name : String} {ms : Members}

def optional (name : String) : Option Json → Members
  | none => []
  | some j => [(name, j)]

@[simp]
theorem last?_nil (name : String) : Json.last? [] name = none := rfl

@[simp]
theorem last?_cons (m : String × Json) (ms : Members) (name : String) :
    Json.last? (m :: ms) name =
      (Json.last? ms name).or (if m.1 == name then some m.2 else none) := by
  rw [Json.last?]
  cases Json.last? ms name <;> rfl

@[simp]
theorem last?_append (ms ns : Members) (name : String) :
    Json.last? (ms ++ ns) name = (Json.last? ns name).or (Json.last? ms name) := by
  induction ms with
  | nil => simp
  | cons m ms ih => rw [List.cons_append, last?_cons, ih, last?_cons, Option.or_assoc]

@[simp]
theorem last?_optional (name : String) (o : Option Json) :
    Json.last? (optional name o) name = o := by
  cases o <;> simp [optional]

@[simp]
theorem last?_optional_of_ne {other : String} (h : other ≠ name) (o : Option Json) :
    Json.last? (optional other o) name = none := by
  cases o <;> simp [optional, h]

def labelJson (label : String) : Option Json :=
  if label.isEmpty then none else some (.string label)

theorem writesMembers_label (name label : String) :
    WritesMembers (if label.isEmpty then [] else [(name, .text label)])
      (optional name (labelJson label)) := by
  unfold labelJson
  split
  · exact writesMembers_nil
  · exact writesMembers_nil.cons name (writes_text label)

theorem optionalText_eq (label : String) (h : Json.last? ms name = labelJson label) :
    optionalText path ms name = .ok label := by
  unfold labelJson at h
  split at h
  · next hempty => rw [optionalText, present?, h, String.isEmpty_iff.mp hempty]
  · rw [optionalText, present?, h]

def flagJson (b : Bool) : Option Json := if b then some (.bool true) else none

theorem writesMembers_flag (name : String) (b : Bool) :
    WritesMembers (if b then [(name, .json (.bool true))] else [])
      (optional name (flagJson b)) := by
  cases b with
  | true => exact writesMembers_nil.cons name (writes_bool true)
  | false => exact writesMembers_nil

theorem flag_eq (b : Bool) (h : Json.last? ms name = flagJson b) : flag path ms name = .ok b := by
  rw [flag, present?, h]
  cases b <;> rfl

def limitJson (n : Int) : Option Json := if n == noLimit then none else some (.ofInt n)

theorem writesMembers_limit (name : String) (n : Int) :
    WritesMembers (if n == noLimit then [] else [(name, .int n)])
      (optional name (limitJson n)) := by
  unfold limitJson
  split
  · exact writesMembers_nil
  · exact writesMembers_nil.cons name (writes_int n)

theorem number_ofInt {n : Int} (hn : Number.isInt64 n = true) (default : Int)
    (h : Json.last? ms name = some (.ofInt n)) : number path ms name default = .ok n := by
  rw [number, present?_eq h rfl, Json.ofInt]
  dsimp only
  rw [Number.readInt64?_toString hn]

theorem number_limit {n : Int} (hn : Number.isInt64 n = true)
    (h : Json.last? ms name = limitJson n) : number path ms name noLimit = .ok n := by
  unfold limitJson at h
  split at h
  · next hnone => rw [number, present?, h, eq_of_beq hnone]
  · exact number_ofInt hn noLimit h

def textsJson (ss : List String) : Option Json :=
  if ss.isEmpty then none else some (.array (ss.map .string))

theorem writesAll_texts (ss : List String) : WritesAll (ss.map .text) (ss.map .string) := by
  induction ss with
  | nil => exact writesAll_nil
  | cons s ss ih => exact ih.cons (writes_text s)

theorem writesMembers_texts (name : String) (ss : List String) :
    WritesMembers (if ss.isEmpty then [] else [(name, .array (ss.map .text))])
      (optional name (textsJson ss)) := by
  unfold textsJson
  split
  · exact writesMembers_nil
  · exact writesMembers_nil.cons name (writesAll_texts ss).array

theorem items_texts (ss : List String) (h : Json.last? ms name = textsJson ss) :
    items path ms name = .ok (ss.map .string) := by
  unfold textsJson at h
  split at h
  · next hempty => rw [items, h, List.isEmpty_iff.mp hempty, List.map_nil]
  · rw [items, h]

theorem texts_map_string (path : String) (i : Nat) (ss : List String) :
    texts path i (ss.map .string) = .ok ss := by
  induction ss generalizing i with
  | nil => rfl
  | cons s ss ih =>
    rw [List.map_cons, texts, ih]
    rfl

end Optional

end QueryTree.Codec
