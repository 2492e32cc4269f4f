import Mathlib.Data.List.TakeWhile
import QueryTree.Proofs.Schema.Checked
import QueryTree.Schema.RowType

namespace QueryTree

namespace RowType

variable {used : List String} {name : String}

section Names

def isNamePart (c : Char) : Bool := isNameStart c || Text.isDigit c

-- Capitals are there for the letters of ASCII only, apart from the words that are all capitals.
def isCapitalisable (word : List Char) : Bool :=
  initialisms.contains (String.ofList (word.map Text.toUpper)) || word.head?.any (·.toNat < 128)

def isSpelled (column : String) : Bool := (words column).all isCapitalisable

theorem isNamePart_of_isWordPart {c : Char} (h : isWordPart c = true) : isNamePart c = true := by
  simp only [isWordPart, Bool.or_eq_true] at h
  simp only [isNamePart, isNameStart, Bool.or_eq_true]
  exact h.imp_left .inr

-- The character for a letter without a capital is in no table.
theorem isNamePart_replacement : isNamePart Text.replacement = false := by
  have hletter : Text.letterSet.contains Text.replacement.toNat = false := by
    rw [Text.CharSet.contains, ← Array.any_toList]
    decide +kernel
  have hdigit : Text.digitSet.contains Text.replacement.toNat = false := by
    rw [Text.CharSet.contains, ← Array.any_toList]
    decide +kernel
  have hcode : ¬Text.replacement.toNat < 128 := by decide
  have hline : (Text.replacement == '_') = false := by decide
  rw [isNamePart, isNameStart, hline, Text.isLetter, Text.isDigit, if_neg hcode, if_neg hcode,
    hletter, hdigit]
  rfl

-- A character that a word of a name may begin with.
def isInitial (c : Char) : Bool := isNamePart c && (!Text.isLetter c || Text.isUpper c)

theorem isNamePart_of_isInitial {c : Char} (h : isInitial c = true) : isNamePart c = true :=
  (Bool.and_eq_true_iff.mp h).1

theorem isInitial_toUpper {c : Char} (hc : c.toNat < 128) (hpart : isWordPart c = true) :
    isInitial c.toUpper = true := by
  have hall : ∀ n : Fin 128, isWordPart (Char.ofNat n) = true →
      isInitial (Char.ofNat n).toUpper = true := by decide +kernel
  simpa [Char.ofNat_toNat, hpart] using hall ⟨c.toNat, hc⟩

theorem isInitial_of_initialism {s : String} (hs : s ∈ initialisms) :
    ∀ c ∈ s.toList, isInitial c = true := by
  have hall : initialisms.all (·.toList.all isInitial) = true := by decide
  exact List.all_eq_true.mp (List.all_eq_true.mp hall s hs)

theorem mem_wordsFrom {word cs w : List Char} (hword : ∀ c ∈ word, isWordPart c = true)
    (hw : w ∈ wordsFrom word cs) : w ≠ [] ∧ ∀ c ∈ w, isWordPart c = true := by
  have hfinished {word : List Char} (hword : ∀ c ∈ word, isWordPart c = true)
      (hw : w ∈ finished word) : w ≠ [] ∧ ∀ c ∈ w, isWordPart c = true := by
    simp only [finished] at hw
    split at hw <;> simp_all
  induction cs generalizing word with
  | nil => exact hfinished hword hw
  | cons c cs ih =>
    simp only [wordsFrom] at hw
    split at hw
    next hc => exact ih (List.forall_mem_cons.mpr ⟨hc, hword⟩) hw
    next hc =>
      obtain hw | hw := List.mem_append.mp hw
      · exact hfinished hword hw
      · exact ih (by simp) hw

theorem capitalised_cons {w : List Char} (hne : w ≠ []) (hw : ∀ c ∈ w, isWordPart c = true) :
    ∃ c rest, capitalised w = c :: rest ∧ (∀ d ∈ rest, isNamePart d = true) ∧
      (isCapitalisable w = true ∧ isInitial c = true ∨
        isCapitalisable w = false ∧ c = Text.replacement) := by
  obtain ⟨c, rest, rfl⟩ := List.exists_cons_of_ne_nil hne
  by_cases hmem : String.ofList ((c :: rest).map Text.toUpper) ∈ initialisms
  · have hall := isInitial_of_initialism hmem
    rw [String.toList_ofList, List.map_cons, List.forall_mem_cons] at hall
    refine ⟨Text.toUpper c, rest.map Text.toUpper, by simp_all [capitalised],
      fun d hd => isNamePart_of_isInitial (hall.2 d hd), .inl ⟨?_, hall.1⟩⟩
    simp_all [isCapitalisable]
  · have hrest : ∀ d ∈ rest, isNamePart d = true :=
      fun d hd => isNamePart_of_isWordPart (hw d (List.mem_cons_of_mem c hd))
    by_cases hc : c.toNat < 128
    · refine ⟨c.toUpper, rest, by simp_all [capitalised], hrest, .inl ⟨?_, ?_⟩⟩
      · simp [isCapitalisable, hc]
      · exact isInitial_toUpper hc (hw c List.mem_cons_self)
    · have hcap : capitalised (c :: rest) = Text.replacement :: rest := by
        simp only [capitalised, List.contains_eq_mem, hmem, hc, decide_false, Bool.false_eq_true,
          if_false]
      exact ⟨Text.replacement, rest, hcap, hrest, .inr ⟨by simp_all [isCapitalisable], rfl⟩⟩

theorem all_capitalised {w : List Char} (hne : w ≠ []) (hw : ∀ c ∈ w, isWordPart c = true) :
    (capitalised w).all isNamePart = isCapitalisable w := by
  obtain ⟨c, rest, hcap, hrest, ⟨h, hc⟩ | ⟨h, rfl⟩⟩ := capitalised_cons hne hw
  · rw [hcap, List.all_cons, isNamePart_of_isInitial hc, List.all_eq_true.mpr hrest, h]
    rfl
  · rw [hcap, List.all_cons, isNamePart_replacement, h]
    rfl

theorem isMemberName_eq {s : String} {c : Char} {cs : List Char} (h : s.toList = c :: cs) :
    isMemberName s = (isNameStart c && cs.all isNamePart) := by
  simp only [isMemberName, h]
  rfl

theorem isMemberName_memberName (column : String) :
    isMemberName (memberName column) = isSpelled column := by
  have hall : ((words column).flatMap capitalised).all isNamePart = isSpelled column := by
    rw [List.all_flatMap, isSpelled, Bool.eq_iff_iff, List.all_eq_true, List.all_eq_true]
    refine forall₂_congr fun w hw => ?_
    obtain ⟨hne, hpart⟩ := mem_wordsFrom (by simp) hw
    rw [all_capitalised hne hpart]
  rw [← hall]
  simp only [memberName]
  cases (words column).flatMap capitalised with
  | nil => decide
  | cons c cs =>
    cases hletter : Text.isLetter c with
    | true =>
      have hstart : isNameStart c = true := by simp [isNameStart, hletter]
      simp only [List.head?_cons, Option.any_some, hletter, if_true]
      rw [isMemberName_eq String.toList_ofList, List.all_cons, isNamePart, hstart, Bool.true_or]
    | false =>
      have hstart : isNameStart 'X' = true := by decide
      simp only [List.head?_cons, Option.any_some, hletter, Bool.false_eq_true, if_false]
      rw [isMemberName_eq String.toList_ofList, hstart, Bool.true_and]

theorem isExported_memberName (column : String) :
    Types.isExported (memberName column) = true := by
  simp only [memberName, Types.isExported, String.toList_ofList]
  cases hwords : words column with
  | nil => decide
  | cons w ws =>
    obtain ⟨hne, hpart⟩ := mem_wordsFrom (by simp) (hwords ▸ List.mem_cons_self : w ∈ words column)
    obtain ⟨c, rest, hcap, -, h⟩ := capitalised_cons hne hpart
    simp only [List.flatMap_cons, hcap, List.cons_append, List.head?_cons, Option.any_some]
    split
    next hletter =>
      obtain ⟨-, hc⟩ | ⟨-, rfl⟩ := h
      · simpa [isInitial, hletter] using (Bool.and_eq_true_iff.mp hc).2
      · have hnone := isNamePart_replacement
        simp [isNamePart, isNameStart, hletter] at hnone
    next =>
      rw [List.head?_cons]
      decide

end Names

section Fresh

theorem freshName_step {P : String → Prop} (hstep : ∀ s, P s → P (s ++ "_")) {n : Nat}
    (h : P name) : P (freshName used n name) := by
  induction n generalizing name with
  | zero => exact h
  | succ n ih =>
    simp only [freshName]
    split
    · exact ih (hstep name h)
    · exact h

-- Once names have grown longer than another one, that one is of no matter to them.
theorem freshName_erase (used : List String) (n : Nat) {old : String}
    (h : old.length < name.length) : freshName (used.erase old) n name = freshName used n name := by
  induction n generalizing name with
  | zero => rfl
  | succ n ih =>
    have hne : name ≠ old := by
      rintro rfl
      exact Nat.lt_irrefl _ h
    have hgrown : old.length < (name ++ "_").length := by
      rw [String.length_append]
      omega
    simp only [freshName, List.contains_eq_mem, List.mem_erase_of_ne hne, ih hgrown]

-- As many underscores as there are names suffice: each one that is in use leaves one name less to
-- run into.
theorem freshName_notMem {n : Nat} (hn : used.length ≤ n) (name : String) :
    freshName used n name ∉ used := by
  induction n generalizing used name with
  | zero =>
    rw [List.length_eq_zero_iff.mp (Nat.le_zero.mp hn)]
    exact List.not_mem_nil
  | succ n ih =>
    by_cases hmem : name ∈ used
    · have hlength : (used.erase name).length ≤ n := by
        rw [List.length_erase_of_mem hmem]
        omega
      have hgrown : name.length < (name ++ "_").length := by
        rw [String.length_append]
        exact Nat.lt_add_one _
      have hlonger : name.length < (freshName used n (name ++ "_")).length :=
        freshName_step (P := fun s => name.length < s.length)
          (fun s hs => by rw [String.length_append]; omega) hgrown
      have hnew := ih hlength (name ++ "_")
      rw [freshName_erase used n hgrown] at hnew
      have hne : freshName used n (name ++ "_") ≠ name := by
        intro heq
        rw [heq] at hlonger
        exact Nat.lt_irrefl _ hlonger
      simpa [freshName, hmem, List.mem_erase_of_ne hne] using hnew
    · simp [freshName, hmem]

theorem areNew_columnMembers (used : List String) (cs : List ColumnDecl) :
    SchemaFile.AreNew used ((columnMembers used cs).map (·.name)) := by
  induction cs generalizing used with
  | nil => exact SchemaFile.areNew_nil used
  | cons c cs ih => exact .cons (freshName_notMem (Nat.le_refl _) _) (ih _)

theorem freshName_memberName (used : List String) (n : Nat) (column : String) :
    isMemberName (freshName used n (memberName column)) = isSpelled column ∧
      Types.isExported (freshName used n (memberName column)) = true := by
  refine freshName_step (P := fun s => isMemberName s = isSpelled column ∧
    Types.isExported s = true) (fun s hs => ?_)
    ⟨isMemberName_memberName column, isExported_memberName column⟩
  obtain ⟨c, cs, hlist⟩ : ∃ c cs, s.toList = c :: cs := by
    cases hlist : s.toList with
    | nil => simp [Types.isExported, hlist] at hs
    | cons c cs => exact ⟨c, cs, rfl⟩
  have hgrown : (s ++ "_").toList = c :: (cs ++ ['_']) := by simp [hlist]
  have hline : isNamePart '_' = true := by decide
  rw [isMemberName_eq hlist] at hs
  rw [isMemberName_eq hgrown, List.all_append, List.all_cons, hline]
  simpa [Types.isExported, hlist] using hs

theorem columnMembers_tags (used : List String) (cs : List ColumnDecl) :
    (columnMembers used cs).filterMap (·.tag) = cs.map (·.name) := by
  induction cs generalizing used with
  | nil => rfl
  | cons c cs ih => simp [columnMembers, ih]

theorem all_columnMembers (used : List String) (cs : List ColumnDecl) :
    (columnMembers used cs).all (isMemberName ·.name) = cs.all (isSpelled ·.name) ∧
      (columnMembers used cs).all (Types.isExported ·.name) = true := by
  induction cs generalizing used with
  | nil => exact ⟨rfl, rfl⟩
  | cons c cs ih =>
    simp only [columnMembers, List.all_cons, freshName_memberName, ih, Bool.and_self, and_self]

end Fresh

section Members

variable {fields : List (Field Ty)}

-- The relations that get a member: with a capital, and the first ones of their name.
def followed (used : List String) : List RelationDecl → List RelationDecl
  | [] => []
  | r :: rs =>
    if !Types.isExported r.name || used.contains r.name then followed used rs
    else r :: followed (r.name :: used) rs

theorem areNew_followed (used : List String) (rs : List RelationDecl) :
    SchemaFile.AreNew used ((followed used rs).map (·.name)) ∧
      ∀ r ∈ followed used rs, r ∈ rs ∧ Types.isExported r.name = true := by
  induction rs generalizing used with
  | nil => exact ⟨SchemaFile.areNew_nil used, by simp [followed]⟩
  | cons r rs ih =>
    simp only [followed]
    split
    next =>
      exact ⟨(ih used).1, fun q hq => ((ih used).2 q hq).imp_left (List.mem_cons_of_mem r)⟩
    next h =>
      simp only [List.contains_eq_mem, Bool.or_eq_true, not_or, decide_eq_true_eq,
        Bool.not_eq_true, Bool.not_eq_false'] at h
      obtain ⟨hnew, hall⟩ := ih (r.name :: used)
      refine ⟨.cons h.2 hnew, List.forall_mem_cons.mpr ⟨⟨List.mem_cons_self, h.1⟩, ?_⟩⟩
      exact fun q hq => (hall q hq).imp_left (List.mem_cons_of_mem r)

-- What a row type has to say about the columns of a table.
structure Describes (columns : List ColumnDecl) (fields : List (Field Ty)) : Prop where
  valid : ∀ m ∈ fields, isMemberName m.name = true ∧ Types.isExported m.name = true
  distinct : (fields.map (·.name)).Nodup
  tags : fields.filterMap (·.tag) = columns.map (·.name)
  -- The name of a column is read up to a comma, and a dash hides the member.
  found : ∀ m ∈ fields, ∀ column, m.tag = some column → ∀ ts : Types,
    (∃ type, ts.column? (some (.record fields)) m.name = some (column, type)) ↔
      ',' ∉ column.toList ∧ column ≠ "-"

theorem filter_name (h : (fields.map (·.name)).Nodup) {m : Field Ty} (hm : m ∈ fields) :
    fields.filter (·.name == m.name) = [m] := by
  induction fields with
  | nil => simp at hm
  | cons f fs ih =>
    obtain ⟨hf, hfs⟩ := List.nodup_cons.mp h
    obtain rfl | hm := List.mem_cons.mp hm
    · have hrest : fs.filter (·.name == m.name) = [] := by
        refine List.filter_eq_nil_iff.mpr fun f hmem heq => hf ?_
        exact List.mem_map.mpr ⟨f, hmem, by simpa using heq⟩
      rw [List.filter_cons_of_pos (by simp), hrest]
    · have hne : f.name ≠ m.name := fun heq => hf (List.mem_map.mpr ⟨m, hm, heq.symm⟩)
      rw [List.filter_cons_of_neg (by simpa using hne), ih hfs hm]

theorem member?_record (h : (fields.map (·.name)).Nodup) {m : Field Ty} (hm : m ∈ fields)
    (ts : Types) : ts.member? (.record fields) m.name = some m := by
  simp [Types.member?, Types.members?, Ty.indirect, Types.under, Types.search, filter_name h hm]

theorem tagName_eq_iff (column : String) : Types.tagName column = column ↔ ',' ∉ column.toList := by
  rw [Types.tagName, ← String.toList_inj, String.toList_ofList, List.takeWhile_eq_self_iff]
  simp only [bne_iff_ne, ne_eq]
  exact ⟨fun h hc => h ',' hc rfl, fun h c hc heq => h (heq ▸ hc)⟩

theorem comma_notMem (h : isMemberName name = true) : ',' ∉ name.toList := by
  have hcomma : isNameStart ',' = false ∧ isNamePart ',' = false := by decide
  intro hmem
  cases hlist : name.toList with
  | nil => simp [hlist] at hmem
  | cons c cs =>
    rw [isMemberName_eq hlist, Bool.and_eq_true] at h
    obtain rfl | hmem := List.mem_cons.mp (hlist ▸ hmem)
    · simp [hcomma] at h
    · simp [List.all_eq_true.mp h.2 ',' hmem] at hcomma

theorem column?_record (hdistinct : (fields.map (·.name)).Nodup) {m : Field Ty} (hm : m ∈ fields)
    (hvalid : isMemberName m.name = true) (hexported : Types.isExported m.name = true)
    {column : String} (hcolumn : column ≠ "") (htag : m.tag = some column) (ts : Types) :
    (∃ type, ts.column? (some (.record fields)) m.name = some (column, type)) ↔
      ',' ∉ column.toList ∧ column ≠ "-" := by
  have hself : m.name = column → Types.tagName column = column := by
    rintro rfl
    exact (tagName_eq_iff m.name).mpr (comma_notMem hvalid)
  simp only [Types.column?, member?_record hdistinct hm, Option.bind_eq_bind, Option.bind_some,
    hexported, htag, Option.map_some]
  rw [← tagName_eq_iff]
  by_cases hdash : Types.tagName column = "-"
  · simpa [hdash] using Eq.symm
  by_cases hempty : Types.tagName column = ""
  · have hne : m.name ≠ column := fun h => hcolumn ((hself h).symm.trans hempty)
    simp [hempty, hne, hcolumn]
  · simpa using fun h heq => hdash (h.trans heq)

theorem describes {cs : List ColumnDecl} (hcs : ∀ c ∈ cs, c.name ≠ "") (rs : List RelationDecl)
    {new : List (Field Ty)}
    (hnew : new.map (·.name) =
      (followed ((columnMembers [] cs).map (·.name)) rs).map (·.name))
    (htag : ∀ m ∈ new, m.tag = none)
    (hvalid : (columnMembers [] cs ++ new).all (isMemberName ·.name) = true) :
    Describes cs (columnMembers [] cs ++ new) := by
  have hcolumns := areNew_columnMembers [] cs
  obtain ⟨hrelations, hfollowed⟩ := areNew_followed ((columnMembers [] cs).map (·.name)) rs
  have hvalid := List.all_eq_true.mp hvalid
  have hdistinct : ((columnMembers [] cs ++ new).map (·.name)).Nodup := by
    rw [List.map_append, hnew]
    exact hcolumns.1.append hrelations.1 fun n hn hrel => hrelations.2 n hrel hn
  have hexported : ∀ m ∈ columnMembers [] cs ++ new, Types.isExported m.name = true := by
    intro m hm
    obtain hm | hm := List.mem_append.mp hm
    · exact List.all_eq_true.mp (all_columnMembers [] cs).2 m hm
    · obtain ⟨r, hr, hname⟩ := List.mem_map.mp (hnew ▸ List.mem_map_of_mem hm)
      exact hname ▸ (hfollowed r hr).2
  have htags : (columnMembers [] cs ++ new).filterMap (·.tag) = cs.map (·.name) := by
    rw [List.filterMap_append, columnMembers_tags, List.filterMap_eq_nil_iff.mpr htag,
      List.append_nil]
  refine ⟨fun m hm => ⟨hvalid m hm, hexported m hm⟩, hdistinct, htags, ?_⟩
  intro m hm column hcolumn ts
  refine column?_record hdistinct hm (hvalid m hm) (hexported m hm) ?_ hcolumn ts
  obtain ⟨c, hc, rfl⟩ : ∃ c ∈ cs, c.name = column :=
    List.mem_map.mp (htags ▸ List.mem_filterMap.mpr ⟨m, hm, hcolumn⟩)
  exact hcs c hc

end Members

section Stops

-- A computation that gives such a result under the condition, and otherwise stops the program.
def Yields (b : Bool) (P : α → Prop) (x : Except Error α) : Prop :=
  if b then ∃ a, x = .ok a ∧ P a else ∃ m, x = .error (.aborted m)

theorem Yields.mono {b : Bool} {P Q : α → Prop} {x : Except Error α} (h : Yields b P x)
    (himp : ∀ a, P a → Q a) : Yields b Q x := by
  cases b with
  | true =>
    obtain ⟨a, ha, hP⟩ := h
    exact ⟨a, ha, himp a hP⟩
  | false => exact h

theorem Yields.bind {b c : Bool} {P : α → Prop} {Q : β → Prop} {x : Except Error α}
    {next : α → Except Error β} (hx : Yields b P x) (hnext : ∀ a, P a → Yields c Q (next a)) :
    Yields (b && c) Q (x >>= next) := by
  cases b with
  | true =>
    obtain ⟨a, rfl, ha⟩ := hx
    exact hnext a ha
  | false =>
    obtain ⟨m, rfl⟩ := hx
    exact ⟨m, rfl⟩

theorem Yields.inRelation {b : Bool} {P : α → Prop} {x : Except Error α} (h : Yields b P x)
    (object name : String) : Yields b P (SchemaFile.inRelation object name x) := by
  cases b with
  | true =>
    obtain ⟨a, rfl, ha⟩ := h
    exact ⟨a, rfl, ha⟩
  | false =>
    obtain ⟨m, rfl⟩ := h
    exact ⟨m, rfl⟩

theorem yields_record (ms : List (Field Ty)) :
    Yields (ms.all (isMemberName ·.name)) (fun t => t = .record ms) (record ms) := by
  have hall : ms.all (isMemberName ·.name) = !(ms.findIdx? (!isMemberName ·.name)).isSome := by
    rw [List.findIdx?_isSome, List.not_any_eq_all_not]
    simp
  rw [hall, record]
  cases ms.findIdx? (!isMemberName ·.name) with
  | none => exact ⟨_, rfl, rfl⟩
  | some i => exact ⟨_, rfl⟩

theorem yields_relationMembers {rowOf : String → Except Error Ty} {object : String}
    {named : String → Bool} {members : List (Field Ty)}
    (hused : ∀ name, members.any (·.name == name) = used.contains name) {rs : List RelationDecl}
    (hrow : ∀ r ∈ rs, Yields (named r.target) (fun _ => True) (rowOf r.target)) :
    Yields ((followed used rs).all (named ·.target))
      (fun ms => ∃ new, ms = members ++ new ∧
        new.map (·.name) = (followed used rs).map (·.name) ∧ ∀ m ∈ new, m.tag = none)
      (SchemaFile.relationMembers rowOf object members rs) := by
  induction rs generalizing members used with
  | nil => exact ⟨members, rfl, [], by simp, rfl, by simp⟩
  | cons r rs ih =>
    obtain ⟨hr, hrs⟩ := List.forall_mem_cons.mp hrow
    simp only [SchemaFile.relationMembers, followed, hused]
    split
    next => exact ih hused hrs
    next =>
      rw [List.all_cons]
      refine (hr.inRelation object r.name).bind fun row _ => ?_
      have hmore : ∀ name, (members ++ [(⟨r.name, .list row, none, false⟩ : Field Ty)]).any
          (·.name == name) = (r.name :: used).contains name := by
        intro name
        rw [List.any_append, hused, List.contains_cons, Bool.or_comm, BEq.comm]
        simp
      refine (ih hmore hrs).mono ?_
      rintro ms ⟨new, rfl, hnames, htags⟩
      refine ⟨_ :: new, List.append_assoc _ _ _, by simp [hnames], by simpa using htags⟩

theorem yields_row {cs : List ColumnDecl} (hcs : ∀ c ∈ cs, c.name ≠ "") (rs : List RelationDecl)
    {new : List (Field Ty)}
    (hnew : new.map (·.name) = (followed ((columnMembers [] cs).map (·.name)) rs).map (·.name))
    (htag : ∀ m ∈ new, m.tag = none) :
    Yields (cs.all (isSpelled ·.name) &&
        (followed ((columnMembers [] cs).map (·.name)) rs).all (isMemberName ·.name))
      (fun type => ∃ fields, type = .record fields ∧ Describes cs fields)
      (record (columnMembers [] cs ++ new)) := by
  have hall : (columnMembers [] cs ++ new).all (isMemberName ·.name) =
      (cs.all (isSpelled ·.name) &&
        (followed ((columnMembers [] cs).map (·.name)) rs).all (isMemberName ·.name)) := by
    have hnames := congrArg (List.all · isMemberName) hnew
    simp only [List.all_map] at hnames
    rw [List.all_append, (all_columnMembers [] cs).1]
    exact congrArg _ hnames
  have h := yields_record (columnMembers [] cs ++ new)
  rw [hall] at h
  unfold Yields at h ⊢
  split
  next hnamed =>
    rw [if_pos hnamed] at h
    obtain ⟨type, hok, rfl⟩ := h
    exact ⟨_, hok, _, rfl, describes hcs rs hnew htag (hall.trans hnamed)⟩
  next hnamed => simpa [hnamed] using h

end Stops
end RowType

namespace SchemaFile

-- Whether all the names that a row type is made of, to a depth, are names for members.
def isNamed (f : SchemaFile) : Nat → String → Bool
  | 0, object =>
    (f.table object).toOption.any fun (t, _) => t.columns.all (RowType.isSpelled ·.name)
  | n + 1, object =>
    (f.table object).toOption.any fun (t, o) =>
      let columns := (RowType.columnMembers [] t.columns).map (·.name)
      let relations := RowType.followed columns o.relations
      relations.all (f.isNamed n ·.target) &&
        (t.columns.all (RowType.isSpelled ·.name) && relations.all (RowType.isMemberName ·.name))

theorem yields_rowTypeTo {f : SchemaFile} (hf : f.IsSound) (n : Nat) {o : ObjectDecl}
    (ho : o ∈ f.objects) :
    ∃ t, f.table o.name = .ok (t, o) ∧ RowType.Yields (f.isNamed n o.name)
      (fun type => ∃ fields, type = .record fields ∧ RowType.Describes t.columns fields)
      (f.rowTypeTo n o.name) := by
  induction n generalizing o with
  | zero =>
    obtain ⟨t, ht, -, htable⟩ := hf.table_eq ho
    refine ⟨t, htable, ?_⟩
    have hnone : ∀ m ∈ ([] : List (Field Ty)), m.tag = none := by simp
    have h := RowType.yields_row (hf.named t ht).2 [] rfl hnone
    simp only [isNamed, rowTypeTo, htable]
    simpa [RowType.followed, Except.toOption, bind, Except.bind] using h
  | succ n ih =>
    obtain ⟨t, ht, -, htable⟩ := hf.table_eq ho
    refine ⟨t, htable, ?_⟩
    have hrow : ∀ r ∈ o.relations,
        RowType.Yields (f.isNamed n r.target) (fun _ => True) (f.rowTypeTo n r.target) := by
      intro r hr
      obtain ⟨p, hp, hname⟩ := hf.targets o ho r hr
      obtain ⟨_, -, h⟩ := ih hp
      exact hname ▸ h.mono fun _ _ => trivial
    have hused : ∀ name, (RowType.columnMembers [] t.columns).any (·.name == name) =
        ((RowType.columnMembers [] t.columns).map (·.name)).contains name := by
      intro name
      rw [Bool.eq_iff_iff]
      simp
    simp only [isNamed, rowTypeTo, htable]
    refine (RowType.yields_relationMembers hused hrow).bind ?_
    rintro _ ⟨new, rfl, hnew, htag⟩
    exact RowType.yields_row (hf.named t ht).2 o.relations hnew htag

theorem rowTypeTo_stops {f : SchemaFile} (hf : f.IsSound) {n : Nat} {o : ObjectDecl}
    (ho : o ∈ f.objects) (h : f.isNamed n o.name = false) :
    ∃ m, f.rowTypeTo n o.name = .error (.aborted m) := by
  obtain ⟨t, -, hyields⟩ := yields_rowTypeTo hf n ho
  rwa [h] at hyields

-- The row type of an object, to any depth: it is there whenever its names can be, and then it has
-- what the columns need.
theorem rowTypeTo_of_checked {f : SchemaFile} (h : f.checked = .ok f) {o : ObjectDecl}
    (ho : o ∈ f.objects) (n : Nat) :
    ∃ t, f.table o.name = .ok (t, o) ∧
      if f.isNamed n o.name then
        ∃ fields, f.rowTypeTo n o.name = .ok (.record fields) ∧ RowType.Describes t.columns fields
      else ∃ m, f.rowTypeTo n o.name = .error (.aborted m) := by
  have hf := isSound_of_checked h
  obtain ⟨t, htable, hyields⟩ := yields_rowTypeTo hf n ho
  refine ⟨t, htable, ?_⟩
  split
  next hnamed =>
    rw [hnamed] at hyields
    obtain ⟨_, hok, fields, rfl, hfields⟩ := hyields
    exact ⟨fields, hok, hfields⟩
  next hnamed => exact rowTypeTo_stops hf ho (Bool.eq_false_iff.mpr hnamed)

-- Two columns that would have one name, and a relation from an object to itself.
def twins : SchemaFile :=
  ⟨"", [⟨"users", [⟨"user_id", "", false⟩, ⟨"user id", "", false⟩]⟩],
    [⟨"User", "users", [⟨"Peers", "User", [], []⟩]⟩]⟩

theorem rowTypeTo_of_checked_twins :
    twins.checked = .ok twins ∧ ∃ t o fields, twins.table "User" = .ok (t, o) ∧
      twins.rowTypeTo 2 "User" = .ok (.record fields) ∧ RowType.Describes t.columns fields := by
  have hchecked : twins.checked = .ok twins := checked_ok_iff.mpr ⟨by decide +kernel, rfl⟩
  obtain ⟨t, ht, h⟩ := rowTypeTo_of_checked hchecked List.mem_cons_self 2
  rw [if_pos (by decide)] at h
  obtain ⟨fields, hfields, hdescribes⟩ := h
  exact ⟨hchecked, t, _, fields, ht, hfields, hdescribes⟩

def accented : SchemaFile := ⟨"", [⟨"a", [⟨"état", "", false⟩]⟩], [⟨"A", "a", []⟩]⟩

-- The first letter of `état` has no capital, so an object of its table has no row type.
theorem rowTypeTo_accented :
    accented.checked = .ok accented ∧
      ∃ o ∈ accented.objects, ∃ m, accented.rowType o.name = .error (.aborted m) := by
  have hchecked : accented.checked = .ok accented := checked_ok_iff.mpr ⟨by decide +kernel, rfl⟩
  have ho : (⟨"A", "a", []⟩ : ObjectDecl) ∈ accented.objects := List.mem_cons_self
  have hnamed : accented.isNamed RowType.depth "A" = false := by decide +kernel
  exact ⟨hchecked, _, ho, rowTypeTo_stops (isSound_of_checked hchecked) ho hnamed⟩

end SchemaFile
end QueryTree
