import QueryTree.Proofs.Sql.Phrase

namespace QueryTree

open Layout (allLandmarks)

-- What the texts of the grammar say by themselves.
namespace Engine

open Marks (reading isClosed isQuiet isQuiet_append isQuiet_of_allNumeral)

theorem isQuiet_literal (g : Engine) {v : Value} {t : String} (h : g.dialect.literal v = .ok t) :
    isQuiet t = true := by
  have hwords : ∀ w ∈ ["TRUE", "FALSE", "1", "0"], isQuiet w = true := by decide +kernel
  have hwrite : ∀ yes ∈ ["TRUE", "FALSE", "1", "0"], ∀ no ∈ ["TRUE", "FALSE", "1", "0"],
      writeLiteral v yes no = .ok t → isQuiet t = true := by
    intro yes hyes no hno h
    unfold writeLiteral at h
    split at h
    · cases h
      split
      · exact hwords yes hyes
      · exact hwords no hno
    · cases h
      exact isQuiet_of_allNumeral (Text.allNumeral_int _)
    · cases h
      exact isQuiet_of_allNumeral (Binary.allNumeral_write _ _ (by decide +kernel) _)
    · cases h
  cases g <;> exact hwrite _ (by decide +kernel) _ (by decide +kernel) h

theorem quiet_logicKeyword (g : Engine) {op : LogicOp} {kw : String}
    (h : g.dialect.logicKeyword op = some kw) :
    isQuiet (" " ++ kw ++ " ") = true ∧ isClosed (" " ++ kw ++ " ") = true := by
  have table : ∀ kw ∈ logicKeywords,
      isQuiet (" " ++ kw ++ " ") = true ∧ isClosed (" " ++ kw ++ " ") = true := by decide +kernel
  exact table kw (g.mem_logicKeywords h)

theorem quiet_valueKeyword (g : Engine) {op : ValueOp} {kw : String}
    (h : g.dialect.valueKeyword op = some kw) :
    isQuiet (" " ++ kw ++ " ") = true ∧ isClosed (" " ++ kw ++ " ") = true := by
  have table : ∀ kw ∈ valueKeywords,
      isQuiet (" " ++ kw ++ " ") = true ∧ isClosed (" " ++ kw ++ " ") = true := by decide +kernel
  exact table kw (g.mem_valueKeywords h)

theorem unaryKeyword_eq (g : Engine) (op : UnaryOp) :
    g.dialect.unaryKeyword op = standardUnary op := by
  cases g <;> rfl

theorem quiet_sign (g : Engine) {op : UnaryOp} {kw : String} (hop : op ≠ .not)
    (h : g.dialect.unaryKeyword op = some kw) : isQuiet kw = true ∧ isClosed kw = true := by
  rw [unaryKeyword_eq] at h
  unfold standardUnary at h
  repeat' split at h
  · next hnot => exact absurd (by simpa using hnot) hop
  all_goals cases h
  all_goals decide

theorem Leads.quiet {g : Engine} {t : String} (h : g.Leads t) :
    isQuiet t = true ∧ isClosed t = true := by
  cases h with
  | fixed h =>
    have table : ∀ t ∈ leads, isQuiet t = true ∧ isClosed t = true := by decide +kernel
    exact table t h
  | clause h =>
    have table : ∀ t ∈ clauses, isQuiet t = true ∧ isClosed t = true := by decide +kernel
    exact table t h
  | logic h => exact g.quiet_logicKeyword h
  | value h => exact g.quiet_valueKeyword h
  | negation h =>
    rw [unaryKeyword_eq] at h
    cases h
    decide

def pageKeywords : List String := ["LIMIT ", "OFFSET ", "ORDER BY (SELECT NULL) OFFSET "]

theorem quiet_number (n : Int) : isQuiet (toString n) = true :=
  isQuiet_of_allNumeral (Text.allNumeral_int n)

theorem quiet_counted {kw : String} (hkw : isQuiet kw = true) (hclosed : isClosed kw = true)
    (n : Int) : isQuiet (kw ++ toString n) = true :=
  isQuiet_append (.inl hclosed) hkw (quiet_number n)

theorem quiet_after {s t : String} (hs : isQuiet s = true) (ht : isQuiet t = true)
    (hapart : Text.standsApart t.toList = true) : isQuiet (s ++ t) = true :=
  isQuiet_append (.inr hapart) hs ht

theorem page_cases (g : Engine) {skip take : Int} {ordered : Bool} {t : String}
    (h : g.dialect.paging skip take ordered = .ok t) :
    t = "" ∨ ∃ kw ∈ pageKeywords, ∃ body, t = kw ++ body ∧ isQuiet body = true := by
  have hoffset : isQuiet (" OFFSET " ++ toString skip) = true :=
    quiet_counted (by decide +kernel) (by decide +kernel) skip
  have hlimit : ∀ s, isQuiet s = true →
      isQuiet (s ++ (if skip > 0 then " OFFSET " ++ toString skip else "")) = true := by
    intro s hs
    split
    · exact quiet_after hs hoffset (by simp [Text.standsApart, Text.isEnd])
    · simpa using hs
  cases g with
  | postgres escape =>
    cases h
    unfold Dialect.Postgres.paging
    split <;> split
    · exact .inr ⟨"OFFSET ", by decide +kernel, toString skip, rfl, quiet_number skip⟩
    · exact .inl rfl
    · refine .inr ⟨"LIMIT ", by decide +kernel,
        toString take ++ (" " ++ ("OFFSET " ++ toString skip)), ?_, ?_⟩
      · simp [String.append_assoc]
      · refine quiet_after (quiet_number take) ?_ (by simp [Text.standsApart, Text.isEnd])
        rw [← String.append_assoc]
        exact hoffset
    · exact .inr ⟨"LIMIT ", by decide +kernel, toString take, rfl, quiet_number take⟩
  | sqlite escape =>
    cases h
    refine .inr ⟨"LIMIT ", by decide +kernel, _, ?_, hlimit (toString take) (quiet_number take)⟩
    rw [Dialect.Sqlite.paging, String.append_assoc]
  | mssql escape strict =>
    cases h
    have hrows : isQuiet (toString skip ++ " ROWS" ++ (if take == -1 then ""
        else " FETCH NEXT " ++ toString take ++ " ROWS ONLY")) = true := by
      have hskip := quiet_after (quiet_number skip) (by decide +kernel : isQuiet " ROWS" = true)
        (by decide +kernel)
      split
      · simpa using hskip
      · have hfetch : isQuiet (" FETCH NEXT " ++ toString take) = true :=
          quiet_counted (by decide +kernel) (by decide +kernel) take
        refine quiet_after hskip ?_ (by simp [Text.standsApart, Text.isEnd])
        exact quiet_after hfetch (by decide +kernel) (by decide +kernel)
    cases ordered with
    | true =>
      refine .inr ⟨"OFFSET ", by decide +kernel, _, ?_, hrows⟩
      simp [Dialect.Mssql.paging, String.append_assoc]
    | false =>
      refine .inr ⟨"ORDER BY (SELECT NULL) OFFSET ", by decide +kernel, _, ?_, hrows⟩
      have hkw : "ORDER BY (SELECT NULL) OFFSET " = "ORDER BY (SELECT NULL) " ++ "OFFSET " := rfl
      simp [Dialect.Mssql.paging, String.append_assoc, hkw]
  | mariadb escape =>
    cases h
    have hcount : isQuiet (if take == -1 then Dialect.Mariadb.everyRow else toString take) =
        true := by
      split
      · decide
      · exact quiet_number take
    refine .inr ⟨"LIMIT ", by decide +kernel, _, ?_, hlimit _ hcount⟩
    rw [Dialect.Mariadb.paging, String.append_assoc]

-- Texts that stand for themselves hold at most a parenthesis without names.
theorem Says.reading_eq {g : Engine} {t : String} (h : g.Says t) :
    ∃ ps : List Layout, (ps = [] ∨ ps = [.group []]) ∧ Text.allPlain t = true ∧
      reading .column t = (.column, allLandmarks ps) := by
  have hquiet : ∀ t, isQuiet t = true → ∃ ps : List Layout, (ps = [] ∨ ps = [.group []]) ∧
      Text.allPlain t = true ∧ reading .column t = (.column, allLandmarks ps) := by
    intro t ht
    simp only [isQuiet, Bool.and_eq_true, decide_eq_true_eq] at ht
    exact ⟨[], .inl rfl, ht.1, ht.2⟩
  cases h with
  | wording h =>
    have table : ∀ t ∈ wordings, isQuiet t = true := by decide +kernel
    exact hquiet t (table t h)
  | page h =>
    obtain rfl | ⟨kw, hkw, body, rfl, hbody⟩ := g.page_cases h
    · exact hquiet "" (by decide +kernel)
    · have table : ∀ kw ∈ pageKeywords, Text.allPlain kw = true ∧ isClosed kw = true ∧
          (reading .column kw = (.column, []) ∨
            reading .column kw = (.column, [.opening, .closing])) := by decide +kernel
      obtain ⟨hplain, hclosed, hreading⟩ := table kw hkw
      simp only [isQuiet, Bool.and_eq_true, decide_eq_true_eq] at hbody
      have hwhole : Text.allPlain (kw ++ body) = true := by
        rw [Text.allPlain_append, hplain, hbody.1]
        rfl
      cases hreading with
      | inl hnone =>
        refine ⟨[], .inl rfl, hwhole, ?_⟩
        rw [Marks.reading_append (.inl hclosed) hplain, hnone, hbody.2]
        rfl
      | inr hgroup =>
        refine ⟨[.group []], .inr rfl, hwhole, ?_⟩
        rw [Marks.reading_append (.inl hclosed) hplain, hgroup, hbody.2]
        rfl

end Engine

-- The layout of a text, wherever something apart follows it.
def Reads (g : Engine) (s : Sql) (ps : List Layout) : Prop :=
  ∀ rest, Text.standsApart rest = true →
    g.marks.scan .column ((g.dialect.text s).toList ++ rest) =
      allLandmarks ps ++ g.marks.scan .column rest

namespace Reads

open Marks (reading isClosed isQuiet suits)

variable {g : Engine} {s u : Sql} {ps qs : List Layout} {t : String} {rest : List Char}

theorem standsApart_text (hs : s.standsApart = true) (hrest : Text.standsApart rest = true) :
    Text.standsApart ((g.dialect.text s).toList ++ rest) = true := by
  cases s with
  | nil => exact hrest
  | cons token s =>
    cases token with
    | text t =>
      rw [Dialect.toList_text_cons, Dialect.tokenText]
      simp only [Sql.standsApart] at hs
      cases hcs : t.toList with
      | nil => simp [hcs] at hs
      | cons c cs =>
        rw [hcs] at hs
        exact hs
    | _ => simp [Sql.standsApart] at hs

theorem scan_fixed (g : Engine) {t : String} {a b : Landmark.Awaited} {l : List Landmark}
    (h : Text.allPlain t = true ∧ isClosed t = true ∧ reading a t = (b, l)) (rest : List Char) :
    g.marks.scan a (t.toList ++ rest) = l ++ g.marks.scan b rest := by
  rw [Marks.scan_text (suits g) h.1 (.inl h.2.1), h.2.2]

theorem nil : Reads g [] [] := by
  intro rest _
  simp [Dialect.text, allLandmarks]

theorem append (hs : Reads g s ps) (hu : Reads g u qs) (hapart : u.standsApart = true) :
    Reads g (s ++ u) (ps ++ qs) := by
  intro rest hrest
  rw [Dialect.toList_text_append, List.append_assoc, hs _ (standsApart_text hapart hrest),
    hu rest hrest, Layout.allLandmarks_append, List.append_assoc]

theorem whole (h : Reads g s ps) :
    g.marks.scan .column (g.dialect.text s).toList = allLandmarks ps := by
  have hend := h [] rfl
  rwa [List.append_nil, Marks.scan_nil, List.append_nil] at hend

theorem single {token : Token}
    (h : ∀ rest, Text.standsApart rest = true →
      g.marks.scan .column ((g.dialect.tokenText token).toList ++ rest) =
        allLandmarks ps ++ g.marks.scan .column rest) : Reads g [token] ps := by
  intro rest hrest
  have htext : (g.dialect.text [token]).toList = (g.dialect.tokenText token).toList := by
    simp [Dialect.text]
  rw [htext, h rest hrest]

theorem text (ht : Text.allPlain t = true)
    (hread : reading .column t = (.column, allLandmarks ps)) : Reads g [.text t] ps := by
  refine single fun rest hrest => ?_
  rw [Dialect.tokenText, Marks.scan_text (suits g) ht (.inr hrest), hread]

theorem literal (ht : isQuiet t = true) : Reads g [.literal t] [] := by
  simp only [isQuiet, Bool.and_eq_true, decide_eq_true_eq] at ht
  refine single fun rest hrest => ?_
  rw [Dialect.tokenText, Marks.scan_text (suits g) ht.1 (.inr hrest), ht.2]
  rfl

theorem string (t : String) : Reads g [.string t] [] :=
  single fun _ hrest => Marks.scan_string (suits g) hrest t

theorem placeholder (i : Nat) : Reads g [.placeholder i] [] :=
  single fun _ hrest => Marks.scan_placeholder (suits g) hrest i

theorem column (c : String) : Reads g [.name c] [.reference none c] :=
  single fun _ hrest => Marks.scan_name (suits g) hrest c .column

theorem tableColumn (n : Nat) (c : String) :
    Reads g [.table n, .text ".", .name c] [.reference (some (.word (tableName n))) c] := by
  intro rest hrest
  have h := Marks.scan_tableColumn (suits g) hrest n c
  simpa [Dialect.text, Dialect.tokenText, allLandmarks, Layout.landmarks] using h

theorem nameColumn (t c : String) :
    Reads g [.name t, .text ".", .name c] [.reference (some (.name t)) c] := by
  intro rest hrest
  have h := Marks.scan_nameColumn (suits g) hrest t c
  simpa [Dialect.text, Dialect.tokenText, allLandmarks, Layout.landmarks] using h

theorem lead (ht : isQuiet t = true ∧ isClosed t = true) (hs : Reads g s ps) :
    Reads g (.text t :: s) ps := by
  obtain ⟨hquiet, hclosed⟩ := ht
  simp only [isQuiet, Bool.and_eq_true, decide_eq_true_eq] at hquiet
  intro rest hrest
  rw [Dialect.toList_text_cons, Dialect.tokenText, List.append_assoc,
    scan_fixed g ⟨hquiet.1, hclosed, hquiet.2⟩, hs rest hrest, List.nil_append]

theorem closing (rest : List Char) :
    g.marks.scan .column ((g.dialect.text [.text ")"]).toList ++ rest) =
      .closing :: g.marks.scan .column rest := by
  have hfixed := scan_fixed g (t := ")") (a := .column) (b := .column) (l := [.closing])
    (by decide +kernel) rest
  rw [Dialect.toList_text_cons, Dialect.tokenText, List.append_assoc, Dialect.text, List.map_nil]
  exact hfixed

theorem within (ht : Text.allPlain t = true ∧ isClosed t = true ∧
      reading .column t = (.column, [.opening])) (hs : Reads g s ps) :
    Reads g (.text t :: s ++ [.text ")"]) [.group ps] := by
  intro rest hrest
  have hend : Text.standsApart ((g.dialect.text [.text ")"]).toList ++ rest) = true :=
    standsApart_text (by decide) hrest
  rw [List.cons_append, Dialect.toList_text_cons, Dialect.tokenText, Dialect.toList_text_append,
    List.append_assoc, List.append_assoc, scan_fixed g ht, hs _ hend, closing]
  simp [allLandmarks, Layout.landmarks]

theorem call {name : String} (hname : Text.isIdentifier name = true) (hs : Reads g s ps) :
    Reads g (.text name :: Sql.enclosed s) [.group ps] := by
  intro rest hrest
  have hend : Text.standsApart ((g.dialect.text [.text ")"]).toList ++ rest) = true :=
    standsApart_text (by decide) hrest
  have h := Marks.scan_call (suits g) hname
    ((g.dialect.text s).toList ++ ((g.dialect.text [.text ")"]).toList ++ rest))
  rw [hs _ hend, closing] at h
  rw [Sql.enclosed, List.cons_append, Dialect.toList_text_cons, Dialect.toList_text_cons,
    Dialect.toList_text_append]
  simpa [Dialect.tokenText, allLandmarks, Layout.landmarks] using h

theorem labelled (hs : Reads g s ps) (label : String) :
    Reads g (s ++ [.text " AS ", .name label]) ps := by
  intro rest hrest
  have hapart : Text.standsApart ((g.dialect.text [.text " AS ", .name label]).toList ++ rest) =
      true := standsApart_text rfl hrest
  have has := scan_fixed g (t := " AS ") (a := .column) (b := .label) (l := [])
    (by decide +kernel) ((g.dialect.quoteName label).toList ++ rest)
  rw [Marks.scan_name (suits g) hrest] at has
  rw [Dialect.toList_text_append, List.append_assoc, hs _ hapart]
  simpa [Dialect.text, Dialect.tokenText, Landmark.step] using has

theorem scan_source (t : String) (n : Nat) (hu : u.standsApart = true)
    (hrest : Text.standsApart rest = true) :
    g.marks.scan .table
        ((g.dialect.text (.name t :: .text " " :: .table n :: u)).toList ++ rest) =
      .source t (some (tableName n)) ::
        g.marks.scan .column ((g.dialect.text u).toList ++ rest) := by
  have htail : Text.standsApart ((g.dialect.text u).toList ++ rest) = true :=
    standsApart_text hu hrest
  have hblank : Text.standsApart
      (" ".toList ++ ((tableName n).toList ++ ((g.dialect.text u).toList ++ rest))) = true := rfl
  have hreading : reading (.tableLabel t) " " = (.tableLabel t, []) := rfl
  have hname : isTableName (tableName n) = true := by
    have hdigits : (Nat.toDigits 10 n).all Char.isDigit = true := by
      rw [List.all_eq_true]
      exact fun c hc => Nat.isDigit_of_mem_toDigits (by decide) (by decide) hc
    simp [isTableName, Marks.toList_tableName, hdigits]
  rw [Dialect.toList_text_cons, Dialect.toList_text_cons, Dialect.toList_text_cons]
  simp only [Dialect.tokenText, List.append_assoc]
  rw [Marks.scan_name (suits g) hblank]
  simp only [Landmark.step, List.nil_append]
  rw [scan_fixed g ⟨by decide +kernel, by decide +kernel, hreading⟩,
    Marks.scan_table (suits g) htail]
  simp [Landmark.step, hname]

theorem scan_select (hs : Reads g s ps) (source : Sql) (hrest : Text.standsApart rest = true) :
    g.marks.scan .column
        ((g.dialect.text (.text "SELECT " :: (s ++ .text " FROM " :: source))).toList ++ rest) =
      allLandmarks ps ++ g.marks.scan .table ((g.dialect.text source).toList ++ rest) := by
  have hselect := scan_fixed g (t := "SELECT ") (a := .column) (b := .column) (l := [])
    (by decide +kernel)
  have hfrom := scan_fixed g (t := " FROM ") (a := .column) (b := .table) (l := [])
    (by decide +kernel)
  have hapart : Text.standsApart
      ((g.dialect.text (.text " FROM " :: source)).toList ++ rest) = true :=
    standsApart_text rfl hrest
  rw [Dialect.toList_text_cons, Dialect.tokenText, List.append_assoc, hselect, List.nil_append,
    Dialect.toList_text_append, List.append_assoc, hs _ hapart, Dialect.toList_text_cons,
    Dialect.tokenText, List.append_assoc, hfrom, List.nil_append]

theorem select {scope : Scope} {n : Nat} (hscope : scope.qualifier = some n) {columns tail : Sql}
    (hcolumns : Reads g columns ps) (htail : Reads g tail qs) (hends : tail.standsApart = true) :
    Reads g (scope.selectText columns tail)
      (ps ++ .source scope.table (some (tableName n)) :: qs) := by
  intro rest hrest
  let source : Sql := .name scope.table :: .text " " :: .table n :: tail
  have htext : scope.selectText columns tail =
      .text "SELECT " :: (columns ++ .text " FROM " :: source) := by
    simp [Scope.selectText, Scope.labelText, hscope, source]
  rw [htext, scan_select hcolumns source hrest, scan_source _ _ hends hrest, htail rest hrest,
    Layout.allLandmarks_append]
  simp [allLandmarks, Layout.landmarks]

theorem related {scope : Scope} {n : Nat} (hs : Reads g s ps) :
    Reads g (scope.existsText n s) [.group (.source scope.table (some (tableName n)) :: ps)] := by
  intro rest hrest
  let body : Sql := .text " WHERE " :: (s ++ [.text ")"])
  have htext : scope.existsText n s =
      .text "EXISTS (SELECT 1 FROM " :: .name scope.table :: .text " " :: .table n :: body := by
    simp [Scope.existsText, body]
  have hopen := scan_fixed g (t := "EXISTS (SELECT 1 FROM ") (a := .column) (b := .table)
    (l := [.opening]) (by decide +kernel)
  have hwhere := scan_fixed g (t := " WHERE ") (a := .column) (b := .column) (l := [])
    (by decide +kernel)
  have hend : Text.standsApart ((g.dialect.text [.text ")"]).toList ++ rest) = true :=
    standsApart_text (by decide) hrest
  rw [htext, Dialect.toList_text_cons, Dialect.tokenText, List.append_assoc, hopen,
    scan_source _ _ rfl hrest, Dialect.toList_text_cons, Dialect.tokenText,
    Dialect.toList_text_append, List.append_assoc, List.append_assoc, hwhere, List.nil_append,
    hs _ hend, closing]
  simp [allLandmarks, Layout.landmarks]

end Reads

end QueryTree
