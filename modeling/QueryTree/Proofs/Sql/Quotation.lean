import QueryTree.Proofs.Sql.Reading

namespace QueryTree

namespace Text

-- The text of a quotation behind its opening mark, and what follows its closing mark.
def quoted? (closing : Char) : List Char → Option (List Char × List Char)
  | [] => none
  | [c] => if c = closing then some ([], []) else none
  | c :: d :: rest =>
    if c = closing then
      if d = closing then (quoted? closing rest).map (Prod.map (closing :: ·) id)
      else some ([], d :: rest)
    else (quoted? closing (d :: rest)).map (Prod.map (c :: ·) id)

variable {closing : Char} {cs s rest : List Char}

theorem doubled_cons_self (closing : Char) (cs : List Char) :
    doubled closing (closing :: cs) = closing :: closing :: doubled closing cs := by
  simp [doubled]

theorem doubled_cons_of_ne {c : Char} (hc : c ≠ closing) (cs : List Char) :
    doubled closing (c :: cs) = c :: doubled closing cs := by
  simp [doubled, hc]

theorem quoted?_closing (hrest : rest.head? ≠ some closing) :
    quoted? closing (closing :: rest) = some ([], rest) := by
  cases rest with
  | nil => simp [quoted?]
  | cons d rest =>
    have hd : d ≠ closing := by simpa using hrest
    simp [quoted?, hd]

theorem quoted?_cons_of_ne {c : Char} (hc : c ≠ closing) (cs : List Char) :
    quoted? closing (c :: cs) = (quoted? closing cs).map (Prod.map (c :: ·) id) := by
  cases cs with
  | nil => simp [quoted?, hc]
  | cons d cs => simp [quoted?, hc]

theorem quoted?_doubled (hrest : rest.head? ≠ some closing) (s : List Char) :
    quoted? closing (doubled closing s ++ closing :: rest) = some (s, rest) := by
  induction s with
  | nil => exact quoted?_closing hrest
  | cons c s ih =>
    by_cases hc : c = closing
    · subst hc
      rw [doubled_cons_self, List.cons_append, List.cons_append, quoted?, if_pos rfl, if_pos rfl,
        ih]
      rfl
    · rw [doubled_cons_of_ne hc, List.cons_append, quoted?_cons_of_ne hc, ih]
      rfl

theorem eq_doubled_of_quoted? (h : quoted? closing cs = some (s, rest)) :
    cs = doubled closing s ++ closing :: rest ∧ rest.head? ≠ some closing := by
  fun_induction quoted? closing cs generalizing s with
  | case1 => cases h
  | case2 =>
    obtain ⟨rfl, rfl⟩ : s = [] ∧ rest = [] := by simpa [eq_comm] using h
    simp [doubled]
  | case3 => cases h
  | case4 cs ih =>
    obtain ⟨⟨t, r⟩, ht, hpair⟩ := Option.map_eq_some_iff.mp h
    obtain ⟨rfl, rfl⟩ := Prod.mk.inj hpair
    obtain ⟨rfl, hrest⟩ := ih ht
    rw [doubled_cons_self]
    exact ⟨rfl, hrest⟩
  | case5 d cs hd =>
    obtain ⟨rfl, rfl⟩ : s = [] ∧ rest = d :: cs := by simpa [eq_comm] using h
    exact ⟨rfl, by simpa using hd⟩
  | case6 c d cs hc ih =>
    obtain ⟨⟨t, r⟩, ht, hpair⟩ := Option.map_eq_some_iff.mp h
    obtain ⟨rfl, rfl⟩ := Prod.mk.inj hpair
    obtain ⟨hcs, hrest⟩ := ih ht
    rw [hcs, doubled_cons_of_ne hc]
    exact ⟨rfl, hrest⟩

end Text

-- What is put between marks: the names of an engine, or the texts that stand as constants.
inductive Quotation where
  | name (g : Engine)
  | string
deriving DecidableEq

namespace Quotation

def write : Quotation → String → String
  | .name g => g.dialect.quoteName
  | .string => quoteString

def opening : Quotation → Char
  | .name g => g.marks.opening
  | .string => '\''

def closing : Quotation → Char
  | .name g => g.marks.closing
  | .string => '\''

def scan? (q : Quotation) : List Char → Option (String × List Char)
  | [] => none
  | c :: cs =>
    if c = q.opening then (Text.quoted? q.closing cs).map (Prod.map String.ofList id)
    else none

theorem toList_write (q : Quotation) (s : String) :
    (q.write s).toList = q.opening :: Text.doubled q.closing s.toList ++ [q.closing] := by
  cases q with
  | name g =>
    have hname : g.dialect.quoteName s = Text.enclosed g.marks.opening g.marks.closing s :=
      (Marks.suits g).quoteName s
    rw [write, hname, Text.enclosed, String.toList_ofList]
    rfl
  | string =>
    rw [write, quoteString, Text.enclosed, String.toList_ofList]
    rfl

theorem scan?_write {q : Quotation} {rest : List Char} (hrest : rest.head? ≠ some q.closing)
    (s : String) : q.scan? ((q.write s).toList ++ rest) = some (s, rest) := by
  rw [toList_write, List.cons_append, List.cons_append, scan?, if_pos rfl, List.append_assoc,
    List.singleton_append, Text.quoted?_doubled hrest]
  simp

theorem eq_write_of_scan? {q : Quotation} {cs rest : List Char} {s : String}
    (h : q.scan? cs = some (s, rest)) :
    cs = (q.write s).toList ++ rest ∧ rest.head? ≠ some q.closing := by
  cases cs with
  | nil => cases h
  | cons c cs =>
    rw [scan?] at h
    split at h
    case isFalse => cases h
    case isTrue hc =>
      obtain ⟨⟨t, r⟩, ht, hpair⟩ := Option.map_eq_some_iff.mp h
      obtain ⟨rfl, rfl⟩ := Prod.mk.inj hpair
      obtain ⟨rfl, hrest⟩ := Text.eq_doubled_of_quoted? ht
      refine ⟨?_, hrest⟩
      rw [toList_write, hc]
      simp

-- A quotation is scanned to its own end and gives its text back, and nothing else is taken for
-- one; two quotations with the same beginning are one quotation.
theorem scan_delimits (q : Quotation) (s : String) (rest : List Char)
    (hrest : rest.head? ≠ some q.closing) :
    q.scan? ((q.write s).toList ++ rest) = some (s, rest) ∧
      (∀ cs, q.scan? cs = some (s, rest) → cs = (q.write s).toList ++ rest) ∧
      ∀ t rest', rest'.head? ≠ some q.closing →
        (q.write s).toList ++ rest = (q.write t).toList ++ rest' → s = t ∧ rest = rest' := by
  refine ⟨scan?_write hrest s, fun cs h => (eq_write_of_scan? h).1, ?_⟩
  intro t rest' hrest' heq
  have hscan : some (s, rest) = some (t, rest') := by
    rw [← scan?_write hrest s, ← scan?_write hrest' t, heq]
  exact Prod.mk.inj (Option.some.inj hscan)

-- A name that begins and ends with closing marks, before the dot of a column.
theorem scan_delimits_brackets :
    let q : Quotation := .name (.mssql '/' false)
    (q.write "]a]]").toList = "[]]a]]]]]".toList ∧ ['.', '[', 'b', ']'].head? ≠ some q.closing ∧
      q.scan? ("[]]a]]]]]".toList ++ ['.', '[', 'b', ']']) =
        some ("]a]]", ['.', '[', 'b', ']']) := by
  intro q
  have htext : (q.write "]a]]").toList = "[]]a]]]]]".toList := by decide +kernel
  have hrest : ['.', '[', 'b', ']'].head? ≠ some q.closing := by decide
  exact ⟨htext, hrest, htext ▸ (scan_delimits q "]a]]" ['.', '[', 'b', ']'] hrest).1⟩

end Quotation
end QueryTree
