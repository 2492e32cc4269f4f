import QueryTree.Proofs.Sql.Layout

namespace QueryTree

namespace Landmark

theorem run_append (a : Awaited) (ls ks : List Lexeme) :
    run a (ls ++ ks) = ((run (run a ls).1 ks).1, (run a ls).2 ++ (run (run a ls).1 ks).2) := by
  induction ls generalizing a with
  | nil => rfl
  | cons l ls ih => simp only [List.cons_append, run, ih, List.append_assoc]

theorem all_append (a : Awaited) (ls ks : List Lexeme) :
    all a (ls ++ ks) = (run a ls).2 ++ all (run a ls).1 ks := by
  simp only [all, run_append, List.append_assoc]

end Landmark

namespace Text

-- Characters that end any word or quotation.
def isEnd (c : Char) : Bool := [' ', ',', ')'].contains c

-- What follows does not run into what stands before it.
def standsApart (cs : List Char) : Bool := cs.head?.all isEnd

end Text

def Sql.standsApart : Sql → Bool
  | [] => true
  | .text t :: _ => t.toList.head?.any Text.isEnd
  | _ => false

namespace Marks

open Lexeme (Draft)
open Landmark (Awaited)

variable {m : Marks} {d : Dialect} {draft : Draft} {cs rest : List Char} {t : String}

theorem lexRun_append (m : Marks) (draft : Draft) (cs ds : List Char) :
    m.lexRun draft (cs ++ ds) = ((m.lexRun (m.lexRun draft cs).1 ds).1,
      (m.lexRun draft cs).2 ++ (m.lexRun (m.lexRun draft cs).1 ds).2) := by
  induction cs generalizing draft with
  | nil => rfl
  | cons c cs ih => simp only [List.cons_append, lexRun, ih, List.append_assoc]

theorem lex_append (m : Marks) (draft : Draft) (cs ds : List Char) :
    m.lex draft (cs ++ ds) = (m.lexRun draft cs).2 ++ m.lex (m.lexRun draft cs).1 ds := by
  simp only [lex, lexRun_append, List.append_assoc]

theorem lex_nil (m : Marks) (draft : Draft) : m.lex draft [] = draft.complete := rfl

theorem lex_cons (m : Marks) (draft : Draft) (c : Char) (cs : List Char) :
    m.lex draft (c :: cs) = (m.lexStep draft c).2 ++ m.lex (m.lexStep draft c).1 cs := by
  simp only [lex, lexRun, List.append_assoc]

theorem scan_nil (m : Marks) : m.scan .column [] = [] := rfl

theorem lex_cons_some {next : Draft} {c : Char} (h : m.carriesOn draft c = some next)
    (cs : List Char) : m.lex draft (c :: cs) = m.lex next cs := by
  simp [lex_cons, lexStep, h]

theorem lex_cons_none {c : Char} (h : m.carriesOn draft c = none) (cs : List Char) :
    m.lex draft (c :: cs) = draft.complete ++ m.lex .blank (c :: cs) := by
  have hblank : m.lexStep .blank c = m.begins c := rfl
  rw [lex_cons, lex_cons, hblank, lexStep, h, List.append_assoc]

theorem lex_apart (hm : m.Suits d) (hdraft : draft.isOutside = true)
    (hrest : Text.standsApart rest = true) :
    m.lex draft rest = draft.complete ++ m.lex .blank rest := by
  cases rest with
  | nil => simp [lex_nil, Draft.complete]
  | cons c cs =>
    have hc : c = ' ' ∨ c = ',' ∨ c = ')' := by simpa [Text.standsApart, Text.isEnd] using hrest
    have hseparator : isSeparator c = true := by obtain rfl | rfl | rfl := hc <;> decide
    have hplain : Text.isPlain c = true := by obtain rfl | rfl | rfl := hc <;> decide
    have hword : Text.isWordChar c = false := by obtain rfl | rfl | rfl := hc <;> decide
    have hdot : c ≠ '.' := by obtain rfl | rfl | rfl := hc <;> decide
    have hquote : c ≠ '\'' := by obtain rfl | rfl | rfl := hc <;> decide
    have hopening : c ≠ m.opening := by
      rintro rfl
      simp [hm.facts.1] at hplain
    have hclosing : c ≠ m.closing := by
      rintro rfl
      simp [hm.facts.2.2.2.2.2] at hseparator
    refine lex_cons_none ?_ cs
    cases draft with
    | naming q letters | quoting letters => simp [Draft.isOutside] at hdraft
    | _ => simp [carriesOn, hword, hdot, hquote, hopening, hclosing]

-- On plain text all marks are alike, so that the lexemes of a known text can be computed.
def plain : Marks := ⟨'"', '"', '@', true⟩

theorem plain_suits : plain.Suits (Engine.postgres standardEscape).dialect := suits (.postgres _)

theorem lexStep_plain (hm : m.Suits d) (hdraft : draft.isApart = true) {c : Char}
    (hc : Text.isPlain c = true) :
    m.lexStep draft c = plain.lexStep draft c ∧ (plain.lexStep draft c).1.isApart = true := by
  have hopening : c ≠ m.opening := by
    rintro rfl
    simp [hm.facts.1] at hc
  have hmark : c ≠ '"' := by
    rintro rfl
    exact absurd hc (by decide)
  have hquote : c ≠ '\'' := by
    rintro rfl
    exact absurd hc (by decide)
  have hbegins : m.begins c = plain.begins c ∧ (plain.begins c).1.isApart = true := by
    simp only [begins, plain, beq_iff_eq, hopening, hmark, hquote, if_false, true_and]
    repeat' split
    all_goals rfl
  have hcarries : m.carriesOn draft c = plain.carriesOn draft c ∧
      ∀ next, plain.carriesOn draft c = some next → next.isApart = true := by
    cases draft with
    | blank => simp [carriesOn]
    | word letters =>
      refine ⟨rfl, fun next h => ?_⟩
      simp only [carriesOn] at h
      repeat' split at h
      all_goals cases h
      all_goals rfl
    | dotted q => simp [carriesOn, plain, hopening, hmark]
    | _ => simp [Draft.isApart] at hdraft
  simp only [lexStep, hcarries.1, hbegins.1, true_and]
  split
  · next next h => exact hcarries.2 next h
  · exact hbegins.2

theorem lexRun_plain (hm : m.Suits d) (hdraft : draft.isApart = true)
    (hcs : cs.all Text.isPlain = true) :
    m.lexRun draft cs = plain.lexRun draft cs ∧ (plain.lexRun draft cs).1.isApart = true := by
  induction cs generalizing draft with
  | nil => exact ⟨rfl, hdraft⟩
  | cons c cs ih =>
    simp only [List.all_cons, Bool.and_eq_true] at hcs
    obtain ⟨hstep, hapart⟩ := lexStep_plain hm hdraft hcs.1
    obtain ⟨hrun, hlast⟩ := ih hapart hcs.2
    simp only [lexRun, hstep, hrun, true_and]
    exact hlast

-- What a plain text says by itself.
def reading (awaited : Awaited) (t : String) : Awaited × List Landmark :=
  Landmark.run awaited (plain.lex .blank t.toList)

def isClosed (t : String) : Bool := (plain.lexRun .blank t.toList).1 == .blank

theorem lex_text (hm : m.Suits d) (ht : Text.allPlain t = true)
    (h : isClosed t = true ∨ Text.standsApart rest = true) :
    m.lex .blank (t.toList ++ rest) = plain.lex .blank t.toList ++ m.lex .blank rest := by
  have hblank : Draft.blank.isApart = true := rfl
  obtain ⟨hrun, hapart⟩ := lexRun_plain hm hblank ht
  have hlast : m.lex (plain.lexRun .blank t.toList).1 rest =
      (plain.lexRun .blank t.toList).1.complete ++ m.lex .blank rest := by
    cases h with
    | inl hclosed =>
      simp only [isClosed, beq_iff_eq] at hclosed
      rw [hclosed]
      rfl
    | inr hrest =>
      refine lex_apart hm ?_ hrest
      revert hapart
      cases (plain.lexRun .blank t.toList).1 <;> simp [Draft.isApart, Draft.isOutside]
  rw [lex_append, hrun, hlast, ← List.append_assoc]
  rfl

theorem scan_text (hm : m.Suits d) (ht : Text.allPlain t = true)
    (h : isClosed t = true ∨ Text.standsApart rest = true) (awaited : Awaited) :
    m.scan awaited (t.toList ++ rest) =
      (reading awaited t).2 ++ m.scan (reading awaited t).1 rest := by
  rw [scan, lex_text hm ht h, Landmark.all_append]
  rfl

-- Plain texts that are not about tables and columns.
def isQuiet (t : String) : Bool :=
  Text.allPlain t && decide (reading .column t = (.column, []))

theorem reading_append {u : String} (h : isClosed t = true ∨ Text.standsApart u.toList = true)
    (ht : Text.allPlain t = true) (awaited : Awaited) :
    reading awaited (t ++ u) = ((reading (reading awaited t).1 u).1,
      (reading awaited t).2 ++ (reading (reading awaited t).1 u).2) := by
  simp only [reading, String.toList_append, lex_text plain_suits ht h, Landmark.run_append]

theorem isQuiet_append {u : String} (h : isClosed t = true ∨ Text.standsApart u.toList = true)
    (ht : isQuiet t = true) (hu : isQuiet u = true) : isQuiet (t ++ u) = true := by
  simp only [isQuiet, Bool.and_eq_true, decide_eq_true_eq] at ht hu ⊢
  rw [Text.allPlain_append, ht.1, hu.1, reading_append h ht.1, ht.2, hu.2]
  exact ⟨rfl, rfl⟩

-- Lexemes that are neither keywords before names nor parentheses.
def isIdle : Lexeme → Bool
  | .word w => Awaited.after w == .column
  | .sign c => (Landmark.ofSign c).isEmpty
  | _ => false

theorem run_idle {ls : List Lexeme} (h : ∀ l ∈ ls, isIdle l = true) :
    Landmark.run .column ls = (.column, []) := by
  induction ls with
  | nil => rfl
  | cons l ls ih =>
    obtain ⟨hl, hls⟩ := List.forall_mem_cons.mp h
    have hstep : Landmark.step .column l = (.column, []) := by
      cases l with
      | word w => simpa [isIdle, Landmark.step] using hl
      | sign c => simpa [isIdle, Landmark.step, Awaited.unlabelled] using hl
      | string u | name q u => simp [isIdle] at hl
    simp [Landmark.run, hstep, ih hls]

def isNumeral : Draft → Bool
  | .blank => true
  | .word letters => letters.all Text.isNumeral
  | .dotted (.word w) => Text.allNumeral w
  | _ => false

theorem idle_word {w : String} (h : Text.allNumeral w = true) : isIdle (.word w) = true := by
  have hfrom : w ≠ "FROM" := by
    rintro rfl
    exact absurd h (by decide)
  have has : w ≠ "AS" := by
    rintro rfl
    exact absurd h (by decide)
  simp [isIdle, Awaited.after, hfrom, has]

theorem idle_complete (h : isNumeral draft = true) : ∀ l ∈ draft.complete, isIdle l = true := by
  cases draft with
  | blank => simp [Draft.complete]
  | word letters =>
    have hw : Text.allNumeral (String.ofList letters.reverse) = true := by
      simpa [isNumeral, Text.allNumeral] using h
    simpa [Draft.complete] using idle_word hw
  | dotted q =>
    cases q with
    | word w =>
      have hdot : isIdle (.sign '.') = true := by decide
      simpa [Draft.complete, Qualifier.lexeme, hdot] using idle_word h
    | name u => simp [isNumeral] at h
  | _ => simp [isNumeral] at h

theorem idle_lex (hdraft : isNumeral draft = true) (hcs : cs.all Text.isNumeral = true) :
    ∀ l ∈ plain.lex draft cs, isIdle l = true := by
  induction cs generalizing draft with
  | nil => exact idle_complete hdraft
  | cons c cs ih =>
    obtain ⟨hc, hcs⟩ := (by simpa only [List.all_cons, Bool.and_eq_true] using hcs :
      Text.isNumeral c = true ∧ cs.all Text.isNumeral = true)
    have hmark : c ≠ '"' := by
      rintro rfl
      exact absurd hc (by decide)
    have hquote : c ≠ '\'' := by
      rintro rfl
      exact absurd hc (by decide)
    have hsign : Landmark.ofSign c = [] := by
      have hopen : c ≠ '(' := by
        rintro rfl
        exact absurd hc (by decide)
      have hclose : c ≠ ')' := by
        rintro rfl
        exact absurd hc (by decide)
      simp [Landmark.ofSign, hopen, hclose]
    have hblank : ∀ l ∈ plain.lex .blank (c :: cs), isIdle l = true := by
      have hstep : isNumeral (plain.begins c).1 = true ∧
          ∀ l ∈ (plain.begins c).2, isIdle l = true := by
        simp only [begins, plain, beq_iff_eq, hmark, hquote, if_false]
        repeat' split
        all_goals simp [isNumeral, isIdle, hc, hsign]
      rw [lex_cons]
      exact List.forall_mem_append.mpr ⟨hstep.2, ih hstep.1 hcs⟩
    cases hcarry : plain.carriesOn draft c with
    | none =>
      rw [lex_cons_none hcarry]
      exact List.forall_mem_append.mpr ⟨idle_complete hdraft, hblank⟩
    | some next =>
      rw [lex_cons_some hcarry]
      refine ih ?_ hcs
      cases draft with
      | blank => simp [carriesOn] at hcarry
      | word letters =>
        simp only [carriesOn] at hcarry
        repeat' split at hcarry
        all_goals cases hcarry
        · simpa [isNumeral, hc] using hdraft
        · simpa [isNumeral, Text.allNumeral] using hdraft
      | dotted q => simp [carriesOn, plain, hmark] at hcarry
      | _ => simp [isNumeral] at hdraft

theorem isQuiet_of_allNumeral (h : Text.allNumeral t = true) : isQuiet t = true := by
  have hidle : ∀ l ∈ plain.lex .blank t.toList, isIdle l = true := idle_lex rfl h
  simp [isQuiet, Text.allPlain_of_allNumeral h, reading, run_idle hidle]

-- A quotation is read to its end, and each doubled mark inside it once.
theorem lex_quotation (inside behind : List Char → Draft) (mark : Char)
    (hinside : ∀ letters c, m.carriesOn (inside letters) c =
      some (if c == mark then behind letters else inside (c :: letters)))
    (hbehind : ∀ letters, m.carriesOn (behind letters) mark = some (inside (mark :: letters)))
    (letters cs rest : List Char) :
    m.lex (inside letters) (Text.doubled mark cs ++ mark :: rest) =
      m.lex (behind (cs.reverse ++ letters)) rest := by
  have hclose : ∀ letters, m.carriesOn (inside letters) mark = some (behind letters) := by
    intro letters
    simp [hinside]
  induction cs generalizing letters with
  | nil => exact lex_cons_some (hclose letters) rest
  | cons c cs ih =>
    rw [List.reverse_cons, List.append_assoc, List.singleton_append, ← ih (c :: letters)]
    by_cases hc : c = mark
    · subst hc
      have hdoubled : Text.doubled c (c :: cs) = c :: c :: Text.doubled c cs := by
        simp [Text.doubled]
      rw [hdoubled, List.cons_append, List.cons_append, lex_cons_some (hclose letters),
        lex_cons_some (hbehind letters)]
    · have hsingle : Text.doubled mark (c :: cs) = c :: Text.doubled mark cs := by
        simp [Text.doubled, hc]
      have hcarry : m.carriesOn (inside letters) c = some (inside (c :: letters)) := by
        simp [hinside, hc]
      rw [hsingle, List.cons_append, lex_cons_some hcarry]

theorem lex_naming (m : Marks) (q : Option Qualifier) (cs rest : List Char) :
    m.lex (.naming q []) (Text.doubled m.closing cs ++ m.closing :: rest) =
      m.lex (.named q cs.reverse) rest := by
  have h := lex_quotation (m := m) (.naming q) (.named q) m.closing
    (fun _ _ => rfl) (fun _ => by simp [carriesOn]) [] cs rest
  rwa [List.append_nil] at h

variable (hm : m.Suits d)
include hm

theorem lex_name (s : String) (rest : List Char) :
    m.lex .blank ((d.quoteName s).toList ++ rest) = m.lex (.named none s.toList.reverse) rest := by
  rw [hm.quoteName, Text.enclosed, String.toList_ofList, ← lex_naming]
  simp [lex_cons m .blank, lexStep, carriesOn, begins, Draft.complete]

theorem lex_dotted (q : Qualifier) (s : String) (rest : List Char) :
    m.lex (.dotted q) ((d.quoteName s).toList ++ rest) =
      m.lex (.named (some q) s.toList.reverse) rest := by
  rw [hm.quoteName, Text.enclosed, String.toList_ofList, ← lex_naming]
  simp [lex_cons m (.dotted q), lexStep, carriesOn]

theorem lex_string (s : String) (rest : List Char) :
    m.lex .blank ((quoteString s).toList ++ rest) = m.lex (.quoted s.toList.reverse) rest := by
  have hne : ('\'' == m.opening) = false := by simpa using hm.facts.2.2.1.symm
  have h := lex_quotation (m := m) .quoting .quoted '\''
    (fun _ _ => rfl) (fun _ => rfl) [] s.toList rest
  rw [List.append_nil] at h
  rw [quoteString, Text.enclosed, String.toList_ofList, ← h]
  simp [lex_cons m .blank, lexStep, carriesOn, begins, Draft.complete, hne]

omit hm in
theorem lex_letters (hcs : ∀ c ∈ cs, Text.isWordChar c = true) (letters rest : List Char) :
    m.lex (.word letters) (cs ++ rest) = m.lex (.word (cs.reverse ++ letters)) rest := by
  induction cs generalizing letters with
  | nil => rfl
  | cons c cs ih =>
    have hc : m.carriesOn (.word letters) c = some (.word (c :: letters)) := by
      simp [carriesOn, hcs c List.mem_cons_self]
    rw [List.cons_append, lex_cons_some hc, ih (fun x hx => hcs x (List.mem_cons_of_mem c hx))]
    simp

theorem lex_word (hne : cs ≠ []) (hcs : ∀ c ∈ cs, Text.isWordChar c = true) (rest : List Char) :
    m.lex .blank (cs ++ rest) = m.lex (.word cs.reverse) rest := by
  cases cs with
  | nil => exact absurd rfl hne
  | cons c cs =>
    obtain ⟨hc, hcs⟩ := List.forall_mem_cons.mp hcs
    have hplain := Text.isPlain_of_isWordChar hc
    have hopening : c ≠ m.opening := by
      rintro rfl
      simp [hm.facts.1] at hplain
    have hquote : c ≠ '\'' := by
      rintro rfl
      exact absurd hc (by decide)
    have hbegins : m.lexStep .blank c = (.word [c], []) := by
      simp [lexStep, carriesOn, begins, Draft.complete, hopening, hquote, hc]
    rw [List.cons_append, lex_cons, hbegins, List.nil_append, lex_letters hcs, List.reverse_cons]

omit hm in
theorem toList_tableName (n : Nat) : (tableName n).toList = 'T' :: Nat.toDigits 10 n := by
  simp [tableName]

theorem lex_table (n : Nat) (rest : List Char) :
    m.lex .blank ((tableName n).toList ++ rest) =
      m.lex (.word (tableName n).toList.reverse) rest := by
  refine lex_word hm (by simp [toList_tableName]) ?_ rest
  rw [toList_tableName]
  refine List.forall_mem_cons.mpr ⟨by decide, fun c hc => ?_⟩
  exact Text.isWordChar_of_isDigit (Nat.isDigit_of_mem_toDigits (by decide) (by decide) hc)

omit hm in
theorem scan_lexeme {l : Lexeme} (h : m.lex .blank (cs ++ rest) = l :: m.lex .blank rest)
    (awaited : Awaited) :
    m.scan awaited (cs ++ rest) =
      (Landmark.step awaited l).2 ++ m.scan (Landmark.step awaited l).1 rest := by
  rw [scan, h, ← List.singleton_append, Landmark.all_append]
  simp [Landmark.run, scan]

theorem scan_call {name : String} (hname : Text.isIdentifier name = true) (rest : List Char) :
    m.scan .column (name.toList ++ '(' :: rest) = .opening :: m.scan .column rest := by
  simp only [Text.isIdentifier, Bool.and_eq_true, List.all_eq_true] at hname
  have hne : name.toList ≠ [] := by simpa using hname.1
  have hstop : m.carriesOn (.word name.toList.reverse) '(' = none := by
    have hword : Text.isWordChar '(' = false := by decide
    simp [carriesOn, hword]
  have hlex : m.lex .blank (name.toList ++ '(' :: rest) =
      .word name :: m.lex .blank ('(' :: rest) := by
    rw [lex_word hm hne hname.2, lex_cons_none hstop]
    simp [Draft.complete]
  have hafter : (Awaited.after name).unlabelled = [] := by
    unfold Awaited.after
    repeat' split
    all_goals rfl
  have hopen : m.scan (Awaited.after name) ("(".toList ++ rest) = _ :=
    scan_text hm (by decide) (.inl (by decide)) _
  have hreading : reading (Awaited.after name) "(" =
      (.column, (Awaited.after name).unlabelled ++ [.opening]) := by
    unfold Awaited.after
    repeat' split
    all_goals rfl
  rw [hreading, hafter] at hopen
  rw [scan_lexeme hlex]
  exact hopen

variable (hrest : Text.standsApart rest = true)
include hrest

theorem scan_name (s : String) (awaited : Awaited) :
    m.scan awaited ((d.quoteName s).toList ++ rest) =
      (Landmark.step awaited (.name none s)).2 ++
        m.scan (Landmark.step awaited (.name none s)).1 rest := by
  refine scan_lexeme ?_ awaited
  rw [lex_name hm, lex_apart hm rfl hrest]
  simp [Draft.complete]

theorem scan_string (s : String) :
    m.scan .column ((quoteString s).toList ++ rest) = m.scan .column rest := by
  refine scan_lexeme (l := .string s) ?_ .column
  rw [lex_string hm, lex_apart hm rfl hrest]
  simp [Draft.complete]

theorem scan_table (n : Nat) (awaited : Awaited) :
    m.scan awaited ((tableName n).toList ++ rest) =
      (Landmark.step awaited (.word (tableName n))).2 ++
        m.scan (Landmark.step awaited (.word (tableName n))).1 rest := by
  refine scan_lexeme ?_ awaited
  rw [lex_table hm, lex_apart hm rfl hrest]
  simp [Draft.complete]

theorem scan_tableColumn (n : Nat) (s : String) :
    m.scan .column ((tableName n).toList ++ '.' :: (d.quoteName s).toList ++ rest) =
      .reference (some (.word (tableName n))) s :: m.scan .column rest := by
  refine scan_lexeme (l := .name (some (.word (tableName n))) s) ?_ .column
  have hdot : m.carriesOn (.word (tableName n).toList.reverse) '.' =
      some (.dotted (.word (tableName n))) := by
    have hword : Text.isWordChar '.' = false := by decide
    simp [carriesOn, hword]
  rw [List.append_assoc, lex_table hm, List.cons_append, lex_cons_some hdot, lex_dotted hm,
    lex_apart hm rfl hrest]
  simp [Draft.complete]

theorem scan_nameColumn (t s : String) :
    m.scan .column ((d.quoteName t).toList ++ '.' :: (d.quoteName s).toList ++ rest) =
      .reference (some (.name t)) s :: m.scan .column rest := by
  refine scan_lexeme (l := .name (some (.name t)) s) ?_ .column
  have hdot : m.carriesOn (.named none t.toList.reverse) '.' = some (.dotted (.name t)) := by
    have hclosing : '.' ≠ m.closing := by
      intro h
      exact absurd hm.facts.2.2.2.2.2 (by rw [← h]; decide)
    simp [carriesOn, hclosing]
  rw [List.append_assoc, lex_name hm, List.cons_append, lex_cons_some hdot, lex_dotted hm,
    lex_apart hm rfl hrest]
  simp [Draft.complete]

theorem scan_placeholder (i : Nat) :
    m.scan .column ((d.placeholder (parameterName i)).toList ++ rest) = m.scan .column rest := by
  obtain ⟨-, hplain, -, hquote, hopening, -⟩ := hm.facts
  have hsign : ∀ cs, m.lex .blank (m.sign :: cs) = .sign m.sign :: m.lex .blank cs := by
    intro cs
    have hword : Text.isWordChar m.sign = false := by
      cases hw : Text.isWordChar m.sign with
      | false => rfl
      | true => simp [Text.isPlain_of_isWordChar hw] at hplain
    have hblank : m.sign ≠ ' ' := by
      intro h
      rw [h] at hplain
      exact absurd hplain (by decide)
    simp [lex_cons m .blank m.sign, lexStep, carriesOn, begins, Draft.complete, hopening, hquote,
      hword, hblank]
  have hstep : Landmark.step .column (.sign m.sign) = (.column, []) := by
    have hopen : m.sign ≠ '(' := by
      intro h
      rw [h] at hplain
      exact absurd hplain (by decide)
    have hclose : m.sign ≠ ')' := by
      intro h
      rw [h] at hplain
      exact absurd hplain (by decide)
    simp [Landmark.step, Landmark.ofSign, Awaited.unlabelled, hopen, hclose]
  have hfirst : ∀ cs, m.scan .column (m.sign :: cs) = m.scan .column cs := by
    intro cs
    have h : m.scan .column ([m.sign] ++ cs) = _ := scan_lexeme (hsign cs) .column
    rwa [hstep] at h
  rw [hm.placeholder]
  split
  · have hchars : (parameterName i).toList = 'p' :: Nat.toDigits 10 i := by
      simp [parameterName]
    have hname : Landmark.step .column (.word (parameterName i)) = (.column, []) := by
      simp [Landmark.step, Awaited.after, ← String.toList_inj, hchars]
    have hlex : m.lex .blank ((parameterName i).toList ++ rest) =
        .word (parameterName i) :: m.lex .blank rest := by
      rw [lex_word hm (by simp [hchars]) (isWordChar_parameterName i), lex_apart hm rfl hrest]
      simp [Draft.complete]
    have hsecond := scan_lexeme hlex .column
    rw [hname] at hsecond
    rw [String.toList_append, String.toList_ofList, List.singleton_append, List.cons_append,
      hfirst, hsecond]
    rfl
  · rw [String.toList_ofList, List.singleton_append, hfirst]

end Marks
end QueryTree
