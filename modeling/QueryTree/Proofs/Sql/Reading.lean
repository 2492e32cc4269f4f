import QueryTree.Proofs.Sql.Engine

namespace QueryTree

theorem Dialect.toList_text_cons (d : Dialect) (t : Token) (s : Sql) :
    (d.text (t :: s)).toList = (d.tokenText t).toList ++ (d.text s).toList := by
  simp [text]

theorem Dialect.toList_text_append (d : Dialect) (s u : Sql) :
    (d.text (s ++ u)).toList = (d.text s).toList ++ (d.text u).toList := by
  simp [text]

-- The marks around quoted names, and the sign of a placeholder, with its name behind it or alone.
structure Marks where
  opening : Char
  closing : Char
  sign : Char
  named : Bool

namespace Marks

-- Where a reader is: between tokens, inside a quotation, behind a mark that closed a quotation
-- unless it is doubled, or in the name of a placeholder, whose letters are kept in reverse.
inductive Mode where
  | code
  | quoted (closing : Char)
  | closed (closing : Char)
  | named (letters : List Char)

-- What a character begins between tokens, and the placeholder that it completes.
def enter (m : Marks) (c : Char) : Mode × List String :=
  if c == m.opening then (.quoted m.closing, [])
  else if c == '\'' then (.quoted '\'', [])
  else if c == m.sign then
    if m.named then (.named [c], []) else (.code, [String.ofList [c]])
  else (.code, [])

def pending : Mode → List String
  | .named letters => [String.ofList letters.reverse]
  | _ => []

def step (m : Marks) : Mode → Char → Mode × List String
  | .code, c => m.enter c
  | .quoted q, c => (if c == q then .closed q else .quoted q, [])
  | .closed q, c => if c == q then (.quoted q, []) else m.enter c
  | .named letters, c =>
    if Text.isWordChar c then (.named (c :: letters), [])
    else ((m.enter c).1, pending (.named letters) ++ (m.enter c).2)

def read (m : Marks) (mode : Mode) : List Char → List String
  | [] => pending mode
  | c :: cs => (m.step mode c).2 ++ m.read (m.step mode c).1 cs

def placeholders (m : Marks) (text : String) : List String := m.read .code text.toList

-- Characters inside a quotation are left out, and the marks that double or close it.
def Mode.keeps : Mode → Char → Bool
  | .code, _ | .named _, _ => true
  | .quoted _, _ => false
  | .closed q, c => c != q

-- The characters outside quotations, and where the reader is after the last one.
def view (m : Marks) (mode : Mode) : List Char → List Char × Mode
  | [] => ([], mode)
  | c :: cs =>
    let (seen, last) := m.view (m.step mode c).1 cs
    (if mode.keeps c then c :: seen else seen, last)

-- A text without what is quoted in it, but for the opening marks.
def outside (m : Marks) (text : String) : List Char := (m.view .code text.toList).1

def visible (m : Marks) (d : Dialect) : Token → List Char
  | .name _ => [m.opening]
  | .string _ => ['\'']
  | t => (d.tokenText t).toList

-- All that a reader makes of some characters: those that it keeps, the placeholders that it
-- completes, and where it is after the last one.
structure Pass where
  kept : List Char
  found : List String
  last : Mode

def pass (m : Marks) (mode : Mode) : List Char → Pass
  | [] => ⟨[], [], mode⟩
  | c :: cs =>
    let next := m.pass (m.step mode c).1 cs
    ⟨if mode.keeps c then c :: next.kept else next.kept, (m.step mode c).2 ++ next.found, next.last⟩

end Marks

def Engine.marks : Engine → Marks
  | .postgres _ => ⟨'"', '"', '@', true⟩
  | .sqlite _ => ⟨'"', '"', ':', true⟩
  | .mssql _ _ => ⟨'[', ']', '@', true⟩
  | .mariadb _ => ⟨'\x60', '\x60', '?', false⟩

-- Characters that end what stands before them and begin nothing.
def isSeparator (c : Char) : Bool := [' ', ',', ')', '.'].contains c

theorem isWordChar_of_isSeparator {c : Char} (h : isSeparator c = true) :
    Text.isWordChar c = false := by
  simp only [isSeparator, List.contains_cons, List.contains_nil, Bool.or_false, Bool.or_eq_true,
    beq_iff_eq] at h
  obtain rfl | rfl | rfl | rfl := h <;> decide

namespace Token

-- Tokens that go on until something apart from them follows.
def isOpenEnded : Token → Bool
  | .name _ | .string _ | .placeholder _ => true
  | _ => false

def opensApart : Token → Bool
  | .text s => s.toList.head?.any isSeparator
  | _ => false

def isPlain : Token → Bool
  | .text s | .literal s => Text.allPlain s
  | .supplied _ => false
  | .name _ | .table _ | .string _ | .placeholder _ => true

def place? : Token → Option Nat
  | .placeholder i => some i
  | _ => none

end Token

namespace Sql

-- The parameters that the placeholders of a rendering stand for, from left to right.
def places (s : Sql) : List Nat := s.filterMap Token.place?

-- Whether a rendering may follow any other without running into it.
def opensApart : Sql → Bool
  | [] => true
  | t :: _ => t.opensApart

-- Plain tokens, with something apart after each one that is open at its end.
def isClean : Sql → Bool
  | [] => true
  | t :: rest => t.isPlain && (!t.isOpenEnded || opensApart rest) && isClean rest

theorem opensApart_append {s r : Sql} (hs : s.opensApart = true) (hr : r.opensApart = true) :
    opensApart (s ++ r) = true := by
  cases s with
  | nil => exact hr
  | cons t rest => exact hs

theorem isClean_append {s r : Sql} (hs : s.isClean = true) (hr : r.isClean = true)
    (happart : r.opensApart = true) : isClean (s ++ r) = true := by
  induction s with
  | nil => exact hr
  | cons t rest ih =>
    simp only [isClean, Bool.and_eq_true, Bool.or_eq_true] at hs
    obtain ⟨⟨hplain, hend⟩, hrest⟩ := hs
    simp only [List.cons_append, isClean, Bool.and_eq_true, Bool.or_eq_true]
    refine ⟨⟨hplain, ?_⟩, ih hrest⟩
    cases hend with
    | inl h => exact .inl h
    | inr h => exact .inr (opensApart_append h happart)

end Sql

namespace Marks

-- Whether a reader can tell the marks from each other and from plain text.
def areApart (m : Marks) : Bool :=
  !Text.isPlain m.opening && !Text.isPlain m.sign && m.opening != '\'' && m.sign != '\'' &&
    m.sign != m.opening && !isSeparator m.closing

-- The marks suit a dialect that writes names and placeholders with them.
structure Suits (m : Marks) (d : Dialect) : Prop where
  quoteName : ∀ s, d.quoteName s = Text.enclosed m.opening m.closing s
  placeholder : ∀ name, d.placeholder name =
    if m.named then String.ofList [m.sign] ++ name else String.ofList [m.sign]
  apart : m.areApart = true

theorem suits (g : Engine) : g.marks.Suits g.dialect := by
  cases g <;> exact ⟨fun _ => rfl, fun _ => rfl, rfl⟩

theorem Suits.facts {m : Marks} {d : Dialect} (hm : m.Suits d) :
    Text.isPlain m.opening = false ∧ Text.isPlain m.sign = false ∧ m.opening ≠ '\'' ∧
      m.sign ≠ '\'' ∧ m.sign ≠ m.opening ∧ isSeparator m.closing = false := by
  have h := hm.apart
  simp only [areApart, Bool.and_eq_true, Bool.not_eq_true', bne_iff_ne] at h
  obtain ⟨⟨⟨⟨⟨h₁, h₂⟩, h₃⟩, h₄⟩, h₅⟩, h₆⟩ := h
  exact ⟨h₁, h₂, h₃, h₄, h₅, h₆⟩

-- Modes in which a separator ends whatever went before it.
def Mode.isIdle : Mode → Bool
  | .code | .named _ => true
  | .quoted _ => false
  | .closed q => !isSeparator q

variable {m : Marks} {d : Dialect}

theorem read_eq (mode : Mode) (cs : List Char) :
    m.read mode cs = (m.pass mode cs).found ++ pending (m.pass mode cs).last := by
  induction cs generalizing mode with
  | nil => rfl
  | cons c cs ih => simp only [read, pass, ih, List.append_assoc]

theorem view_eq (mode : Mode) (cs : List Char) :
    m.view mode cs = ((m.pass mode cs).kept, (m.pass mode cs).last) := by
  induction cs generalizing mode with
  | nil => rfl
  | cons c cs ih => simp only [view, pass, ih]

theorem pass_append {mode : Mode} {cs ds : List Char} {p q : Pass} (hp : m.pass mode cs = p)
    (hq : m.pass p.last ds = q) :
    m.pass mode (cs ++ ds) = ⟨p.kept ++ q.kept, p.found ++ q.found, q.last⟩ := by
  subst hp hq
  induction cs generalizing mode with
  | nil => rfl
  | cons c cs ih =>
    simp only [List.cons_append, pass, ih, List.append_assoc]
    split <;> rfl

theorem pass_doubled (q : Char) (cs : List Char) :
    m.pass (.quoted q) (Text.doubled q cs ++ [q]) = ⟨[], [], .closed q⟩ := by
  induction cs with
  | nil => simp [Text.doubled, pass, step, Mode.keeps]
  | cons c cs ih =>
    simp only [Text.doubled, beq_iff_eq] at ih
    by_cases hc : c = q
    · subst hc
      simp [Text.doubled, pass, step, Mode.keeps, ih]
    · simp [Text.doubled, pass, step, Mode.keeps, hc, ih]

theorem pass_enclosed {opening closing : Char} (h : m.enter opening = (.quoted closing, []))
    (s : String) :
    m.pass .code (Text.enclosed opening closing s).toList = ⟨[opening], [], .closed closing⟩ := by
  rw [Text.enclosed, String.toList_ofList]
  simp only [List.cons_append, pass, step, h, pass_doubled, Mode.keeps, if_true, List.nil_append]

theorem pass_word {cs : List Char} (hcs : ∀ c ∈ cs, Text.isWordChar c = true)
    (letters : List Char) :
    m.pass (.named letters) cs = ⟨cs, [], .named (cs.reverse ++ letters)⟩ := by
  induction cs generalizing letters with
  | nil => rfl
  | cons c cs ih =>
    obtain ⟨hc, hcs⟩ := List.forall_mem_cons.mp hcs
    simp only [pass, step, hc, if_true, ih hcs, Mode.keeps, List.reverse_cons, List.append_assoc,
      List.cons_append, List.nil_append]

theorem isWordChar_parameterName (i : Nat) :
    ∀ c ∈ (parameterName i).toList, Text.isWordChar c = true := by
  intro c hc
  simp only [parameterName, String.toList_append, List.mem_append, Nat.toString_eq_ofList_toDigits,
    String.toList_ofList] at hc
  cases hc with
  | inl h =>
    obtain rfl : c = 'p' := by simpa using h
    decide
  | inr h =>
    exact Text.isWordChar_of_isDigit (Nat.isDigit_of_mem_toDigits (by decide) (by decide) h)

variable (hm : m.Suits d)
include hm

theorem enter_plain {c : Char} (hc : Text.isPlain c = true) : m.enter c = (.code, []) := by
  obtain ⟨hopen, hmark, -⟩ := hm.facts
  have hopening : c ≠ m.opening := by
    rintro rfl
    simp [hopen] at hc
  have hsign : c ≠ m.sign := by
    rintro rfl
    simp [hmark] at hc
  have hquote : c ≠ '\'' := by
    rintro rfl
    exact absurd hc (by decide)
  simp [enter, hopening, hsign, hquote]

theorem pass_plain {cs : List Char} (hcs : cs.all Text.isPlain = true) :
    m.pass .code cs = ⟨cs, [], .code⟩ := by
  induction cs with
  | nil => rfl
  | cons c cs ih =>
    simp only [List.all_cons, Bool.and_eq_true] at hcs
    simp only [pass, step, enter_plain hm hcs.1, ih hcs.2, Mode.keeps, if_true, List.nil_append]

theorem step_separator {mode : Mode} (hmode : mode.isIdle = true) {c : Char}
    (hc : isSeparator c = true) (hplain : Text.isPlain c = true) :
    m.step mode c = (.code, pending mode) ∧ mode.keeps c = true := by
  have henter := enter_plain hm hplain
  cases mode with
  | code => simp [step, henter, pending, Mode.keeps]
  | quoted q => simp [Mode.isIdle] at hmode
  | closed q =>
    have hne : c ≠ q := by
      rintro rfl
      simp [Mode.isIdle, hc] at hmode
    simp [step, henter, pending, Mode.keeps, hne]
  | named letters =>
    simp [step, henter, pending, Mode.keeps, isWordChar_of_isSeparator hc]

theorem pass_text {mode : Mode} (hmode : mode.isIdle = true) {t : String}
    (ht : Text.allPlain t = true) (hstart : mode = .code ∨ t.toList.head?.any isSeparator = true) :
    m.pass mode t.toList = ⟨t.toList, pending mode, .code⟩ := by
  cases hstart with
  | inl h =>
    subst h
    exact pass_plain hm ht
  | inr h =>
    unfold Text.allPlain at ht
    cases hcs : t.toList with
    | nil => simp [hcs] at h
    | cons c cs =>
      rw [hcs] at h ht
      simp only [List.all_cons, Bool.and_eq_true] at ht
      obtain ⟨hstep, hkeeps⟩ := step_separator hm hmode (by simpa using h) ht.1
      simp only [pass, hstep, hkeeps, pass_plain hm ht.2, if_true, List.append_nil]

-- The sign is a placeholder by itself, or begins one that the next token completes.
theorem pass_placeholder {name : String} (hname : ∀ c ∈ name.toList, Text.isWordChar c = true) :
    ∃ found last, last.isIdle = true ∧ found ++ pending last = [d.placeholder name] ∧
      m.pass .code (d.placeholder name).toList = ⟨(d.placeholder name).toList, found, last⟩ := by
  obtain ⟨-, -, -, hsq, hso, -⟩ := hm.facts
  have hopening : (m.sign == m.opening) = false := by simpa using hso
  have hquote : (m.sign == '\'') = false := by simpa using hsq
  rw [hm.placeholder name]
  cases hnamed : m.named with
  | true =>
    refine ⟨[], .named (name.toList.reverse ++ [m.sign]), rfl, by simp [pending], ?_⟩
    simp only [if_true, String.toList_append, String.toList_ofList, List.cons_append,
      List.nil_append, pass, step, enter, hopening, hquote, hnamed, beq_self_eq_true,
      Bool.false_eq_true, if_false, pass_word hname, Mode.keeps]
  | false =>
    refine ⟨_, .code, rfl, List.append_nil _, ?_⟩
    simp [pass, step, enter, hopening, hquote, hnamed, Mode.keeps]

theorem pass_token {t : Token} (ht : t.isPlain = true) {mode : Mode} (hmode : mode.isIdle = true)
    (hstart : mode = .code ∨ t.opensApart = true) :
    ∃ found last, m.pass mode (d.tokenText t).toList = ⟨m.visible d t, found, last⟩ ∧
      last.isIdle = true ∧ (t.isOpenEnded = false → last = .code) ∧
      found ++ pending last =
        pending mode ++ t.place?.toList.map fun i => d.placeholder (parameterName i) := by
  have hcode : t.opensApart = false → mode = .code := fun h => hstart.resolve_right (by simp [h])
  cases t with
  | text u => exact ⟨_, _, pass_text hm hmode ht hstart, rfl, fun _ => rfl, rfl⟩
  | literal u =>
    obtain rfl := hcode rfl
    exact ⟨_, _, pass_plain hm ht, rfl, fun _ => rfl, rfl⟩
  | supplied u => simp [Token.isPlain] at ht
  | table n =>
    obtain rfl := hcode rfl
    have hn : Text.allPlain (tableName n) = true := by
      rw [tableName, Text.allPlain_append, Text.allPlain_nat]
      decide
    exact ⟨_, _, pass_plain hm hn, rfl, fun _ => rfl, rfl⟩
  | name u =>
    obtain rfl := hcode rfl
    have henter : m.enter m.opening = (.quoted m.closing, []) := by simp [enter]
    refine ⟨[], .closed m.closing, ?_, by simp [Mode.isIdle, hm.facts],
      by simp [Token.isOpenEnded], rfl⟩
    rw [Dialect.tokenText, hm.quoteName, pass_enclosed henter]
    rfl
  | string u =>
    obtain rfl := hcode rfl
    have hne : ('\'' == m.opening) = false := by simpa using hm.facts.2.2.1.symm
    have henter : m.enter '\'' = (.quoted '\'', []) := by simp [enter, hne]
    exact ⟨_, _, pass_enclosed henter u, by decide, by simp [Token.isOpenEnded], rfl⟩
  | placeholder i =>
    obtain rfl := hcode rfl
    obtain ⟨found, last, hlast, hfound, hpass⟩ := pass_placeholder hm (isWordChar_parameterName i)
    exact ⟨found, last, hpass, hlast, by simp [Token.isOpenEnded], hfound⟩

-- What is pending between two tokens is completed by the second.
theorem pass_tokens {s : Sql} (hs : s.isClean = true) {mode : Mode} (hmode : mode.isIdle = true)
    (hstart : mode = .code ∨ s.opensApart = true) :
    ∃ found last, m.pass mode (d.text s).toList = ⟨s.flatMap (m.visible d), found, last⟩ ∧
      found ++ pending last =
        pending mode ++ s.places.map fun i => d.placeholder (parameterName i) := by
  induction s generalizing mode with
  | nil => exact ⟨[], mode, by simp [Dialect.text, pass], by simp [Sql.places]⟩
  | cons t rest ih =>
    simp only [Sql.isClean, Bool.and_eq_true, Bool.or_eq_true, Bool.not_eq_true'] at hs
    obtain ⟨⟨hplain, hend⟩, hrest⟩ := hs
    obtain ⟨found, last, hpass, hlast, hclosed, hfound⟩ := pass_token hm hplain hmode hstart
    obtain ⟨found', last', hpass', hfound'⟩ := ih hrest hlast (hend.imp_left hclosed)
    have hplaces : Sql.places (t :: rest) = t.place?.toList ++ Sql.places rest := by
      rw [Sql.places, List.filterMap_cons]
      cases t.place? <;> rfl
    refine ⟨found ++ found', last', ?_, ?_⟩
    · rw [Dialect.toList_text_cons, List.flatMap_cons]
      exact pass_append hpass hpass'
    · rw [List.append_assoc, hfound', ← List.append_assoc, hfound, hplaces, List.map_append,
        List.append_assoc]

end Marks

theorem Engine.placeholders_text (g : Engine) {s : Sql} (hs : s.isClean = true) :
    g.marks.placeholders (g.dialect.text s) =
      s.places.map fun i => g.dialect.placeholder (parameterName i) := by
  obtain ⟨found, last, hpass, hfound⟩ := Marks.pass_tokens (Marks.suits g) hs rfl (.inl rfl)
  rw [Marks.placeholders, Marks.read_eq, hpass]
  exact hfound

theorem Engine.outside_text (g : Engine) {s : Sql} (hs : s.isClean = true) :
    g.marks.outside (g.dialect.text s) = s.flatMap (g.marks.visible g.dialect) := by
  obtain ⟨found, last, hpass, -⟩ := Marks.pass_tokens (Marks.suits g) hs rfl (.inl rfl)
  rw [Marks.outside, Marks.view_eq, hpass]

theorem Engine.text_eq_empty_iff (g : Engine) (s : Sql) :
    g.dialect.text s = "" ↔ s.isBlank = true := by
  have htoken : ∀ t : Token, g.dialect.tokenText t = "" ↔ t.isBlank = true := by
    intro t
    cases t with
    | text u | literal u | supplied u => simp [Dialect.tokenText, Token.isBlank]
    | table n => simp [Dialect.tokenText, Token.isBlank, tableName, ← String.toList_inj]
    | string u => simp [Dialect.tokenText, Token.isBlank, quoteString, Text.enclosed]
    | name u =>
      simp [Dialect.tokenText, Token.isBlank, (Marks.suits g).quoteName, Text.enclosed]
    | placeholder i =>
      rw [Dialect.tokenText, (Marks.suits g).placeholder]
      split <;> simp [Token.isBlank, ← String.toList_inj]
  induction s with
  | nil => simp [Dialect.text, Sql.isBlank]
  | cons t s ih =>
    have hcons : g.dialect.text (t :: s) = g.dialect.tokenText t ++ g.dialect.text s := by
      simp [Dialect.text, String.join_cons]
    have hblank : Sql.isBlank (t :: s) = true ↔ t.isBlank = true ∧ Sql.isBlank s = true := by
      simp [Sql.isBlank]
    rw [hcons, String.append_eq_empty_iff, hblank]
    exact and_congr (htoken t) ih

end QueryTree
