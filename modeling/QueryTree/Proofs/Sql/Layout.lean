import QueryTree.Proofs.Sql.Reading

namespace QueryTree

-- What stands before a quoted name, with a dot between them.
inductive Qualifier where
  | word (s : String)
  | name (s : String)
deriving DecidableEq

inductive Lexeme where
  | word (s : String)
  | string (s : String)
  | name (qualifier : Option Qualifier) (s : String)
  | sign (c : Char)
deriving DecidableEq

def Qualifier.lexeme : Qualifier → Lexeme
  | .word s => .word s
  | .name s => .name none s

namespace Lexeme

-- A lexeme in the making. Letters are kept in reverse. A quotation that has been closed goes on
-- when its mark is doubled.
inductive Draft where
  | blank
  | word (letters : List Char)
  | dotted (qualifier : Qualifier)
  | naming (qualifier : Option Qualifier) (letters : List Char)
  | named (qualifier : Option Qualifier) (letters : List Char)
  | quoting (letters : List Char)
  | quoted (letters : List Char)
deriving DecidableEq

namespace Draft

def complete : Draft → List Lexeme
  | .blank | .naming .. | .quoting _ => []
  | .word letters => [.word (String.ofList letters.reverse)]
  | .dotted q => [q.lexeme, .sign '.']
  | .named q letters => [.name q (String.ofList letters.reverse)]
  | .quoted letters => [.string (String.ofList letters.reverse)]

def isOutside : Draft → Bool
  | .naming .. | .quoting _ => false
  | _ => true

-- Without a quotation behind it that might go on.
def isApart : Draft → Bool
  | .blank | .word _ | .dotted _ => true
  | _ => false

end Draft
end Lexeme

namespace Marks

open Lexeme (Draft)

-- What a character begins between lexemes.
def begins (m : Marks) (c : Char) : Draft × List Lexeme :=
  if c == m.opening then (.naming none [], [])
  else if c == '\'' then (.quoting [], [])
  else if Text.isWordChar c then (.word [c], [])
  else if c == ' ' then (.blank, [])
  else (.blank, [.sign c])

-- How a character carries on what has been begun, if it does.
def carriesOn (m : Marks) : Draft → Char → Option Draft
  | .blank, _ => none
  | .word letters, c =>
    if Text.isWordChar c then some (.word (c :: letters))
    else if c == '.' then some (.dotted (.word (String.ofList letters.reverse)))
    else none
  | .dotted q, c => if c == m.opening then some (.naming (some q) []) else none
  | .naming q letters, c =>
    some (if c == m.closing then .named q letters else .naming q (c :: letters))
  | .named q letters, c =>
    if c == m.closing then some (.naming q (c :: letters))
    else if c == '.' && q.isNone then some (.dotted (.name (String.ofList letters.reverse)))
    else none
  | .quoting letters, c => some (if c == '\'' then .quoted letters else .quoting (c :: letters))
  | .quoted letters, c => if c == '\'' then some (.quoting (c :: letters)) else none

def lexStep (m : Marks) (draft : Draft) (c : Char) : Draft × List Lexeme :=
  match m.carriesOn draft c with
  | some draft => (draft, [])
  | none => ((m.begins c).1, draft.complete ++ (m.begins c).2)

-- The lexemes that are complete after some characters, and what has been begun behind them.
def lexRun (m : Marks) (draft : Draft) : List Char → Draft × List Lexeme
  | [] => (draft, [])
  | c :: cs =>
    let (draft, found) := m.lexStep draft c
    let (draft, more) := m.lexRun draft cs
    (draft, found ++ more)

def lex (m : Marks) (draft : Draft) (cs : List Char) : List Lexeme :=
  (m.lexRun draft cs).2 ++ (m.lexRun draft cs).1.complete

end Marks

-- What matters about a lexeme for the tables and columns of a statement.
inductive Landmark where
  | opening
  | closing
  | source (table : String) (label : Option String)
  | reference (qualifier : Option Qualifier) (column : String)
deriving DecidableEq

-- The names that tables have inside a statement.
def isTableName (s : String) : Bool :=
  match s.toList with
  | 'T' :: digits => !digits.isEmpty && digits.all Char.isDigit
  | _ => false

namespace Landmark

-- What the next name is: a column, or after a keyword a table or a label. Behind a table there may
-- be the name that it has inside the statement.
inductive Awaited where
  | column
  | table
  | label
  | tableLabel (table : String)
deriving DecidableEq

-- A table that no name follows.
def Awaited.unlabelled : Awaited → List Landmark
  | .tableLabel t => [.source t none]
  | _ => []

def Awaited.after (w : String) : Awaited :=
  if w == "FROM" then .table else if w == "AS" then .label else .column

def ofSign (c : Char) : List Landmark :=
  if c == '(' then [.opening] else if c == ')' then [.closing] else []

def step (awaited : Awaited) : Lexeme → Awaited × List Landmark
  | .word w =>
    match awaited with
    | .tableLabel t =>
      if isTableName w then (.column, [.source t (some w)]) else (.after w, [.source t none])
    | _ => (.after w, [])
  | .name q s =>
    match awaited, q with
    | .table, none => (.tableLabel s, [])
    | .label, none => (.column, [])
    | awaited, q => (.column, awaited.unlabelled ++ [.reference q s])
  | .string _ => (.column, awaited.unlabelled)
  | .sign c => (.column, awaited.unlabelled ++ ofSign c)

def run (awaited : Awaited) : List Lexeme → Awaited × List Landmark
  | [] => (awaited, [])
  | l :: ls =>
    let (awaited, found) := step awaited l
    let (awaited, more) := run awaited ls
    (awaited, found ++ more)

def all (awaited : Awaited) (ls : List Lexeme) : List Landmark :=
  (run awaited ls).2 ++ (run awaited ls).1.unlabelled

end Landmark

-- Tables, columns and what stands together in parentheses.
inductive Layout where
  | source (table : String) (label : Option String)
  | reference (qualifier : Option Qualifier) (column : String)
  | group (parts : List Layout)

namespace Layout

structure Source where
  table : String
  label : Option String
deriving DecidableEq

structure Reference where
  qualifier : Option Qualifier
  column : String
deriving DecidableEq

mutual

def landmarks : Layout → List Landmark
  | .source t l => [.source t l]
  | .reference q c => [.reference q c]
  | .group parts => .opening :: allLandmarks parts ++ [.closing]

def allLandmarks : List Layout → List Landmark
  | [] => []
  | p :: ps => p.landmarks ++ allLandmarks ps

end

-- The groups that landmarks make up, from the parts of the open ones, each list in reverse.
def nest : List Landmark → List Layout → List (List Layout) → Option (List Layout)
  | [], parts, [] => some parts.reverse
  | [], _, _ :: _ => none
  | .opening :: ls, parts, around => nest ls [] (parts :: around)
  | .closing :: ls, parts, outer :: around => nest ls (.group parts.reverse :: outer) around
  | .closing :: _, _, [] => none
  | .source t l :: ls, parts, around => nest ls (.source t l :: parts) around
  | .reference q c :: ls, parts, around => nest ls (.reference q c :: parts) around

-- The tables that a list of parts is about itself.
def sources : List Layout → List Source
  | [] => []
  | .source t l :: ps => ⟨t, l⟩ :: sources ps
  | _ :: ps => sources ps

mutual

-- The names given to tables, at any depth.
def labels : Layout → List String
  | .source _ l => l.toList
  | .reference .. => []
  | .group parts => allLabels parts

def allLabels : List Layout → List String
  | [] => []
  | p :: ps => p.labels ++ allLabels ps

end

mutual

-- The references at any depth, each with the tables of the subqueries around it, the innermost
-- first. A subquery is a group that is about tables.
def references (around : List (List Source)) : Layout → List (Reference × List (List Source))
  | .source .. => []
  | .reference q c => [(⟨q, c⟩, around)]
  | .group parts =>
    allReferences (if sources parts = [] then around else sources parts :: around) parts

def allReferences (around : List (List Source)) :
    List Layout → List (Reference × List (List Source))
  | [] => []
  | p :: ps => p.references around ++ allReferences around ps

end

end Layout

namespace Marks

def scan (m : Marks) (awaited : Landmark.Awaited) (cs : List Char) : List Landmark :=
  Landmark.all awaited (m.lex .blank cs)

def layout (m : Marks) (text : String) : Option (List Layout) :=
  Layout.nest (m.scan .column text.toList) [] []

end Marks

namespace Layout

theorem allLandmarks_append (ps qs : List Layout) :
    allLandmarks (ps ++ qs) = allLandmarks ps ++ allLandmarks qs := by
  induction ps with
  | nil => rfl
  | cons p ps ih => simp only [List.cons_append, allLandmarks, ih, List.append_assoc]

theorem allLabels_append (ps qs : List Layout) :
    allLabels (ps ++ qs) = allLabels ps ++ allLabels qs := by
  induction ps with
  | nil => rfl
  | cons p ps ih => simp only [List.cons_append, allLabels, ih, List.append_assoc]

theorem allReferences_append (around : List (List Source)) (ps qs : List Layout) :
    allReferences around (ps ++ qs) = allReferences around ps ++ allReferences around qs := by
  induction ps with
  | nil => rfl
  | cons p ps ih => simp only [List.cons_append, allReferences, ih, List.append_assoc]

theorem sources_append (ps qs : List Layout) : sources (ps ++ qs) = sources ps ++ sources qs := by
  induction ps with
  | nil => rfl
  | cons p ps ih => cases p <;> simp only [List.cons_append, sources, ih]

mutual

theorem nest_landmarks (p : Layout) (ls : List Landmark) (parts : List Layout)
    (around : List (List Layout)) :
    nest (p.landmarks ++ ls) parts around = nest ls (p :: parts) around := by
  cases p with
  | source t l => rfl
  | reference q c => rfl
  | group ps =>
    simp only [landmarks, List.append_assoc, List.cons_append, nest, nest_allLandmarks ps,
      List.nil_append, List.append_nil, List.reverse_reverse]

theorem nest_allLandmarks (ps : List Layout) (ls : List Landmark) (parts : List Layout)
    (around : List (List Layout)) :
    nest (allLandmarks ps ++ ls) parts around = nest ls (ps.reverse ++ parts) around := by
  cases ps with
  | nil => rfl
  | cons p ps =>
    rw [allLandmarks, List.append_assoc, nest_landmarks p, nest_allLandmarks ps]
    simp

end

theorem nest_eq (ps : List Layout) : nest (allLandmarks ps) [] [] = some ps := by
  have h := nest_allLandmarks ps [] [] []
  rw [List.append_nil, List.append_nil] at h
  rw [h, nest, List.reverse_reverse]

mutual

-- What stands around a layout stands around all its references.
theorem references_around (around : List (List Source)) (p : Layout) :
    p.references around = (p.references []).map fun x => (x.1, x.2 ++ around) := by
  cases p with
  | source t l => rfl
  | reference q c => rfl
  | group ps =>
    simp only [references]
    rw [allReferences_around (if sources ps = [] then around else sources ps :: around) ps,
      allReferences_around (if sources ps = [] then [] else [sources ps]) ps, List.map_map]
    by_cases h : sources ps = []
    · simp [h]
    · simp [h]

theorem allReferences_around (around : List (List Source)) (ps : List Layout) :
    allReferences around ps = (allReferences [] ps).map fun x => (x.1, x.2 ++ around) := by
  cases ps with
  | nil => rfl
  | cons p ps =>
    rw [allReferences, allReferences, List.map_append, references_around around p,
      allReferences_around around ps]

end

end Layout

end QueryTree
