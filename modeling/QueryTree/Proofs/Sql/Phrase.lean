import QueryTree.Proofs.Sql.Lexing
import QueryTree.Proofs.Sql.Sound

namespace QueryTree

-- The tables that a resolver gives for an object, by itself or on the other side of a relation.
inductive Resolver.HasTable (r : Resolver) : String → String → Prop where
  | table {object table : String} (h : r.table object = .ok table) : HasTable r object table
  | related {object relation : String} {join : Join} {args : List String}
      (h : r.relation object relation = .ok join) :
      HasTable r join.object (Render.expandTable join.table args)

-- The columns that a resolver gives for an object, the keys of its relations among them.
inductive Resolver.HasColumn (r : Resolver) : String → String → Prop where
  | property {object property : String} {column : ResolvedColumn}
      (h : r.column object property = .ok column) : HasColumn r object column.name
  | localKey {object relation key : String} {join : Join}
      (h : r.relation object relation = .ok join) (hkey : key ∈ join.localKeys) :
      HasColumn r object key
  | foreignKey {object relation key : String} {join : Join}
      (h : r.relation object relation = .ok join) (hkey : key ∈ join.foreignKeys) :
      HasColumn r join.object key

namespace Scope

-- Outside of all subqueries there may be no rows in scope, and then there are no columns.
def IsNamed (s : Scope) : Prop := s.qualifier = none → s.object ≠ ""

def labelText (s : Scope) : Sql :=
  match s.qualifier with
  | some n => [.text " ", .table n]
  | none => []

def selectText (s : Scope) (columns tail : Sql) : Sql :=
  .text "SELECT " :: columns ++ .text " FROM " :: .name s.table :: s.labelText ++ tail

def existsText (s : Scope) (n : Nat) (condition : Sql) : Sql :=
  [.text "EXISTS (SELECT 1 FROM ", .name s.table, .text " ", .table n, .text " WHERE "] ++
    condition ++ [.text ")"]

end Scope

namespace Engine

-- Texts that stand for themselves.
def wordings : List String :=
  ["NULL", "1=1", "0=1", "*", " IS NULL", " IS NOT NULL", " ASC", " DESC", " END"]

inductive Says (g : Engine) : String → Prop where
  | wording {t : String} (h : t ∈ wordings) : Says g t
  | page {skip take : Int} {ordered : Bool} {t : String}
      (h : g.dialect.paging skip take ordered = .ok t) : Says g t

-- The keywords of the clauses behind the table of a query.
def clauses : List String := [" WHERE ", " GROUP BY ", " HAVING ", " ORDER BY "]

-- Texts that something follows.
def leads : List String :=
  [", ", " AND ", " OR ", " = ", " || ", " + ", " ESCAPE ", " THEN ", " ELSE ", " ", "DISTINCT ",
    "CASE WHEN "]

inductive Leads (g : Engine) : String → Prop where
  | fixed {t : String} (h : t ∈ leads) : Leads g t
  | clause {t : String} (h : t ∈ clauses) : Leads g t
  | logic {op : LogicOp} {kw : String} (h : g.dialect.logicKeyword op = some kw) :
      Leads g (" " ++ kw ++ " ")
  | value {op : ValueOp} {kw : String} (h : g.dialect.valueKeyword op = some kw) :
      Leads g (" " ++ kw ++ " ")
  | negation {kw : String} (h : g.dialect.unaryKeyword .not = some kw) : Leads g (kw ++ " ")

-- Texts that open a parenthesis.
def openings : List String := ["(", "REPLACE(", "CONCAT("]

-- What may stand behind the table of a query.
inductive Follows (g : Engine) : Sql → Prop where
  | nothing : Follows g []
  | clause {t : String} {s : Sql} (h : t ∈ clauses) : Follows g (.text t :: s)
  | page {skip take : Int} {ordered : Bool} {t : String}
      (h : g.dialect.paging skip take ordered = .ok t) (hne : t ≠ "") :
      Follows g [.text " ", .text t]

end Engine

-- From the one output to the other nothing is bound, though tables may be numbered.
structure Output.Idle (out out' : Output) : Prop where
  tables : out.tables ≤ out'.tables
  params : out'.params = out.params

namespace Output.Idle

theorem refl (out : Output) : Idle out out := ⟨Nat.le_refl _, rfl⟩

theorem trans {out mid out' : Output} (h : Idle out mid) (h' : Idle mid out') : Idle out out' :=
  ⟨Nat.le_trans h.tables h'.tables, h'.params.trans h.params⟩

end Output.Idle

-- A text inside the rows of the given scopes, the innermost first. What may stand directly behind
-- the sign of an operator is left open.
inductive Phrase (g : Engine) (r : Resolver) (bare : UnaryOp → Sql → Prop) :
    List Scope → Output → Sql → Output → Prop where
  | blank {scopes : List Scope} {out : Output} : Phrase g r bare scopes out [] out
  | wording {scopes : List Scope} {out : Output} {t : String} (ht : g.Says t) :
      Phrase g r bare scopes out [.text t] out
  | literal {scopes : List Scope} {out : Output} {v : Value} {t : String}
      (ht : g.dialect.literal v = .ok t) : Phrase g r bare scopes out [.literal t] out
  | string {scopes : List Scope} {out : Output} {t : String} :
      Phrase g r bare scopes out [.string t] out
  | placeholder {scopes : List Scope} {out : Output} {w : DriverValue} :
      Phrase g r bare scopes out [.placeholder out.params.size]
        { out with params := out.params.push w }
  | column {scope : Scope} {outer : List Scope} {out : Output} {c : String}
      (hnamed : scope.IsNamed) (hc : r.HasColumn scope.object c) :
      Phrase g r bare (scope :: outer) out (scope.columnText c) out
  | outerColumn {own scope : Scope} {outer : List Scope} {out : Output} {c : String}
      (hscope : scope ∈ outer) (hnamed : scope.IsNamed) (hc : r.HasColumn scope.object c) :
      Phrase g r bare (own :: outer) out [Render.qualifierOf scope, .text ".", .name c] out
  | append {scopes : List Scope} {out mid out' : Output} {s u : Sql}
      (hs : Phrase g r bare scopes out s mid) (hu : Phrase g r bare scopes mid u out')
      (hapart : u.standsApart = true) : Phrase g r bare scopes out (s ++ u) out'
  | lead {scopes : List Scope} {out out' : Output} {t : String} {s : Sql} (ht : g.Leads t)
      (hs : Phrase g r bare scopes out s out') : Phrase g r bare scopes out (.text t :: s) out'
  | sign {scopes : List Scope} {out out' : Output} {op : UnaryOp} {kw : String} {s : Sql}
      (hop : op ≠ .not) (hkw : g.dialect.unaryKeyword op = some kw)
      (hs : Phrase g r bare scopes out s out') (hbare : (∃ t, s = Sql.enclosed t) ∨ bare op s) :
      Phrase g r bare scopes out (.text kw :: s) out'
  | within {scopes : List Scope} {out out' : Output} {t : String} {s : Sql}
      (ht : t ∈ Engine.openings) (hs : Phrase g r bare scopes out s out') :
      Phrase g r bare scopes out (.text t :: s ++ [.text ")"]) out'
  | call {scopes : List Scope} {out out' : Output} {name : String} {s : Sql}
      (hname : Text.isIdentifier name = true) (hs : Phrase g r bare scopes out s out') :
      Phrase g r bare scopes out (.text name :: Sql.enclosed s) out'
  | labelled {scopes : List Scope} {out out' : Output} {s : Sql} {label : String}
      (hs : Phrase g r bare scopes out s out') :
      Phrase g r bare scopes out (s ++ [.text " AS ", .name label]) out'
  | related {scopes : List Scope} {out out' : Output} {m : Nat} {scope : Scope} {s : Sql}
      (hm : out.tables < m) (hscope : scope.qualifier = some m)
      (htable : r.HasTable scope.object scope.table)
      (hs : Phrase g r bare (scope :: scopes) { out with tables := m } s out') :
      Phrase g r bare scopes out (scope.existsText m s) out'
  | subquery {scopes : List Scope} {out mid out' : Output} {m : Nat} {scope : Scope}
      {columns tail : Sql} (hm : out.tables < m) (hscope : scope.qualifier = some m)
      (htable : r.HasTable scope.object scope.table)
      (hcolumns : Phrase g r bare (scope :: scopes) { out with tables := m } columns mid)
      (htail : Phrase g r bare (scope :: scopes) mid tail out') (hfollows : g.Follows tail) :
      Phrase g r bare scopes out (Sql.enclosed (scope.selectText columns tail)) out'
  -- Something else may have been rendered without a trace.
  | wider {scopes : List Scope} {out mid mid' out' : Output} {s : Sql} (h : out.Idle mid)
      (hs : Phrase g r bare scopes mid s mid') (h' : mid'.Idle out') :
      Phrase g r bare scopes out s out'

inductive Phrases (g : Engine) (r : Resolver) (bare : UnaryOp → Sql → Prop)
    (scopes : List Scope) : Output → List Sql → Output → Prop where
  | nil {out out' : Output} (h : out.Idle out') : Phrases g r bare scopes out [] out'
  | cons {out mid out' : Output} {s : Sql} {ss : List Sql} (hs : Phrase g r bare scopes out s mid)
      (hss : Phrases g r bare scopes mid ss out') : Phrases g r bare scopes out (s :: ss) out'

-- A query for the rows of the innermost scope.
def Selects (g : Engine) (r : Resolver) (bare : UnaryOp → Sql → Prop) (scope : Scope)
    (outer : List Scope) (out : Output) (s : Sql) (out' : Output) : Prop :=
  ∃ columns tail mid, Phrase g r bare (scope :: outer) out columns mid ∧
    Phrase g r bare (scope :: outer) mid tail out' ∧ g.Follows tail ∧
    s = scope.selectText columns tail

namespace Engine

variable {g : Engine} {t : String}

theorem Says.allPlain (h : g.Says t) : Text.allPlain t = true := by
  cases h with
  | wording h => exact (by decide : ∀ t ∈ wordings, Text.allPlain t = true) t h
  | page h => exact g.allPlain_paging h

theorem Leads.allPlain (h : g.Leads t) : Text.allPlain t = true := by
  cases h with
  | fixed h => exact (by decide : ∀ t ∈ leads, Text.allPlain t = true) t h
  | clause h => exact (by decide : ∀ t ∈ clauses, Text.allPlain t = true) t h
  | logic h => exact (Bool.and_eq_true_iff.mp (Sql.isInfix_spaced (g.allPlain_logicKeyword h))).1
  | value h => exact (Bool.and_eq_true_iff.mp (Sql.isInfix_spaced (g.allPlain_valueKeyword h))).1
  | negation h =>
    rw [Text.allPlain_append, g.allPlain_unaryKeyword h]
    decide

theorem Follows.standsApart {s : Sql} (h : g.Follows s) : s.standsApart = true := by
  have table : ∀ t ∈ clauses, t.toList.head?.any Text.isEnd = true := by decide
  cases h with
  | nothing => rfl
  | clause h => exact table _ h
  | page => rfl

end Engine

theorem Sql.opensApart_of_standsApart {s : Sql} (h : s.standsApart = true) :
    s.opensApart = true := by
  have hend : [' ', ',', ')'].all isSeparator = true := by decide
  cases s with
  | nil => rfl
  | cons token s =>
    cases token with
    | text t =>
      simp only [standsApart, opensApart, Token.opensApart] at h ⊢
      cases hcs : t.toList.head? with
      | none => simp [hcs] at h
      | some c =>
        rw [hcs] at h
        exact List.all_eq_true.mp hend c (List.contains_iff_mem.mp h)
    | _ => cases h

theorem Render.Sound.select {g : Engine} {scope : Scope} {out mid out' : Output}
    {columns tail : Sql} (hcolumns : Sound out columns mid) (htail : Sound mid tail out')
    (hfollows : g.Follows tail) : Sound out (scope.selectText columns tail) out' := by
  have hlabel : Sound mid scope.labelText mid ∧ scope.labelText.opensApart = true := by
    unfold Scope.labelText
    split <;> exact ⟨.still rfl rfl rfl, rfl⟩
  have hfrom := hcolumns.between (t := " FROM ") (by decide)
    (hlabel.1.named (n := scope.table) hlabel.2)
  exact (hfrom.append htail (Sql.opensApart_of_standsApart hfollows.standsApart)).lead (by decide)

namespace Phrase

open Render (Sound)

variable {g : Engine} {r : Resolver} {bare : UnaryOp → Sql → Prop} {scopes : List Scope}
  {out mid out' : Output} {s u : Sql} {t : String}

theorem le (h : Phrase g r bare scopes out s out') : out.tables ≤ out'.tables := by
  induction h with
  | blank | wording | literal | string | placeholder | column | outerColumn => exact Nat.le_refl _
  | append _ _ _ ih₁ ih₂ => exact Nat.le_trans ih₁ ih₂
  | lead _ _ ih | sign _ _ _ _ ih | within _ _ ih | call _ _ ih | labelled _ ih => exact ih
  | related hm _ _ _ ih => exact Nat.le_trans (Nat.le_of_lt hm) ih
  | subquery hm _ _ _ _ _ ih₁ ih₂ =>
    exact Nat.le_trans (Nat.le_of_lt hm) (Nat.le_trans ih₁ ih₂)
  | wider h _ h' ih => exact Nat.le_trans h.tables (Nat.le_trans ih h'.tables)

theorem sound (h : Phrase g r bare scopes out s out') : Sound out s out' := by
  induction h with
  | blank => exact .still rfl rfl rfl
  | wording ht => exact .lead (.still rfl rfl rfl) ht.allPlain
  | literal ht =>
    refine .still rfl ?_ rfl
    simp [Sql.isClean, Token.isPlain, Token.isOpenEnded, g.allPlain_literal ht]
  | string => exact .still rfl rfl rfl
  | @placeholder _ _ w => exact ⟨⟨[w], by simp, rfl⟩, rfl⟩
  | column =>
    unfold Scope.columnText
    split <;> exact .still rfl rfl rfl
  | outerColumn =>
    unfold Render.qualifierOf
    split <;> exact .still rfl rfl rfl
  | append _ _ hapart ihs ihu => exact ihs.append ihu (Sql.opensApart_of_standsApart hapart)
  | lead ht _ ih => exact ih.lead ht.allPlain
  | sign _ hkw _ _ ih => exact ih.lead (g.allPlain_unaryKeyword hkw)
  | within ht _ ih =>
    refine (ih.lead ?_).between (by decide) (.still rfl rfl rfl)
    exact (by decide : ∀ t ∈ Engine.openings, Text.allPlain t = true) _ ht
  | call hname _ ih => exact ih.enclosed.lead (Text.allPlain_of_isIdentifier hname)
  | labelled _ ih => exact ih.between (by decide) (.still rfl rfl rfl)
  | @related _ _ _ m _ _ _ _ _ _ ih =>
    have hend := ih.between (t := ")") (r := []) (by decide) (.still rfl rfl rfl)
    have htable := ((hend.lead (t := " WHERE ") (by decide)).table m).lead (t := " ") (by decide)
    exact ((htable.named rfl).lead (t := "EXISTS (SELECT 1 FROM ") (by decide)).of_params rfl
  | subquery _ _ _ _ _ hfollows ihc iht => exact (ihc.select iht hfollows).enclosed.of_params rfl
  | wider h _ h' ih => exact (ih.of_params h.params).to_params h'.params

theorem idle (h : Phrase g r bare scopes out s out') (hs : s.isBlank = true) : out.Idle out' :=
  ⟨h.le, h.sound.params_eq (Sql.places_eq_nil_of_isBlank hs)⟩

theorem nothing (h : out.Idle out') : Phrase g r bare scopes out [] out' :=
  .wider (.refl out) .blank h

theorem worded (ht : t ∈ Engine.wordings) (h : out.Idle out') :
    Phrase g r bare scopes out [.text t] out' :=
  .wider (.refl out) (.wording (.wording ht)) h

theorem between (hs : Phrase g r bare scopes out s mid) (ht : g.Leads t)
    (hapart : t.toList.head?.any Text.isEnd = true) (hu : Phrase g r bare scopes mid u out') :
    Phrase g r bare scopes out (s ++ .text t :: u) out' :=
  .append hs (.lead ht hu) hapart

theorem enclosed (hs : Phrase g r bare scopes out s out') :
    Phrase g r bare scopes out (Sql.enclosed s) out' :=
  .within (by decide) hs

end Phrase

namespace Phrases

variable {g : Engine} {r : Resolver} {bare : UnaryOp → Sql → Prop} {scopes : List Scope}
  {out mid out' : Output} {s : Sql} {ss us : List Sql} {t : String}

theorem idle (h : Phrases g r bare scopes out [] out') : out.Idle out' := by
  cases h with
  | nil h => exact h

theorem earlier (h : out.Idle mid) (hss : Phrases g r bare scopes mid ss out') :
    Phrases g r bare scopes out ss out' := by
  cases hss with
  | nil h' => exact .nil (h.trans h')
  | cons hs hss => exact .cons (.wider h hs (.refl _)) hss

theorem append (h₁ : Phrases g r bare scopes out ss mid)
    (h₂ : Phrases g r bare scopes mid us out') : Phrases g r bare scopes out (ss ++ us) out' := by
  induction h₁ with
  | nil h => exact h₂.earlier h
  | cons hs _ ih => exact .cons hs (ih h₂)

theorem single (hs : Phrase g r bare scopes out s out') : Phrases g r bare scopes out [s] out' :=
  .cons hs (.nil (.refl _))

theorem head (h : Phrases g r bare scopes out [s] out') : Phrase g r bare scopes out s out' := by
  cases h with
  | cons hs hss => exact .wider (.refl _) hs hss.idle

theorem joined (h : Phrases g r bare scopes out ss out') (ht : t ∈ Engine.leads)
    (hapart : t.toList.head?.any Text.isEnd = true) :
    Phrase g r bare scopes out (Sql.joined t ss) out' := by
  induction h with
  | nil h => exact .nothing h
  | cons hs hss ih =>
    cases hss with
    | nil h => exact .wider (.refl _) hs h
    | cons hu hus => exact hs.between (.fixed ht) hapart ih

theorem filter (h : Phrases g r bare scopes out ss out') :
    Phrases g r bare scopes out (ss.filter fun s => !s.isBlank) out' := by
  induction h with
  | nil h => exact .nil h
  | @cons _ _ _ s _ hs _ ih =>
    by_cases hblank : s.isBlank = true
    · rw [List.filter_cons_of_neg (by simp [hblank])]
      exact ih.earlier (hs.idle hblank)
    · rw [List.filter_cons_of_pos (by simp [hblank])]
      exact .cons hs ih

end Phrases

end QueryTree
