import QueryTree.Dialect.Mariadb
import QueryTree.Dialect.Mssql
import QueryTree.Dialect.Postgres
import QueryTree.Dialect.Sqlite
import QueryTree.Proofs.Text.Plain

namespace QueryTree

inductive Engine where
  | postgres (escape : Char)
  | sqlite (escape : Char)
  | mssql (escape : Char) (strict : Bool)
  | mariadb (escape : Char)
deriving DecidableEq, Inhabited

namespace Engine

def dialect : Engine → Dialect
  | .postgres escape => Dialect.postgres escape
  | .sqlite escape => Dialect.sqlite escape
  | .mssql escape strict => Dialect.mssql escape strict
  | .mariadb escape => Dialect.mariadb escape

def driverValue : Engine → Value → DriverValue
  | .postgres _, v => Dialect.Postgres.convert v
  | .mssql _ _, v => Dialect.Mssql.convert v
  | .sqlite _, v | .mariadb _, v => textUuid v

theorem convert_eq (g : Engine) (v : Value) : g.dialect.convert v = .ok (g.driverValue v) := by
  cases g <;> rfl

-- Constants are written in one way but for the words for true and false.
theorem literal_congr (g : Engine) {v w : Value}
    (h : ∀ yes no, (writeLiteral v yes no).toOption = (writeLiteral w yes no).toOption) :
    (g.dialect.literal v).toOption = (g.dialect.literal w).toOption := by
  cases g <;> exact h _ _

theorem concat_cases (g : Engine) (parts : List Sql) :
    g.dialect.concat parts = Sql.joined " || " parts ∨
    g.dialect.concat parts = Sql.joined " + " parts ∨
    g.dialect.concat parts = .text "CONCAT(" :: Sql.joined ", " parts ++ [.text ")"] := by
  cases g with
  | postgres escape => exact .inl rfl
  | sqlite escape => exact .inl rfl
  | mssql escape strict => exact .inr (.inl rfl)
  | mariadb escape => exact .inr (.inr rfl)

end Engine

theorem mem_of_lookup {α β : Type} [BEq α] [LawfulBEq α] {l : List (α × β)} {k : α} {b : β}
    (h : l.lookup k = some b) : (k, b) ∈ l := by
  obtain ⟨l₁, l₂, rfl, _⟩ := List.lookup_eq_some_iff.mp h
  simp

open Text (allPlain)

theorem allPlain_standardUnary {op : UnaryOp} {kw : String} (h : standardUnary op = some kw) :
    allPlain kw = true := by
  unfold standardUnary at h
  repeat' split at h
  all_goals cases h
  all_goals decide

theorem allPlain_writeLiteral {v : Value} {yes no s : String} (hyes : allPlain yes = true)
    (hno : allPlain no = true) (h : writeLiteral v yes no = .ok s) : allPlain s = true := by
  unfold writeLiteral at h
  split at h
  · cases h
    split
    · exact hyes
    · exact hno
  · cases h
    exact Text.allPlain_int _
  · cases h
    exact Text.allPlain_of_allNumeral (Binary.allNumeral_write _ _ (by decide) _)
  · cases h

namespace Engine

-- The keywords of comparisons and of calculations that engines have.
def logicKeywords : List String := LogicOp.table.map (·.2.symbol)

def valueKeywords : List String := "#" :: ValueOp.table.map (·.2.symbol)

theorem mem_logicKeywords (g : Engine) {op : LogicOp} {kw : String}
    (h : g.dialect.logicKeyword op = some kw) : kw ∈ logicKeywords := by
  have hstandard : standardLogic op = some kw := by cases g <;> exact h
  unfold standardLogic at hstandard
  split at hstandard
  · cases hstandard
  · obtain ⟨s, hs, rfl⟩ := Option.map_eq_some_iff.mp hstandard
    exact List.mem_map_of_mem (mem_of_lookup hs)

theorem mem_valueKeywords (g : Engine) {op : ValueOp} {kw : String}
    (h : g.dialect.valueKeyword op = some kw) : kw ∈ valueKeywords := by
  have hstandard : standardValue op = some kw → kw ∈ valueKeywords := by
    intro h
    unfold standardValue at h
    split at h
    · cases h
    · obtain ⟨s, hs, rfl⟩ := Option.map_eq_some_iff.mp h
      exact List.mem_cons_of_mem _ (List.mem_map_of_mem (mem_of_lookup hs))
  cases g with
  | postgres escape =>
    simp only [dialect, Dialect.postgres] at h
    split at h
    · cases h
      exact List.mem_cons_self
    · exact hstandard h
  | sqlite escape =>
    simp only [dialect, Dialect.sqlite] at h
    split at h
    · cases h
    · exact hstandard h
  | mssql escape strict => exact hstandard h
  | mariadb escape => exact hstandard h

theorem allPlain_logicKeyword (g : Engine) {op : LogicOp} {kw : String}
    (h : g.dialect.logicKeyword op = some kw) : allPlain kw = true :=
  (by decide : ∀ kw ∈ logicKeywords, allPlain kw = true) kw (g.mem_logicKeywords h)

theorem allPlain_valueKeyword (g : Engine) {op : ValueOp} {kw : String}
    (h : g.dialect.valueKeyword op = some kw) : allPlain kw = true :=
  (by decide : ∀ kw ∈ valueKeywords, allPlain kw = true) kw (g.mem_valueKeywords h)

theorem allPlain_unaryKeyword (g : Engine) {op : UnaryOp} {kw : String}
    (h : g.dialect.unaryKeyword op = some kw) : allPlain kw = true := by
  cases g <;> exact allPlain_standardUnary h

theorem allPlain_literal (g : Engine) {v : Value} {s : String} (h : g.dialect.literal v = .ok s) :
    allPlain s = true := by
  cases g <;> exact allPlain_writeLiteral (by decide) (by decide) h

theorem allPlain_paging (g : Engine) {skip take : Int} {ordered : Bool} {s : String}
    (h : g.dialect.paging skip take ordered = .ok s) : allPlain s = true := by
  cases g with
  | postgres escape =>
    cases h
    unfold Dialect.Postgres.paging
    repeat' split
    all_goals simp only [List.nil_append, List.append_nil, List.cons_append, String.intercalate_nil,
      String.intercalate_singleton, String.intercalate_cons_cons, Text.allPlain_append,
      Text.allPlain_int, Bool.and_true]
    all_goals decide
  | sqlite escape =>
    cases h
    unfold Dialect.Sqlite.paging
    split
    all_goals simp only [Text.allPlain_append, Text.allPlain_int, Bool.and_true]
    all_goals decide
  | mssql escape strict =>
    cases h
    unfold Dialect.Mssql.paging
    repeat' split
    all_goals simp only [Text.allPlain_append, Text.allPlain_int, Bool.and_true]
    all_goals decide
  | mariadb escape =>
    cases h
    unfold Dialect.Mariadb.paging
    repeat' split
    all_goals simp only [Text.allPlain_append, Text.allPlain_int, Bool.and_true]
    all_goals decide

end Engine
end QueryTree
