import QueryTree.Proofs.Number.Integer
import QueryTree.Proofs.Sql.Legible
import QueryTree.Proofs.Sql.Phrasing

namespace QueryTree

open Layout (allLandmarks allLabels allReferences sources)

theorem tableName_inj {n k : Nat} (h : tableName n = tableName k) : n = k := by
  have hchars := congrArg String.toList h
  rw [Marks.toList_tableName, Marks.toList_tableName, List.cons.injEq] at hchars
  have hread := congrArg (Number.readDigits? 10) hchars.2
  rw [Number.readDigits?_toDigits, Number.readDigits?_toDigits] at hread
  exact Option.some_inj.mp hread

-- The names given to tables are numbered apart, above `n` and up to `n'`.
def Numbered (n : Nat) (labels : List String) (n' : Nat) : Prop :=
  ∃ ks : List Nat, labels = ks.map tableName ∧ ks.Nodup ∧ ∀ k ∈ ks, n < k ∧ k ≤ n'

namespace Numbered

variable {n m m' n' n₁ n₂ : Nat} {xs ys zs : List String}

theorem nil : Numbered n [] n' := ⟨[], rfl, .nil, by simp⟩

theorem wider (hn : n ≤ m) (h : Numbered m xs m') (hn' : m' ≤ n') : Numbered n xs n' := by
  obtain ⟨ks, hks, hnodup, hbounds⟩ := h
  refine ⟨ks, hks, hnodup, fun k hk => ?_⟩
  have := hbounds k hk
  omega

theorem append (hx : Numbered n xs n₁) (hy : Numbered n₁ ys n₂) (hn : n ≤ n₁) (hn' : n₁ ≤ n₂) :
    Numbered n (xs ++ ys) n₂ := by
  obtain ⟨ks, rfl, hks, hbelow⟩ := hx
  obtain ⟨js, rfl, hjs, habove⟩ := hy
  refine ⟨ks ++ js, by simp, ?_, ?_⟩
  · refine List.nodup_append.mpr ⟨hks, hjs, fun k hk j hj => ?_⟩
    have hkn := (hbelow k hk).2
    have hjn := (habove j hj).1
    omega
  · intro k hk
    rcases List.mem_append.mp hk with hk | hk
    · have := hbelow k hk
      omega
    · have := habove k hk
      omega

-- The table of a subquery is numbered before those inside it, wherever its name stands.
theorem insert (hm : n < m) (hx : Numbered m xs n₁) (hy : Numbered n₁ ys n₂) (h₁ : m ≤ n₁)
    (h₂ : n₁ ≤ n₂) : Numbered n (xs ++ tableName m :: ys) n₂ := by
  obtain ⟨ks, hlabels, hnodup, hbounds⟩ := hx.append hy h₁ h₂
  obtain ⟨as, bs, rfl, rfl, rfl⟩ := List.append_eq_map_iff.mp hlabels
  refine ⟨as ++ m :: bs, by simp, ?_, ?_⟩
  · refine List.perm_middle.nodup_iff.mpr (List.nodup_cons.mpr ⟨fun hk => ?_, hnodup⟩)
    exact Nat.lt_irrefl m (hbounds m hk).1
  · intro k hk
    rcases List.mem_cons.mp (List.perm_middle.mem_iff.mp hk) with rfl | hk
    · omega
    · have := hbounds k hk
      omega

theorem nodup (h : Numbered n xs n') : xs.Nodup := by
  obtain ⟨ks, rfl, hks, -⟩ := h
  exact List.Pairwise.map tableName (fun _ _ hne heq => hne (tableName_inj heq)) hks

end Numbered

open Layout (Source Reference)

-- Whether a reference suits where it stands: behind the name of a table, in a subquery around it
-- that is about that table; behind a quoted name, in a subquery, with the table of the outermost
-- object; else outside of all subqueries. Its column is one that the resolver gives for the object
-- of that table.
def Layout.Reference.Fits (r : Resolver) (object : String) (around : List (List Source))
    (ref : Reference) : Prop :=
  match ref.qualifier with
  | some (.word label) => ∃ level ∈ around, ∃ source ∈ level, source.label = some label ∧
      ∃ object, r.HasTable object source.table ∧ r.HasColumn object ref.column
  | some (.name table) =>
    around ≠ [] ∧ r.table object = .ok table ∧ r.HasColumn object ref.column
  | none => around = [] ∧ r.HasColumn object ref.column

def Refers (r : Resolver) (inner : List Scope) (root : Scope) (around : List (List Source))
    (ref : Reference) : Prop :=
  match ref.qualifier with
  | some (.word label) =>
    (∃ level ∈ around, ∃ source ∈ level, source.label = some label ∧
      ∃ object, r.HasTable object source.table ∧ r.HasColumn object ref.column) ∨
    ∃ scope ∈ inner, scope.qualifier.map tableName = some label ∧
      r.HasColumn scope.object ref.column
  | some (.name table) =>
    (around ≠ [] ∨ inner ≠ []) ∧ root.object ≠ "" ∧ root.table = table ∧
      r.HasColumn root.object ref.column
  | none => around = [] ∧ inner = [] ∧ r.HasColumn root.object ref.column

section Scoped

variable {g : Engine} {r : Resolver} {inner : List Scope} {root scope : Scope} {n m n₁ n' : Nat}
  {ps qs : List Layout}

theorem Refers.leave {around : List (List Source)} {ref : Reference} {level : List Source}
    (hscope : scope.qualifier = some m) (htable : r.HasTable scope.object scope.table)
    (hlevel : ⟨scope.table, some (tableName m)⟩ ∈ level)
    (h : Refers r (scope :: inner) root around ref) :
    Refers r inner root (around ++ [level]) ref := by
  obtain ⟨qualifier, c⟩ := ref
  cases qualifier with
  | none =>
    obtain ⟨-, hinner, -⟩ := h
    exact absurd hinner (List.cons_ne_nil _ _)
  | some q =>
    cases q with
    | name table => exact ⟨.inl (by simp), h.2⟩
    | word label =>
      rcases h with ⟨outer, houter, h⟩ | ⟨other, hother, hlabel, hc⟩
      · exact .inl ⟨outer, List.mem_append_left _ houter, h⟩
      · rcases List.mem_cons.mp hother with rfl | hother
        · rw [hscope] at hlabel
          exact .inl ⟨level, by simp, _, hlevel, hlabel, other.object, htable, hc⟩
        · exact .inr ⟨other, hother, hlabel, hc⟩

-- What a phrase says about tables and columns, as it is read.
structure Scoped (r : Resolver) (inner : List Scope) (root : Scope) (n : Nat) (ps : List Layout)
    (n' : Nat) : Prop where
  noSource : sources ps = []
  labels : Numbered n (allLabels ps) n'
  references : ∀ x ∈ allReferences [] ps, Refers r inner root x.2 x.1

namespace Scoped

theorem nil : Scoped r inner root n [] n' := ⟨rfl, .nil, by simp [allReferences]⟩

theorem reference {q : Option Qualifier} {c : String} (h : Refers r inner root [] ⟨q, c⟩) :
    Scoped r inner root n [.reference q c] n' :=
  ⟨rfl, .nil, by simpa [allReferences, Layout.references] using h⟩

theorem append (hp : Scoped r inner root n ps n₁) (hq : Scoped r inner root n₁ qs n')
    (hn : n ≤ n₁) (hn' : n₁ ≤ n') : Scoped r inner root n (ps ++ qs) n' := by
  refine ⟨?_, ?_, ?_⟩
  · rw [Layout.sources_append, hp.noSource, hq.noSource]
    rfl
  · rw [Layout.allLabels_append]
    exact hp.labels.append hq.labels hn hn'
  · rw [Layout.allReferences_append]
    exact List.forall_mem_append.mpr ⟨hp.references, hq.references⟩

theorem group (h : Scoped r inner root n ps n') : Scoped r inner root n [.group ps] n' := by
  refine ⟨rfl, ?_, ?_⟩
  · simpa [allLabels, Layout.labels] using h.labels
  · simpa [allReferences, Layout.references, h.noSource] using h.references

theorem wider (hn : n ≤ m) (h : Scoped r inner root m ps n₁) (hn' : n₁ ≤ n') :
    Scoped r inner root n ps n' :=
  ⟨h.noSource, h.labels.wider hn hn', h.references⟩

theorem subquery (hm : n < m) (hscope : scope.qualifier = some m)
    (htable : r.HasTable scope.object scope.table) (hp : Scoped r (scope :: inner) root m ps n₁)
    (hq : Scoped r (scope :: inner) root n₁ qs n') (h₁ : m ≤ n₁) (h₂ : n₁ ≤ n') :
    Scoped r inner root n [.group (ps ++ .source scope.table (some (tableName m)) :: qs)] n' := by
  have hsources : sources (ps ++ .source scope.table (some (tableName m)) :: qs) =
      [⟨scope.table, some (tableName m)⟩] := by
    rw [Layout.sources_append, hp.noSource]
    simp [sources, hq.noSource]
  refine ⟨rfl, ?_, ?_⟩
  · have h := hp.labels.insert hm hq.labels h₁ h₂
    simpa [allLabels, Layout.labels, Layout.allLabels_append] using h
  · intro x hx
    have hinside : ∃ y ∈ allReferences [] ps ++ allReferences [] qs,
        (y.1, y.2 ++ [[⟨scope.table, some (tableName m)⟩]]) = x := by
      simp only [allReferences, Layout.references, hsources, Layout.allReferences_append,
        List.append_nil, List.nil_append] at hx
      rw [Layout.allReferences_around _ ps, Layout.allReferences_around _ qs,
        ← List.map_append] at hx
      exact List.mem_map.mp hx
    obtain ⟨y, hy, rfl⟩ := hinside
    have hrefers := List.forall_mem_append.mpr ⟨hp.references, hq.references⟩ y hy
    exact hrefers.leave hscope htable List.mem_cons_self

end Scoped

-- Every phrase can be read, and what is read is scoped. The induction goes over the ways in which
-- phrases are put together; a subquery brings a scope of its own.
theorem Phrase.scoped {bare : UnaryOp → Sql → Prop} {scopes : List Scope} {out out' : Output}
    {s : Sql} (h : Phrase g r bare scopes out s out') :
    ∀ inner root, scopes = inner ++ [root] → root.qualifier = none →
      (∀ scope ∈ inner, scope.qualifier ≠ none) →
      ∃ ps, Reads g s ps ∧ Scoped r inner root out.tables ps out'.tables := by
  induction h with
  | blank => exact fun _ _ _ _ _ => ⟨[], .nil, .nil⟩
  | wording ht =>
    intro inner root _ _ _
    obtain ⟨ps, hps, hplain, hread⟩ := ht.reading_eq
    refine ⟨ps, .text hplain hread, ?_⟩
    obtain rfl | rfl := hps
    · exact .nil
    · exact .group .nil
  | literal ht => exact fun _ _ _ _ _ => ⟨[], .literal (g.isQuiet_literal ht), .nil⟩
  | string => exact fun _ _ _ _ _ => ⟨[], .string _, .nil⟩
  | placeholder => exact fun _ _ _ _ _ => ⟨[], .placeholder _, .nil⟩
  | @column scope outer _ c _ hc =>
    intro inner root hscopes hroot hinner
    cases inner with
    | nil =>
      obtain ⟨rfl, rfl⟩ : scope = root ∧ outer = [] := by simpa using hscopes
      rw [Scope.columnText, hroot]
      exact ⟨_, .column c, .reference ⟨rfl, rfl, hc⟩⟩
    | cons first inner =>
      obtain ⟨rfl, rfl⟩ : scope = first ∧ outer = inner ++ [root] := by simpa using hscopes
      obtain ⟨k, hk⟩ := Option.ne_none_iff_exists'.mp (hinner scope List.mem_cons_self)
      rw [Scope.columnText, hk]
      refine ⟨_, .tableColumn k c, .reference (.inr ⟨scope, List.mem_cons_self, ?_, hc⟩)⟩
      rw [hk]
      rfl
  | @outerColumn own scope outer _ c hscope hnamed hc =>
    intro inner root hscopes hroot hinner
    cases inner with
    | nil =>
      obtain ⟨-, rfl⟩ : own = root ∧ outer = [] := by simpa using hscopes
      exact absurd hscope List.not_mem_nil
    | cons first inner =>
      obtain ⟨rfl, rfl⟩ : own = first ∧ outer = inner ++ [root] := by simpa using hscopes
      rcases List.mem_append.mp hscope with hscope | hscope
      · have hmem := List.mem_cons_of_mem own hscope
        obtain ⟨k, hk⟩ := Option.ne_none_iff_exists'.mp (hinner scope hmem)
        rw [Render.qualifierOf, hk]
        refine ⟨_, .tableColumn k c, .reference (.inr ⟨scope, hmem, ?_, hc⟩)⟩
        rw [hk]
        rfl
      · obtain rfl := List.mem_singleton.mp hscope
        rw [Render.qualifierOf, hroot]
        exact ⟨_, .nameColumn scope.table c,
          .reference ⟨.inr (List.cons_ne_nil _ _), hnamed hroot, rfl, hc⟩⟩
  | append hs hu hapart ihs ihu =>
    intro inner root hscopes hroot hinner
    obtain ⟨ps, hps, hscoped⟩ := ihs inner root hscopes hroot hinner
    obtain ⟨qs, hqs, hscoped'⟩ := ihu inner root hscopes hroot hinner
    exact ⟨ps ++ qs, hps.append hqs hapart, hscoped.append hscoped' hs.le hu.le⟩
  | lead ht _ ih =>
    intro inner root hscopes hroot hinner
    obtain ⟨ps, hps, hscoped⟩ := ih inner root hscopes hroot hinner
    exact ⟨ps, hps.lead ht.quiet, hscoped⟩
  | sign hop hkw _ _ ih =>
    intro inner root hscopes hroot hinner
    obtain ⟨ps, hps, hscoped⟩ := ih inner root hscopes hroot hinner
    exact ⟨ps, hps.lead (g.quiet_sign hop hkw), hscoped⟩
  | @within _ _ _ t _ ht _ ih =>
    intro inner root hscopes hroot hinner
    obtain ⟨ps, hps, hscoped⟩ := ih inner root hscopes hroot hinner
    have table : ∀ t ∈ Engine.openings, Text.allPlain t = true ∧ Marks.isClosed t = true ∧
        Marks.reading .column t = (.column, [.opening]) := by decide +kernel
    exact ⟨_, hps.within (table t ht), hscoped.group⟩
  | call hname _ ih =>
    intro inner root hscopes hroot hinner
    obtain ⟨ps, hps, hscoped⟩ := ih inner root hscopes hroot hinner
    exact ⟨_, hps.call hname, hscoped.group⟩
  | labelled _ ih =>
    intro inner root hscopes hroot hinner
    obtain ⟨ps, hps, hscoped⟩ := ih inner root hscopes hroot hinner
    exact ⟨ps, hps.labelled _, hscoped⟩
  | @related _ _ _ m scope _ hm hscope htable hs ih =>
    intro inner root hscopes hroot hinner
    have hnested : ∀ s ∈ scope :: inner, s.qualifier ≠ none :=
      List.forall_mem_cons.mpr ⟨by simp [hscope], hinner⟩
    obtain ⟨ps, hps, hscoped⟩ := ih (scope :: inner) root (by simp [hscopes]) hroot hnested
    have hsub := Scoped.subquery hm hscope htable .nil hscoped (Nat.le_refl m) hs.le
    exact ⟨_, hps.related, hsub⟩
  | @subquery _ _ _ _ m scope _ _ hm hscope htable hcolumns htail hfollows ihc iht =>
    intro inner root hscopes hroot hinner
    have hnested : ∀ s ∈ scope :: inner, s.qualifier ≠ none :=
      List.forall_mem_cons.mpr ⟨by simp [hscope], hinner⟩
    obtain ⟨ps, hps, hpscoped⟩ := ihc (scope :: inner) root (by simp [hscopes]) hroot hnested
    obtain ⟨qs, hqs, hqscoped⟩ := iht (scope :: inner) root (by simp [hscopes]) hroot hnested
    have hselect := hps.select hscope hqs (hfollows.standsApart)
    exact ⟨_, hselect.within (by decide +kernel),
      .subquery hm hscope htable hpscoped hqscoped hcolumns.le htail.le⟩
  | wider h _ h' ih =>
    intro inner root hscopes hroot hinner
    obtain ⟨ps, hps, hscoped⟩ := ih inner root hscopes hroot hinner
    exact ⟨ps, hps, hscoped.wider h.tables h'.tables⟩

end Scoped

-- The table of the outermost query has no name besides its own: a keyword follows it, if anything.
section Outermost

open Marks (reading isClosed plain suits)

-- Texts that begin with a word other than the name of a table.
def opensWithKeyword (t : String) : Bool :=
  match plain.lex .blank t.toList with
  | .word w :: _ => !isTableName w
  | _ => false

theorem scan_keyword (g : Engine) {kw : String}
    (hkw : Text.allPlain kw = true ∧ isClosed kw = true ∧ opensWithKeyword kw = true)
    (t : String) (rest : List Char) :
    g.marks.scan (.tableLabel t) (kw.toList ++ rest) =
      .source t none :: g.marks.scan .column (kw.toList ++ rest) := by
  obtain ⟨hplain, hclosed, hword⟩ := hkw
  have hreading : reading (.tableLabel t) kw =
      ((reading .column kw).1, .source t none :: (reading .column kw).2) := by
    unfold opensWithKeyword at hword
    split at hword
    · next w ls hlex =>
      have hname : isTableName w = false := by simpa using hword
      simp [reading, hlex, Landmark.run, Landmark.step, hname]
    · cases hword
  rw [Marks.scan_text (suits g) hplain (.inl hclosed),
    Marks.scan_text (suits g) hplain (.inl hclosed), hreading]
  rfl

theorem Engine.Follows.scan_eq {g : Engine} {tail : Sql} (h : g.Follows tail) (t : String) :
    g.marks.scan (.tableLabel t) (g.dialect.text tail).toList =
      .source t none :: g.marks.scan .column (g.dialect.text tail).toList := by
  cases h with
  | nothing => rfl
  | @clause kw s h =>
    have table : ∀ kw ∈ Engine.clauses,
        Text.allPlain kw = true ∧ isClosed kw = true ∧ opensWithKeyword kw = true := by
      decide +kernel
    rw [Dialect.toList_text_cons, Dialect.tokenText]
    exact scan_keyword g (table kw h) t _
  | page h hne =>
    obtain rfl | ⟨kw, hkw, body, rfl, -⟩ := g.page_cases h
    · exact absurd rfl hne
    · have table : ∀ kw ∈ Engine.pageKeywords, Text.allPlain (" " ++ kw) = true ∧
          isClosed (" " ++ kw) = true ∧ opensWithKeyword (" " ++ kw) = true := by decide +kernel
      have htext : (g.dialect.text [.text " ", .text (kw ++ body)]).toList =
          (" " ++ kw).toList ++ body.toList := by
        simp [Dialect.text, Dialect.tokenText]
      rw [htext]
      exact scan_keyword g (table kw hkw) t body.toList

-- What is read of a whole statement in the rows of `root`.
def Lays (g : Engine) (r : Resolver) (root : Scope) (s : Sql) (ps : List Layout) : Prop :=
  g.marks.scan .column (g.dialect.text s).toList = allLandmarks ps ∧ (allLabels ps).Nodup ∧
    ∀ x ∈ allReferences [] ps, Refers r [] root x.2 x.1

theorem Phrase.lays {g : Engine} {r : Resolver} {bare : UnaryOp → Sql → Prop} {root : Scope}
    {out out' : Output} {s : Sql} (hroot : root.qualifier = none)
    (h : Phrase g r bare [root] out s out') : ∃ ps, Lays g r root s ps := by
  obtain ⟨ps, hps, hscoped⟩ := h.scoped [] root rfl hroot (by simp)
  exact ⟨ps, hps.whole, hscoped.labels.nodup, hscoped.references⟩

theorem Selects.lays {g : Engine} {r : Resolver} {bare : UnaryOp → Sql → Prop} {root : Scope}
    {out out' : Output} {s : Sql} (hroot : root.qualifier = none)
    (h : Selects g r bare root [] out s out') : ∃ ps, Lays g r root s ps := by
  obtain ⟨columns, tail, n₁, hcolumns, htail, hfollows, rfl⟩ := h
  obtain ⟨ps, hps, hpscoped⟩ := hcolumns.scoped [] root rfl hroot (by simp)
  obtain ⟨qs, hqs, hqscoped⟩ := htail.scoped [] root rfl hroot (by simp)
  have hlabels := hpscoped.labels.append hqscoped.labels hcolumns.le htail.le
  refine ⟨ps ++ .source root.table none :: qs, ?_, ?_, ?_⟩
  · let source : Sql := .name root.table :: tail
    have htext : root.selectText columns tail =
        .text "SELECT " :: (columns ++ .text " FROM " :: source) := by
      simp [Scope.selectText, Scope.labelText, hroot, source]
    have hend : Text.standsApart [] = true := rfl
    have hapart := Reads.standsApart_text (g := g) (hfollows.standsApart) hend
    have hselect := hps.scan_select source hend
    rw [List.append_nil] at hapart hselect
    have htable : g.marks.scan .table (g.dialect.text source).toList =
        g.marks.scan (.tableLabel root.table) (g.dialect.text tail).toList := by
      rw [Dialect.toList_text_cons, Dialect.tokenText]
      exact Marks.scan_name (suits g) hapart root.table .table
    rw [List.append_nil, htable, hfollows.scan_eq, hqs.whole] at hselect
    rw [htext, hselect, Layout.allLandmarks_append]
    rfl
  · simpa [allLabels, Layout.labels, Layout.allLabels_append] using hlabels.nodup
  · simpa [allReferences, Layout.references, Layout.allReferences_append] using
      List.forall_mem_append.mpr ⟨hpscoped.references, hqscoped.references⟩

end Outermost

-- In the text of a statement without fragments the names of tables differ, and every reference fits
-- where it stands.
theorem references_in_scope (g : Engine) (c : Compilation) (e : Expr) (st : Statement)
    (hc : c.dialect = some g.dialect) (hs : e.isStatic = true) (h : c.run (some e) = .ok st) :
    ∃ r layout, c.resolver = some r ∧ g.marks.layout st.text = some layout ∧
      (allLabels layout).Nodup ∧
      ∀ ref around, (ref, around) ∈ allReferences [] layout →
        ref.Fits r (c.outermost e) around := by
  obtain ⟨r, root, out, hr, hdialect, -, hroot, hobject, htable, hwritten⟩ :=
    Compilation.phrase hc hs h
  obtain ⟨layout, hread, hlabels, hreferences⟩ : ∃ ps, Lays g r root st.tokens ps :=
    hwritten.elim (Selects.lays hroot) (Phrase.lays hroot)
  refine ⟨r, layout, hr, ?_, hlabels, fun ref around hmem => ?_⟩
  · rw [Marks.layout, Statement.text, hdialect, hread, Layout.nest_eq]
  · have hrefers := hreferences _ hmem
    obtain ⟨qualifier, column⟩ := ref
    rw [← hobject]
    cases qualifier with
    | none => exact ⟨hrefers.1, hrefers.2.2⟩
    | some q =>
      cases q with
      | name table =>
        obtain ⟨haround, hne, rfl, hcolumn⟩ := hrefers
        exact ⟨haround.resolve_right (fun h => h rfl), htable hne, hcolumn⟩
      | word label =>
        obtain hlevel | ⟨scope, hscope, -⟩ := hrefers
        · exact hlevel
        · exact absurd hscope List.not_mem_nil

-- A subquery inside another one, about a table whose own name looks like the beginning of a third.
theorem references_in_scope_nested :
    let g : Engine := .postgres '/'
    ∃ (c : Compilation) (e : Expr) (st : Statement) (r : Resolver) (layout : List Layout),
      c.dialect = some g.dialect ∧ e.isStatic = true ∧ c.run (some e) = .ok st ∧
      st.text = "SELECT * FROM \"user\" WHERE EXISTS (SELECT 1 FROM \"T3 (\" T1 WHERE " ++
        "T1.\"by\" = \"user\".\"id\" AND T1.\"by\" IN (SELECT T2.\"id\" FROM \"vip\" T2))" ∧
      g.marks.layout st.text = some layout ∧ allLabels layout = ["T1", "T2"] ∧
      (allLabels layout).Nodup ∧
      ∀ ref around, (ref, around) ∈ allReferences [] layout →
        ref.Fits r (c.outermost e) around := by
  let resolver : Resolver := ⟨fun object => .ok object, fun _ property => .ok ⟨property, "", false⟩,
    fun _ _ => .ok ⟨"order", "T3 (", ["id"], ["by"]⟩⟩
  let member : Expr := .compare .isIn (.property "" "by")
    (.query (.select (.rows "vip") [⟨.property "" "id", ""⟩]))
  let e : Expr := .query (.filter (.rows "user") (.related "orders" "" (some member) []))
  let c : Compilation :=
    { resolver := some resolver, dialect := some (Engine.postgres '/').dialect }
  have hstatic : e.isStatic = true := rfl
  obtain ⟨text, htext, st, hrun, hst, hlabels⟩ : ∃ text,
      text = "SELECT * FROM \"user\" WHERE EXISTS (SELECT 1 FROM \"T3 (\" T1 WHERE " ++
        "T1.\"by\" = \"user\".\"id\" AND T1.\"by\" IN (SELECT T2.\"id\" FROM \"vip\" T2))" ∧
      ∃ st, c.run (some e) = .ok st ∧ st.text = text ∧
        ((Engine.postgres '/').marks.layout text).map allLabels = some ["T1", "T2"] :=
    ⟨_, rfl, _, rfl, by decide +kernel, by decide +kernel⟩
  obtain ⟨r, layout, -, hlayout, hnodup, hfits⟩ :=
    references_in_scope (.postgres '/') c e st rfl hstatic hrun
  rw [← hst, hlayout] at hlabels
  exact ⟨c, e, st, r, layout, rfl, hstatic, hrun, hst.trans htext, hlayout,
    Option.some_inj.mp hlabels, hnodup, hfits⟩

end QueryTree
