import QueryTree.Proofs.Sql.Calculation
import QueryTree.Proofs.Sql.Outcome

namespace QueryTree

-- The text is read as the lexemes of its tokens, wherever something apart follows it.
def ReadsAs (g : Engine) (s : Sql) : Prop :=
  ∀ rest, Text.standsApart rest = true →
    g.marks.lex .blank ((g.dialect.text s).toList ++ rest) =
      s.lexemes ++ g.marks.lex .blank rest

namespace ReadsAs

variable {g : Engine} {s t : Sql}

theorem name (c : String) : ReadsAs g [.name c] := by
  intro rest hrest
  have hsuits := Marks.suits g
  have htext : g.dialect.text [.name c] = g.dialect.quoteName c := by
    simp [Dialect.text, Dialect.tokenText]
  rw [htext, Marks.lex_name hsuits, Marks.lex_apart hsuits rfl hrest]
  simp [Lexeme.Draft.complete, Sql.lexemes, Token.lexemes]

theorem number (n : Int) : ReadsAs g [.literal (toString n)] := by
  intro rest hrest
  have htext : g.dialect.text [.literal (toString n)] = toString n := by
    simp [Dialect.text, Dialect.tokenText]
  rw [htext, Marks.lex_text (Marks.suits g) (Text.allPlain_int n) (.inr hrest)]
  simp [Sql.lexemes, Token.lexemes]

theorem between (hs : ReadsAs g s) (ht : ReadsAs g t) {kw : String}
    (hplain : Text.allPlain (" " ++ kw ++ " ") = true)
    (hclosed : Marks.isClosed (" " ++ kw ++ " ") = true) :
    ReadsAs g (s ++ .text (" " ++ kw ++ " ") :: t) := by
  intro rest hrest
  have hapart : Text.standsApart ((" " ++ kw ++ " ").toList ++
      ((g.dialect.text t).toList ++ rest)) = true := by
    simp [Text.standsApart, Text.isEnd]
  have htoken : g.dialect.tokenText (.text (" " ++ kw ++ " ")) = " " ++ kw ++ " " := rfl
  rw [Dialect.toList_text_append, Dialect.toList_text_cons, htoken, List.append_assoc,
    List.append_assoc, hs _ hapart, Marks.lex_text (Marks.suits g) hplain (.inl hclosed),
    ht _ hrest]
  simp [Sql.lexemes, Token.lexemes]

theorem enclosed (hs : ReadsAs g s) : ReadsAs g (Sql.enclosed s) := by
  intro rest hrest
  have hopen : Text.allPlain "(" = true ∧ Marks.isClosed "(" = true := by decide +kernel
  have hclose : Text.allPlain ")" = true ∧ Marks.isClosed ")" = true := by decide +kernel
  have hapart : Text.standsApart (")".toList ++ rest) = true := by
    simp [Text.standsApart, Text.isEnd]
  have htext : (g.dialect.text (Sql.enclosed s)).toList ++ rest =
      "(".toList ++ ((g.dialect.text s).toList ++ (")".toList ++ rest)) := by
    simp [Sql.enclosed, Dialect.text, Dialect.tokenText]
  rw [htext, Marks.lex_text (Marks.suits g) hopen.1 (.inl hopen.2), hs _ hapart,
    Marks.lex_text (Marks.suits g) hclose.1 (.inl hclose.2)]
  simp [Sql.lexemes, Sql.enclosed, Token.lexemes]

theorem whole (hs : ReadsAs g s) :
    g.marks.lex .blank (g.dialect.text s).toList = s.lexemes := by
  have h := hs [] rfl
  rwa [List.append_nil, Marks.lex_nil, Lexeme.Draft.complete, List.append_nil] at h

end ReadsAs

namespace Spelt

variable {g : Engine} {column : String → String → Option String} {a b : Expr} {s t : Sql}

theorem comparison_texts : ∀ op ∈ LogicOp.comparisons,
    Text.allPlain (" " ++ op.symbol ++ " ") = true ∧
      Marks.isClosed (" " ++ op.symbol ++ " ") = true := by
  decide +kernel

theorem readsAs (h : Spelt g column a s) : ReadsAs g s := by
  induction h with
  | property hc => exact .name _
  | number kind n => exact .number n
  | @compare op l r s t hop _ _ hl hr =>
    obtain ⟨hplain, hclosed⟩ := comparison_texts op hop
    exact .between hl hr hplain hclosed
  | compute hop hkw _ _ hl hr =>
    obtain ⟨hquiet, hclosed⟩ := g.quiet_valueKeyword hkw
    simp only [Marks.isQuiet, Bool.and_eq_true] at hquiet
    exact .enclosed (.between hl hr hquiet.1 hclosed)

theorem text_eq_iff (ha : Spelt g column a s) (hb : Spelt g column b t)
    (hapart : Apart column a b) :
    g.dialect.text s = g.dialect.text t ↔ a.straight.same b.straight = true := by
  constructor
  · intro h
    have hlexemes : s.lexemes = t.lexemes := by
      rw [← ha.readsAs.whole, h, hb.readsAs.whole]
    have hapart' : Apart column a.straight b.straight := by
      intro owner name owner' name' c hx hy
      exact hapart owner name owner' name' c (Expr.mem_nodes_straight.mp hx)
        (Expr.mem_nodes_straight.mp hy)
    have hdetermines := ha.straight.determines a.isStraight_straight
    exact (hdetermines _ t hb.straight b.isStraight_straight hapart' [] [] (by simp [hlexemes])
      (.inr ⟨rfl, rfl⟩)).1
  · intro h
    rw [ha.straight.eq_of_same hb.straight h]

end Spelt

-- What a calculation asks where it stands as a condition: an engine without booleans asks whether
-- a value is one.
def Engine.asked (g : Engine) : Expr → Expr
  | .property owner name =>
    if g.dialect.capabilities.booleanPredicates then .property owner name
    else .compare .equal (.property owner name) (.value (.int .int 1) true)
  | .value v const =>
    if g.dialect.capabilities.booleanPredicates then .value v const
    else .compare .equal (.value v const) (.value (.int .int 1) true)
  | e => e

namespace Render

variable {g : Engine} {ctx : Context} {frag : FragmentRenderer}

-- The name of a column that has no qualifier.
def columnName? (ctx : Context) (owner name : String) : Option String :=
  match column ctx owner name {} with
  | .ok ([.name c], _) => some c
  | _ => none

-- Outermost rows: their columns have no qualifier and no others are in scope.
structure IsRoot (ctx : Context) : Prop where
  qualifier : ctx.scope.qualifier = none
  outer : ctx.outer = []

theorem column_eq (hroot : IsRoot ctx) (owner name : String) :
    ∃ r : Except Error String, column ctx owner name = ofExcept (r.map fun c => [.name c]) := by
  obtain ⟨property, h⟩ | ⟨scope, hscope, -⟩ := column_cases ctx owner name
  · rw [h, ownColumn, hroot.qualifier]
    split
    · exact ⟨.error _, rfl⟩
    · cases ctx.resolver.column ctx.scope.object property with
      | error e => exact ⟨.error e, rfl⟩
      | ok col => exact ⟨.ok col.name, rfl⟩
  · rw [hroot.outer] at hscope
    exact absurd hscope List.not_mem_nil

theorem columnName?_eq (hroot : IsRoot ctx) {owner name : String} {s : Sql} {out out' : Output}
    (h : column ctx owner name out = .ok (s, out')) :
    ∃ c, columnName? ctx owner name = some c ∧ s = [.name c] := by
  obtain ⟨r, hr⟩ := column_eq hroot owner name
  rw [columnName?, hr]
  rw [hr] at h
  cases r with
  | error e => cases h
  | ok c =>
    cases h
    exact ⟨c, rfl, rfl⟩

theorem column_of_name? (hroot : IsRoot ctx) {owner name c : String}
    (h : columnName? ctx owner name = some c) (out : Output) :
    column ctx owner name out = .ok ([.name c], out) := by
  obtain ⟨r, hr⟩ := column_eq hroot owner name
  rw [columnName?, hr] at h
  rw [hr]
  cases r with
  | error e => cases h
  | ok d =>
    cases h
    rfl

theorem comparison_facts : ∀ op ∈ LogicOp.comparisons, op.isValid = true ∧
    (op.positive == .isIn) = false ∧ op.isPattern = false ∧ standardLogic op = some op.symbol := by
  decide +kernel

theorem isNull_of_isCalculation {e : Expr} (he : e.isCalculation = true) : e.isNull = false := by
  cases e with
  | value v const => cases v <;> simp_all [Expr.isCalculation, Expr.isNull]
  | _ => rfl

theorem logicKeyword_eq (g : Engine) (op : LogicOp) :
    g.dialect.logicKeyword op = standardLogic op := by
  cases g <;> rfl

theorem literal_int (g : Engine) (kind : IntKind) (n : Int) :
    g.dialect.literal (.int kind n) = .ok (toString n) := by
  cases g <;> rfl

theorem yields_spelt (hroot : IsRoot ctx) (hctx : ctx.dialect = g.dialect) {e : Expr}
    (he : e.isCalculation = true) (out : Output) :
    Yields (expr frag ctx .operand e) out fun s _ => Spelt g (columnName? ctx) e s := by
  induction e generalizing out with
  | property owner name =>
    simp only [expr, standing, yields_bind, yields_pure, beq_self_eq_true, if_true]
    intro s out' h
    obtain ⟨c, hc, rfl⟩ := columnName?_eq hroot h
    exact .property hc
  | value v const =>
    cases v with
    | int kind n =>
      obtain rfl : const = true := he
      simp only [expr, literal, hctx, literal_int, Value.isNull, Value.isPrimitive, Value.under,
        yields_bind, yields_ofExcept, yields_pure, beq_self_eq_true, if_true, Bool.false_eq_true,
        if_false, Except.ok.injEq, forall_eq']
      exact .number kind n
    | _ => simp [Expr.isCalculation] at he
  | compare op l r hl hr =>
    simp only [Expr.isCalculation, Bool.and_eq_true, List.contains_iff_mem] at he
    obtain ⟨⟨hop, hle⟩, hre⟩ := he
    obtain ⟨hvalid, hin, hpattern, hkw⟩ := comparison_facts op hop
    simp only [expr, hvalid, hin, hpattern, isNull_of_isCalculation hle,
      isNull_of_isCalculation hre, Bool.not_true, Bool.or_self, Bool.and_false,
      Bool.false_eq_true, if_false, comparison, hctx, logicKeyword_eq, hkw, yields_bind,
      yields_pure]
    refine (hl hle out).mono fun s out₁ hs => (hr hre out₁).mono fun t out₂ ht => ?_
    exact .compare hop hs ht
  | compute op l r hl hr =>
    simp only [Expr.isCalculation, Bool.and_eq_true, bne_iff_ne] at he
    obtain ⟨⟨⟨hvalid, hop⟩, hle⟩, hre⟩ := he
    have hconcat : (op == .concatenate) = false := by simpa using hop
    simp only [expr, hvalid, Bool.not_true, Bool.false_eq_true, if_false, computation, hconcat,
      hctx, yields_bind]
    refine (hl hle out).mono fun s out₁ hs => (hr hre out₁).mono fun t out₂ ht => ?_
    cases hkw : g.dialect.valueKeyword op with
    | none => simp only [yields_noFeature]
    | some kw =>
      rw [yields_pure]
      exact .compute hop hkw hs ht
  | _ => simp [Expr.isCalculation] at he

theorem spelt_asCondition (hctx : ctx.dialect = g.dialect)
    {column : String → String → Option String} {e : Expr} {s : Sql} (h : Spelt g column e s) :
    Spelt g column (if g.dialect.capabilities.booleanPredicates then e
      else .compare .equal e (.value (.int .int 1) true)) (asCondition ctx s) := by
  unfold asCondition
  rw [hctx]
  split
  · exact h
  · next hbooleans =>
    have htrue : booleanText ctx true = .literal (toString (1 : Int)) := by
      rw [booleanText, hctx]
      cases g with
      | mssql escape strict => rfl
      | _ => exact absurd rfl hbooleans
    rw [htrue]
    exact .compare (by decide) h (.number .int 1)

theorem yields_asked (hroot : IsRoot ctx) (hctx : ctx.dialect = g.dialect) {e : Expr}
    (he : e.isCalculation = true) (out : Output) :
    Yields (expr frag ctx .condition e) out fun s _ =>
      Spelt g (columnName? ctx) (g.asked e) s := by
  cases e with
  | property owner name =>
    simp only [expr, standing, yields_bind, yields_pure]
    intro s out' h
    obtain ⟨c, hc, rfl⟩ := columnName?_eq hroot h
    exact spelt_asCondition hctx (.property hc)
  | value v const =>
    cases v with
    | int kind n =>
      obtain rfl : const = true := he
      have hpos : (Position.condition == Position.operand) = false := rfl
      simp only [expr, hpos, condition, literal, hctx, literal_int, Value.isNull, Value.isPrimitive,
        Value.under, yields_bind, yields_ofExcept, yields_pure, if_true, Bool.false_eq_true,
        if_false, Except.ok.injEq, forall_eq']
      exact spelt_asCondition hctx (.number kind n)
    | _ => simp [Expr.isCalculation] at he
  | compare op l r => exact yields_spelt hroot hctx he out
  | compute op l r => exact yields_spelt hroot hctx he out
  | _ => simp [Expr.isCalculation] at he

end Render

namespace Compilation

variable {c : Compilation} {r : Resolver} {d : Dialect} {scope : Scope} {e : Expr}

theorem isRoot_of_scope (h : c.scope r = .ok scope) : Render.IsRoot ⟨d, r, scope, [], 0⟩ := by
  refine ⟨?_, rfl⟩
  unfold Compilation.scope at h
  split at h
  · cases h
    rfl
  · obtain ⟨table, -, h⟩ := bind_ok h
    cases h
    rfl

theorem run_condition {st : Statement} (h : c.run (some e) = .ok st) (hquery : ∀ q, e ≠ .query q) :
    ∃ r d scope out, (c.checkNames = .ok () ∧ c.resolver = some r ∧ c.dialect = some d ∧
      c.scope r = .ok scope) ∧ st.dialect = d ∧
      Render.expr (Render.fragment c.sources Render.fragmentLevels) ⟨d, r, scope, [], 0⟩ .condition
        e {} = .ok (st.tokens, out) := by
  have hnames : c.checkNames = .ok () := (bind_ok h).choose_spec.1
  obtain ⟨r, d, out, hr, hd, hrender, hst⟩ := run_ok h
  unfold render at hrender
  obtain ⟨scope, hscope, hrender⟩ := bind_ok hrender
  refine ⟨r, d, scope, out, ⟨hnames, hr, hd, hscope⟩, by rw [hst], ?_⟩
  cases e with
  | query q => exact absurd rfl (hquery q)
  | _ => exact hrender

theorem run_property (hnames : c.checkNames = .ok ()) (hr : c.resolver = some r)
    (hd : c.dialect = some d) (hscope : c.scope r = .ok scope) {owner name col : String}
    (hcol : Render.columnName? ⟨d, r, scope, [], 0⟩ owner name = some col) :
    c.run (some (.property owner name)) =
      .ok ⟨Render.asCondition ⟨d, r, scope, [], 0⟩ [.name col], d, []⟩ := by
  have hcolumn := Render.column_of_name? (isRoot_of_scope hscope) hcol {}
  have hrender : c.render r d (.property owner name) =
      .ok (Render.asCondition ⟨d, r, scope, [], 0⟩ [.name col], {}) := by
    unfold render
    rw [hscope]
    change (Render.standing ⟨d, r, scope, [], 0⟩ .condition _) {} = _
    rw [Render.standing, Render.run_bind, hcolumn]
    rfl
  unfold run
  rw [hnames, hr, hd]
  change (c.render r d (.property owner name) >>= fun p => bounded d p.1 p.2) = _
  rw [hrender]
  change bounded d _ {} = _
  simp [bounded]
  rfl

-- Distinct properties of two expressions have distinct columns.
def Separates (c : Compilation) (a b : Expr) : Prop :=
  ∀ owner name owner' name' st st', .property owner name ∈ a.nodes →
    .property owner' name' ∈ b.nodes → c.run (some (.property owner name)) = .ok st →
    c.run (some (.property owner' name')) = .ok st' → st.text = st'.text →
    owner = owner' ∧ name = name'

end Compilation

theorem mem_nodes_asked {g : Engine} {e : Expr} {owner name : String} :
    .property owner name ∈ (g.asked e).nodes ↔ .property owner name ∈ e.nodes := by
  cases e with
  | property o n | value v const => by_cases h : g.dialect.capabilities.booleanPredicates <;>
      simp [Engine.asked, h, Expr.nodes]
  | _ => rfl

-- Two calculations have one text exactly when they agree up to the grouping of chains of
-- comparisons. So the text tells them apart when no comparison is the left operand of another one.
theorem text_eq_iff_straight_same (g : Engine) (c : Compilation) (hc : c.dialect = some g.dialect)
    (a b : Expr) (ha : a.isCalculation = true) (hb : b.isCalculation = true)
    (hapart : c.Separates a b) (st st' : Statement) (hst : c.run (some a) = .ok st)
    (hst' : c.run (some b) = .ok st') :
    (st.text = st'.text ↔ (g.asked a).straight.same (g.asked b).straight = true) ∧
    ((g.asked a).isStraight = true → (g.asked b).isStraight = true → st.text = st'.text →
      (g.asked a).same (g.asked b) = true) := by
  have hquery : ∀ e : Expr, e.isCalculation = true → ∀ q, e ≠ .query q := by
    rintro e he q rfl
    cases he
  obtain ⟨r, d, scope, out, ⟨hnames, hr, hd, hscope⟩, hdialect, hrun⟩ :=
    Compilation.run_condition hst (hquery a ha)
  obtain ⟨r', d', scope', out', ⟨-, hr', hd', hscope'⟩, hdialect', hrun'⟩ :=
    Compilation.run_condition hst' (hquery b hb)
  obtain rfl : r = r' := Option.some.inj (hr.symm.trans hr')
  obtain rfl : d = g.dialect := Option.some.inj (hd.symm.trans hc)
  obtain rfl : g.dialect = d' := Option.some.inj (hd.symm.trans hd')
  obtain rfl : scope = scope' := Except.ok.inj (hscope.symm.trans hscope')
  have hroot : Render.IsRoot ⟨g.dialect, r, scope, [], 0⟩ := Compilation.isRoot_of_scope hscope
  have hspelt := Render.yields_asked hroot rfl ha {} st.tokens out hrun
  have hspelt' := Render.yields_asked hroot rfl hb {} st'.tokens out' hrun'
  -- Two properties with one column have one text by themselves.
  have hcolumns : Spelt.Apart (Render.columnName? ⟨g.dialect, r, scope, [], 0⟩) (g.asked a)
      (g.asked b) := by
    intro owner name owner' name' col hx hy hcol hcol'
    exact hapart owner name owner' name' _ _ (mem_nodes_asked.mp hx) (mem_nodes_asked.mp hy)
      (Compilation.run_property hnames hr hd hscope hcol)
      (Compilation.run_property hnames hr hd hscope hcol') rfl
  have hiff : st.text = st'.text ↔ (g.asked a).straight.same (g.asked b).straight = true := by
    rw [Statement.text, Statement.text, hdialect, hdialect']
    exact hspelt.text_eq_iff hspelt' hcolumns
  refine ⟨hiff, fun hstraight hstraight' htext => ?_⟩
  have hsame := hiff.mp htext
  rwa [Expr.straight_eq hstraight, Expr.straight_eq hstraight'] at hsame

theorem exists_of_text {x : Except Error Statement} {t : String}
    (h : x.toOption.map Statement.text = some t) : ∃ st, x = .ok st ∧ st.text = t := by
  cases x with
  | error e => cases h
  | ok st => exact ⟨st, rfl, Option.some.inj h⟩

-- Constants of two kinds, and a comparison that is an operand of arithmetic.
theorem text_eq_iff_straight_same_mixed :
    ∃ (c : Compilation) (a b : Expr) (st st' : Statement),
      c.dialect = some (Engine.mssql '/' false).dialect ∧ a.isCalculation = true ∧
      b.isCalculation = true ∧ c.Separates a b ∧ c.run (some a) = .ok st ∧
      c.run (some b) = .ok st' ∧ st.text = "([A] < 2 + [A]) >= -1" ∧ st.text = st'.text ∧
      ((Engine.mssql '/' false).asked a).same ((Engine.mssql '/' false).asked b) = true := by
  let resolver : Resolver := ⟨fun object => .ok object, fun _ property => .ok ⟨property, "", false⟩,
    fun _ _ => .ok ⟨"", "", [], []⟩⟩
  let c : Compilation :=
    { resolver := some resolver, dialect := some (Engine.mssql '/' false).dialect, object := "Row" }
  let calculation (kind : IntKind) : Expr :=
    .compare .greaterOrEqual
      (.compute .add (.compare .less (.property "" "A") (.value (.int kind 2) true))
        (.property "" "A"))
      (.value (.int kind (-1)) true)
  let a := calculation .int
  let b := calculation .int8
  have hapart : c.Separates a b := by
    intro owner name owner' name' st st' hx hy _ _ _
    have hA : owner = "" ∧ name = "A" := by simpa [a, calculation, Expr.nodes] using hx
    have hA' : owner' = "" ∧ name' = "A" := by simpa [b, calculation, Expr.nodes] using hy
    simp [hA, hA']
  obtain ⟨st, hst, htext⟩ : ∃ st, c.run (some a) = .ok st ∧ st.text = "([A] < 2 + [A]) >= -1" :=
    exists_of_text (by decide +kernel)
  obtain ⟨st', hst', htext'⟩ : ∃ st, c.run (some b) = .ok st ∧ st.text = "([A] < 2 + [A]) >= -1" :=
    exists_of_text (by decide +kernel)
  have htexts : st.text = st'.text := htext.trans htext'.symm
  refine ⟨c, a, b, st, st', rfl, by decide +kernel, by decide +kernel, hapart, hst, hst', htext,
    htexts, ?_⟩
  exact (text_eq_iff_straight_same (.mssql '/' false) c rfl a b (by decide +kernel)
    (by decide +kernel) hapart st st' hst hst').2 (by decide +kernel) (by decide +kernel) htexts

-- A comparison on either side of another one is written without parentheses.
theorem comparison_chains_alike :
    let column (name : String) : Expr := .property "" name
    let left : Expr := .compare .equal (.compare .equal (column "A") (column "B")) (column "C")
    let right : Expr := .compare .equal (column "A") (.compare .equal (column "B") (column "C"))
    let resolver : Resolver := ⟨fun object => .ok object,
      fun _ property => .ok ⟨property, "", false⟩, fun _ _ => .ok ⟨"", "", [], []⟩⟩
    let c : Compilation :=
      { resolver := some resolver, dialect := some (Engine.postgres '/').dialect, object := "Row" }
    left.same right = false ∧
    (c.run (some left)).toOption.map Statement.text = some "\"A\" = \"B\" = \"C\"" ∧
    (c.run (some right)).toOption.map Statement.text = some "\"A\" = \"B\" = \"C\"" := by
  decide +kernel

end QueryTree
