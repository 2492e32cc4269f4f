import QueryTree.Proofs.Sql.Alignment

namespace QueryTree

open Text (hasDashes beginsWithDash endsWithDash isCalm isSpacer)

def Marks.hasComment (m : Marks) (text : String) : Bool := hasDashes (m.outside text)

namespace Engine

variable (g : Engine)

-- What is read of a rendering outside quotations.
def visible (s : Sql) : List Char := s.flatMap (g.marks.visible g.dialect)

@[simp] theorem visible_nil : g.visible [] = [] := rfl

@[simp] theorem visible_append (s t : Sql) : g.visible (s ++ t) = g.visible s ++ g.visible t := by
  simp [visible]

@[simp] theorem visible_text (t : String) (s : Sql) :
    g.visible (.text t :: s) = t.toList ++ g.visible s := by
  simp [visible, Marks.visible, Dialect.tokenText]

-- A quotation begins with its mark, so that leaving it out keeps the first character.
theorem head?_visible (s : Sql) : (g.visible s).head? = (g.dialect.text s).toList.head? := by
  have htoken (t : Token) :
      (g.marks.visible g.dialect t).head? = (g.dialect.tokenText t).toList.head? := by
    cases t with
    | name u =>
      simp [Marks.visible, Dialect.tokenText, (Marks.suits g).quoteName, Text.enclosed]
    | string u => simp [Marks.visible, Dialect.tokenText, quoteString, Text.enclosed]
    | _ => rfl
  induction s with
  | nil => simp [Dialect.text]
  | cons t s ih =>
    rw [Dialect.toList_text_cons, List.head?_append, ← ih, ← htoken]
    simp [visible, List.head?_append]

theorem beginsWithDash_visible (s : Sql) :
    beginsWithDash (g.visible s) = beginsWithDash (g.dialect.text s).toList := by
  rw [beginsWithDash, head?_visible, beginsWithDash]

end Engine

namespace Render

-- The sign of a negation among the nodes of `root`, directly before its operand, which begins with
-- a dash.
def Doubled (g : Engine) (frag : FragmentRenderer) (root : Expr) (s : Sql) : Prop :=
  ∃ (x : Expr) (ctx : Context) (out out' : Output) (t : Sql),
    .unary .negate x ∈ root.nodes ∧ ctx.dialect = g.dialect ∧
      expr frag ctx .operand x out = .ok (t, out') ∧ g.isBareMinus t = true ∧
      (.text "-" :: t) <:+: s

-- Two dashes in a row are there for that reason only.
def Accounted (g : Engine) (frag : FragmentRenderer) (root : Expr) (s : Sql) : Prop :=
  hasDashes (g.visible s) = true → Doubled g frag root s

section Accounted

variable {g : Engine} {frag : FragmentRenderer} {root : Expr} {s u : Sql}

theorem Doubled.mono (h : Doubled g frag root s) (hsu : s <:+: u) : Doubled g frag root u := by
  obtain ⟨x, ctx, out, out', t, hx, hctx, ht, hbare, hts⟩ := h
  exact ⟨x, ctx, out, out', t, hx, hctx, ht, hbare, hts.trans hsu⟩

theorem Doubled.hasDashes (h : Doubled g frag root s) : hasDashes (g.visible s) = true := by
  obtain ⟨x, ctx, out, out', t, -, -, -, hbare, before, after, rfl⟩ := h
  simp only [Engine.isBareMinus, Bool.and_eq_true] at hbare
  have hsign : Text.hasDashes (g.visible (.text "-" :: t)) = true := by
    rw [Engine.visible_text, Text.hasDashes_append, g.beginsWithDash_visible, hbare.1]
    simp [endsWithDash]
  rw [Engine.visible_append, Engine.visible_append, Text.hasDashes_append, Text.hasDashes_append,
    hsign]
  simp

namespace Accounted

theorem nil : Accounted g frag root [] := fun h => by simp [Text.hasDashes] at h

theorem token {t : Token} (h : Text.hasDashes (g.marks.visible g.dialect t) = false) :
    Accounted g frag root [t] := by
  intro hdashes
  simp [Engine.visible, h] at hdashes

theorem text {t : String} (h : isCalm t = true) : Accounted g frag root [.text t] :=
  token (Text.hasDashes_of_isCalm h)

theorem literal {t : String} (h : isCalm t = true) : Accounted g frag root [.literal t] :=
  token (Text.hasDashes_of_isCalm h)

theorem append (hs : Accounted g frag root s) (hu : Accounted g frag root u)
    (h : endsWithDash (g.visible s) = false ∨ beginsWithDash (g.visible u) = false) :
    Accounted g frag root (s ++ u) := by
  intro hdashes
  rw [Engine.visible_append, Text.hasDashes_append, Bool.or_eq_true, Bool.or_eq_true] at hdashes
  rcases hdashes with (hfirst | hsecond) | hmeet
  · exact (hs hfirst).mono (List.prefix_append s u).isInfix
  · exact (hu hsecond).mono (List.suffix_append s u).isInfix
  · rw [Bool.and_eq_true] at hmeet
    rcases h with h | h
    · exact absurd hmeet.1 (by simp [h])
    · exact absurd hmeet.2 (by simp [h])

theorem lead {t : String} (ht : isSpacer t = true) (hs : Accounted g frag root s) :
    Accounted g frag root (.text t :: s) := by
  simp only [isSpacer, Bool.and_eq_true, Bool.not_eq_true'] at ht
  refine append (s := [.text t]) (text ht.1.1.1) hs (.inl ?_)
  simpa using ht.2

theorem beginsWithDash_text {t : String} (ht : isSpacer t = true) (s : Sql) :
    beginsWithDash (g.visible (.text t :: s)) = false := by
  simp only [isSpacer, Bool.and_eq_true, Bool.not_eq_true'] at ht
  rw [Engine.visible_text]
  cases hcs : t.toList with
  | nil => simp [String.toList_eq_nil_iff.mp hcs] at ht
  | cons c cs =>
    rw [hcs] at ht
    exact ht.1.2

theorem between {t : String} (ht : isSpacer t = true) (hs : Accounted g frag root s)
    (hu : Accounted g frag root u) : Accounted g frag root (s ++ .text t :: u) :=
  append hs (lead ht hu) (.inr (beginsWithDash_text ht u))

theorem trail {t : String} (ht : isSpacer t = true) (hs : Accounted g frag root s) :
    Accounted g frag root (s ++ [.text t]) :=
  between ht hs nil

theorem enclosed (hs : Accounted g frag root s) : Accounted g frag root (Sql.enclosed s) :=
  trail (s := .text "(" :: s) (by decide) (lead (by decide) hs)

theorem named (name : String) : Accounted g frag root [.name name] :=
  token (by simp [Marks.visible, Text.hasDashes])

theorem string (t : String) : Accounted g frag root [.string t] :=
  token (by simp [Marks.visible, Text.hasDashes])

theorem table (n : Nat) : Accounted g frag root [.table n] := by
  have hcalm : isCalm (tableName n) = true := by
    refine Text.isCalm_append (by decide) ?_ (.inl (by decide))
    exact (Text.isCalm_int n).1
  exact token (Text.hasDashes_of_isCalm hcalm)

theorem placeholder (i : Nat) : Accounted g frag root [.placeholder i] := by
  have hdash : '-' ∉ (parameterName i).toList := fun hmem =>
    absurd (Marks.isWordChar_parameterName _ _ hmem) (by decide)
  have hsign : g.marks.sign ≠ '-' := by cases g <;> simp [Engine.marks]
  have hplaceholder : '-' ∉ (g.dialect.placeholder (parameterName i)).toList := by
    rw [(Marks.suits g).placeholder]
    split <;> simp_all [Ne.symm hsign]
  exact token (Text.not_hasDashes hplaceholder).1

theorem column (scope : Scope) (c : String) : Accounted g frag root (scope.columnText c) := by
  unfold Scope.columnText
  split
  · exact named c
  · exact between (s := [.table _]) (by decide) (table _) (named c)

theorem outerColumn (scope : Scope) (c : String) :
    Accounted g frag root [qualifierOf scope, .text ".", .name c] := by
  unfold qualifierOf
  split
  · exact between (s := [.table _]) (by decide) (table _) (named c)
  · exact between (s := [.name _]) (by decide) (named _) (named c)

theorem call {name : String} (hname : Text.isIdentifier name = true)
    (h : Accounted g frag root s) : Accounted g frag root (.text name :: Sql.enclosed s) := by
  have hdash := Text.dash_not_mem_of_isIdentifier hname
  refine append (s := [.text name]) ?_ h.enclosed (.inr (beginsWithDash_text (by decide) _))
  exact token (Text.not_hasDashes hdash).1

-- A sign comes before parentheses, or before an operand of one word. Only there may two dashes
-- meet.
theorem sign {op : UnaryOp} {kw : String} (hop : op ≠ .not)
    (hkw : g.dialect.unaryKeyword op = some kw) (hs : Accounted g frag root s)
    (hbare : (∃ t, s = Sql.enclosed t) ∨ IsBareOperand g frag root op s) :
    Accounted g frag root (.text kw :: s) := by
  rcases g.unaryKeyword_cases hop hkw with ⟨rfl, rfl⟩ | rfl
  · by_cases hdash : beginsWithDash (g.visible s) = true
    · rcases hbare with ⟨t, rfl⟩ | ⟨hwords, x, ctx, out, out', hx, hctx, hrun⟩
      · rw [Sql.enclosed, List.cons_append, beginsWithDash_text (by decide)] at hdash
        cases hdash
      · refine fun _ => ⟨x, ctx, out, out', s, hx, hctx, hrun, ?_, List.infix_rfl⟩
        rw [Engine.isBareMinus, ← g.beginsWithDash_visible, hdash, hwords]
        rfl
    · exact append (s := [.text "-"]) (text (by decide)) hs (.inr (by simpa using hdash))
  · exact lead (by decide) hs

theorem apart (hs : Accounted g frag root s) (hu : Accounted g frag root u)
    (hapart : u.standsApart = true) : Accounted g frag root (s ++ u) := by
  refine append hs hu (.inr ?_)
  cases u with
  | nil => rfl
  | cons token u =>
    cases token with
    | text t =>
      rw [Engine.visible_text]
      simp only [Sql.standsApart] at hapart
      cases hcs : t.toList with
      | nil => simp [hcs] at hapart
      | cons c cs =>
        rw [hcs] at hapart
        refine Bool.eq_false_iff.mpr fun hdash => ?_
        obtain rfl : c = '-' := by simpa [beginsWithDash] using hdash
        exact absurd hapart (by simp [Text.isEnd])
    | _ => cases hapart

theorem related (scope : Scope) (n : Nat) (hs : Accounted g frag root s) :
    Accounted g frag root (scope.existsText n s) := by
  have hrows := between (t := " ") (by decide) (named scope.table)
    (between (t := " WHERE ") (by decide) (table n) hs)
  have hwhole := lead (t := "EXISTS (SELECT 1 FROM ") (by decide) (trail (t := ")") (by decide) hrows)
  simpa [Scope.existsText] using hwhole

theorem select {scope : Scope} {columns tail : Sql} (hcolumns : Accounted g frag root columns)
    (htail : Accounted g frag root tail) (hfollows : g.Follows tail) :
    Accounted g frag root (scope.selectText columns tail) := by
  have hsource : Accounted g frag root (.name scope.table :: scope.labelText) := by
    unfold Scope.labelText
    split
    · exact between (s := [.name _]) (by decide) (named _) (table _)
    · exact named _
  have hfrom := between (t := " FROM ") (by decide) hcolumns hsource
  exact lead (by decide) (hfrom.apart htail hfollows.standsApart)

end Accounted

theorem isSpacer_of_leads {t : String} (h : g.Leads t) : isSpacer t = true := by
  cases h with
  | fixed h => exact (by decide : ∀ t ∈ Engine.leads, isSpacer t = true) t h
  | clause h => exact (by decide : ∀ t ∈ Engine.clauses, isSpacer t = true) t h
  | logic h => exact g.isSpacer_logicKeyword h
  | value h => exact g.isSpacer_valueKeyword h
  | negation h =>
    have hkw : g.dialect.unaryKeyword .not = some "NOT" := by cases g <;> rfl
    cases hkw.symm.trans h
    decide

-- The dashes of a phrase are accounted for. The induction goes over the ways in which phrases are
-- put together.
theorem accounted_phrase {r : Resolver} {scopes : List Scope} {out out' : Output}
    (h : Phrase g r (IsBareOperand g frag root) scopes out s out') : Accounted g frag root s := by
  induction h with
  | blank => exact .nil
  | wording ht =>
    cases ht with
    | wording h => exact .text ((by decide : ∀ t ∈ Engine.wordings, isCalm t = true) _ h)
    | page h => exact .text (g.isCalm_paging h)
  | literal ht => exact .literal (g.isCalm_literal ht).1
  | string => exact .string _
  | placeholder => exact .placeholder _
  | column => exact .column _ _
  | outerColumn => exact .outerColumn _ _
  | append _ _ hapart ihs ihu => exact ihs.apart ihu hapart
  | lead ht _ ih => exact .lead (isSpacer_of_leads ht) ih
  | sign hop hkw _ hbare ih => exact ih.sign hop hkw hbare
  | @within _ _ _ t s ht _ ih =>
    have hspacer := (by decide : ∀ t ∈ Engine.openings, isSpacer t = true) t ht
    exact .trail (s := .text t :: s) (by decide) (.lead hspacer ih)
  | call hname _ ih => exact ih.call hname
  | labelled _ ih => exact .between (by decide) ih (.named _)
  | related _ _ _ _ ih => exact ih.related _ _
  | subquery _ _ _ _ _ hfollows ihc iht => exact (ihc.select iht hfollows).enclosed
  | wider _ _ _ ih => exact ih

end Accounted

end Render

theorem Compilation.accounted {g : Engine} {c : Compilation} (hc : c.dialect = some g.dialect)
    {e : Expr} (hs : e.isStatic = true) {st : Statement} (h : c.run (some e) = .ok st) :
    Render.Accounted g c.fragments e st.tokens := by
  obtain ⟨r, scope, out, -, -, -, -, -, -, hwritten⟩ := Compilation.phrase hc hs h
  rcases hwritten with ⟨columns, tail, mid, hcolumns, htail, hfollows, htokens⟩ | hphrase
  · exact htokens ▸
      (Render.accounted_phrase hcolumns).select (Render.accounted_phrase htail) hfollows
  · exact Render.accounted_phrase hphrase

theorem Render.negation_text {g : Engine} {frag : FragmentRenderer} {ctx : Context}
    (hctx : ctx.dialect = g.dialect) {pos : Position} {x : Expr} {out out' : Output} {s : Sql}
    (h : expr frag ctx pos (.unary .negate x) out = .ok (s, out')) :
    ∃ t r, expr frag ctx .operand x out = .ok (t, out') ∧ g.dialect.text s = "-" ++ r ∧
      beginsWithDash r.toList = g.isBareMinus t := by
  have hkeyword : ctx.dialect.unaryKeyword .negate = some "-" := by
    rw [hctx]
    cases g <;> rfl
  have hexpr : expr frag ctx pos (.unary .negate x) =
      signed ctx .negate (expr frag ctx .operand x) := rfl
  have hyields : Yields (signed ctx .negate (expr frag ctx .operand x)) out fun s out' =>
      ∃ t r, expr frag ctx .operand x out = .ok (t, out') ∧ g.dialect.text s = "-" ++ r ∧
        beginsWithDash r.toList = g.isBareMinus t := by
    simp only [signed, hkeyword, yields_bind, yields_pure]
    intro t out₁ ht
    rw [Text.any_eq_hasWords, hctx]
    by_cases hwords : Text.hasWords (g.dialect.text t) = true
    · refine ⟨t, g.dialect.text (Sql.enclosed t), ht, ?_, ?_⟩
      · rw [if_pos hwords]
        exact String.join_cons
      · rw [Engine.isBareMinus, hwords, Sql.enclosed, List.cons_append, Dialect.toList_text_cons]
        simp [beginsWithDash, Dialect.tokenText]
    · refine ⟨t, g.dialect.text t, ht, ?_, ?_⟩
      · rw [if_neg hwords]
        exact String.join_cons
      · rw [Engine.isBareMinus, Bool.eq_false_iff.mpr hwords, Bool.not_false, Bool.and_true]
  exact hyields s out' (hexpr ▸ h)

-- A statement without fragments has two dashes in a row outside quotations exactly if somewhere in
-- it the sign of a negation stands directly before the rendering of its operand, and that begins
-- with a dash and has neither blanks nor parentheses. Such an operand is signed. Behind the sign of
-- any other negation there is no dash.
theorem comment_iff_doubled_sign {g : Engine} {c : Compilation} (hc : c.dialect = some g.dialect)
    {e : Expr} (hs : e.isStatic = true) {st : Statement} (h : c.run (some e) = .ok st) :
    (g.marks.hasComment st.text = true ↔
      ∃ (x : Expr) (ctx : Context) (out out' : Output) (t : Sql),
        .unary .negate x ∈ e.nodes ∧ x.isSigned = true ∧ ctx.dialect = g.dialect ∧
          Render.expr c.fragments ctx .operand x out = .ok (t, out') ∧
          g.isBareMinus t = true ∧ (.text "-" :: t) <:+: st.tokens) ∧
    ∀ (x : Expr) (ctx : Context) (pos : Position) (out out' : Output) (s : Sql),
      .unary .negate x ∈ e.nodes → ctx.dialect = g.dialect →
      Render.expr c.fragments ctx pos (.unary .negate x) out = .ok (s, out') →
      ∃ t r, Render.expr c.fragments ctx .operand x out = .ok (t, out') ∧
        g.dialect.text s = "-" ++ r ∧ beginsWithDash r.toList = g.isBareMinus t ∧
        (g.isBareMinus t = true → x.isSigned = true) := by
  have hsigned (x : Expr) (ctx : Context) (out out' : Output) (t : Sql)
      (hx : .unary .negate x ∈ e.nodes) (hctx : ctx.dialect = g.dialect)
      (ht : Render.expr c.fragments ctx .operand x out = .ok (t, out')) :
      g.isBareMinus t = true → x.isSigned = true :=
    have hstatic := Expr.isStatic_of_mem_nodes hs
      (Expr.nodes_subset hx (Expr.mem_nodes_of_mem_parts List.mem_cons_self))
    Render.signedOnly_expr c.fragments hstatic ctx .operand hctx out t out' ht
  constructor
  · obtain ⟨hdialect, hclean, -⟩ := Compilation.sound hc hs h
    rw [Marks.hasComment, Statement.text, hdialect, g.outside_text hclean]
    constructor
    · intro hdashes
      obtain ⟨x, ctx, out, out', t, hx, hctx, ht, hbare, hinfix⟩ :=
        Compilation.accounted hc hs h hdashes
      exact ⟨x, ctx, out, out', t, hx, hsigned x ctx out out' t hx hctx ht hbare, hctx, ht, hbare,
        hinfix⟩
    · rintro ⟨x, ctx, out, out', t, hx, -, hctx, ht, hbare, hinfix⟩
      exact Render.Doubled.hasDashes ⟨x, ctx, out, out', t, hx, hctx, ht, hbare, hinfix⟩
  · intro x ctx pos out out' s hx hctx hexpr
    obtain ⟨t, r, ht, htext, hdash⟩ := Render.negation_text hctx hexpr
    exact ⟨t, r, ht, htext, hdash, hsigned x ctx out out' t hx hctx ht⟩

-- Conditions on the rows of an object whose columns have the names of its properties.
def namesake : Compilation where
  resolver := some
    ⟨fun _ => .ok "t", fun _ name => .ok ⟨name, "", false⟩, fun _ _ => .error (.noFunction "")⟩
  dialect := some (Engine.postgres '/').dialect
  object := "Row"

-- The dashes in the name of a column are quoted, those before the constant are not.
theorem comment_iff_doubled_sign_constant :
    let e : Expr := .compare .equal (.property "" "A--B")
      (.unary .negate (.unary .identity (.value (.int64 (-1)) true)))
    ∃ st, e.isStatic = true ∧ namesake.run (some e) = .ok st ∧ st.text = "\"A--B\" = --1" ∧
      ∃ x, .unary .negate x ∈ e.nodes ∧ x.isSigned = true := by
  intro e
  have hdashes : (Engine.postgres '/').marks.hasComment "\"A--B\" = --1" = true := by
    decide +kernel
  obtain ⟨st, hrun, htext⟩ : ∃ st, namesake.run (some e) = .ok st ∧
      st.text = "\"A--B\" = --1" := ⟨_, rfl, by decide +kernel⟩
  obtain ⟨x, -, -, -, -, hx, hsigned, -⟩ :=
    (comment_iff_doubled_sign (g := .postgres '/') rfl rfl hrun).1.mp (htext ▸ hdashes)
  exact ⟨st, rfl, hrun, htext, x, hx, hsigned⟩

-- Two negations of a column make a comment of it.
theorem negated_negation_is_comment :
    ∃ st, namesake.run (some (.compare .equal (.property "" "A")
        (.unary .negate (.unary .negate (.property "" "B"))))) = .ok st ∧
      st.text = "\"A\" = --\"B\"" ∧ (Engine.postgres '/').marks.hasComment st.text = true := by
  obtain ⟨st, hrun, htext⟩ : ∃ st, namesake.run (some (.compare .equal (.property "" "A")
      (.unary .negate (.unary .negate (.property "" "B"))))) = .ok st ∧
      st.text = "\"A\" = --\"B\"" := ⟨_, rfl, by decide +kernel⟩
  exact ⟨st, hrun, htext, htext ▸ by decide +kernel⟩

end QueryTree
