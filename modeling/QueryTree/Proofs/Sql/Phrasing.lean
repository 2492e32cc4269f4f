import QueryTree.Proofs.Sql.Phrase
import QueryTree.Proofs.Sql.Sign
import QueryTree.Proofs.Sql.Trait

namespace QueryTree

namespace Render

abbrev PhraseIn (g : Engine) (bare : UnaryOp → Sql → Prop) (ctx : Context) :
    Output → Sql → Output → Prop :=
  Phrase g ctx.resolver bare (ctx.scope :: ctx.outer)

abbrev PhrasesIn (g : Engine) (bare : UnaryOp → Sql → Prop) (ctx : Context) :
    Output → List Sql → Output → Prop :=
  Phrases g ctx.resolver bare (ctx.scope :: ctx.outer)

abbrev SelectsIn (g : Engine) (bare : UnaryOp → Sql → Prop) (ctx : Context) :
    Output → Sql → Output → Prop :=
  Selects g ctx.resolver bare ctx.scope ctx.outer

def IsPhrase (g : Engine) (bare : UnaryOp → Sql → Prop) (ctx : Context) (r : Render Sql) : Prop :=
  ∀ out, Yields r out (PhraseIn g bare ctx out)

def ArePhrases (g : Engine) (bare : UnaryOp → Sql → Prop) (ctx : Context)
    (r : Render (List Sql)) : Prop :=
  ∀ out, Yields r out (PhrasesIn g bare ctx out)

section Nodes

variable {g : Engine} {bare : UnaryOp → Sql → Prop} {ctx : Context}
  (hctx : ctx.dialect = g.dialect) {out mid out' : Output} {s : Sql} {ss : List Sql}
  {left right inner : Render Sql} {items : Render (List Sql)}

theorem isPhrase_pure (h : ∀ out, PhraseIn g bare ctx out s out) : IsPhrase g bare ctx (pure s) :=
  fun out => yields_pure.mpr (h out)

theorem isPhrase_bind (v : Value) : IsPhrase g bare ctx (bind ctx v) :=
  fun _ => yields_bindParam.mpr fun _ _ => .placeholder

theorem arePhrases_bindItems (vs : List Value) : ArePhrases g bare ctx (bindItems ctx vs) := by
  have hitem : ∀ v, IsPhrase g bare ctx (bindItem ctx v) := by
    intro v
    unfold bindItem
    split
    · exact isPhrase_pure fun _ => .wording (.wording (by decide))
    · exact isPhrase_bind v
  induction vs with
  | nil => exact fun out => yields_pure.mpr (.nil (.refl out))
  | cons v vs ih =>
    intro out
    simp only [bindItems, yields_bind, yields_pure]
    exact (hitem v out).mono fun s out₁ h₁ => (ih out₁).mono fun ss out₂ h₂ => .cons h₁ h₂

include hctx in
theorem isPhrase_booleanText (b : Bool) : PhraseIn g bare ctx out [booleanText ctx b] out := by
  have hliteral : ∃ t, g.dialect.literal (.bool b) = .ok t := by
    cases g <;> exact ⟨_, rfl⟩
  obtain ⟨t, ht⟩ := hliteral
  rw [booleanText, hctx, ht]
  exact .literal ht

include hctx in
theorem isPhrase_asCondition (h : PhraseIn g bare ctx out s out') :
    PhraseIn g bare ctx out (asCondition ctx s) out' := by
  unfold asCondition
  split
  · exact h
  · exact h.between (.fixed (by decide)) (by decide) (isPhrase_booleanText hctx true)

include hctx in
theorem isPhrase_literal (v : Value) (const : Bool) :
    IsPhrase g bare ctx (literal ctx v const) := by
  unfold literal
  split
  · exact isPhrase_pure fun _ => .wording (.wording (by decide))
  · split
    · split
      · intro out
        simp only [yields_bind, yields_ofExcept, yields_pure]
        intro t ht
        rw [hctx] at ht
        exact .literal ht
      · exact fun _ => yields_unsupported.mpr trivial
    · split
      · exact isPhrase_pure fun _ => .blank
      · intro out
        simp only [yields_bind, yields_pure]
        exact (arePhrases_bindItems _ out).mono fun ss out' h =>
          (h.joined (by decide) (by decide)).enclosed
      · exact isPhrase_bind v

include hctx in
theorem isPhrase_condition (v : Value) (const : Bool) :
    IsPhrase g bare ctx (condition ctx v const) := by
  unfold condition
  split
  · exact isPhrase_pure fun _ => .blank
  · exact isPhrase_pure fun _ => .wording (.wording (by decide))
  · exact isPhrase_pure fun _ => .wording (.wording (by decide))
  · intro out
    simp only [yields_bind, yields_pure]
    exact (isPhrase_literal hctx _ _ out).mono fun s out' h => isPhrase_asCondition hctx h

theorem isPhrase_column (owner name : String) : IsPhrase g bare ctx (column ctx owner name) :=
  fun _ => yields_column
    (fun hobject _ _ hcol => .column (fun _ => hobject) (.property hcol))
    (fun _ hscope hobject _ _ hcol => .outerColumn hscope (fun _ => hobject) (.property hcol))

include hctx in
theorem isPhrase_standing (pos : Position) (h : IsPhrase g bare ctx inner) :
    IsPhrase g bare ctx (standing ctx pos inner) := by
  intro out
  simp only [standing, yields_bind, yields_pure]
  refine (h out).mono fun s out' hs => ?_
  split
  · exact hs
  · exact isPhrase_asCondition hctx hs

include hctx in
theorem isPhrase_negated (h : IsPhrase g bare ctx inner) :
    IsPhrase g bare ctx (negated ctx inner) := by
  intro out
  unfold negated
  split
  · simp
  · next kw hkw =>
    simp only [yields_bind, yields_pure]
    refine (h out).mono fun s out' hs => ?_
    unfold negation
    split
    · next hblank => exact .worded (by decide) (hs.idle hblank)
    · rw [hctx] at hkw
      exact .lead (.negation hkw) hs.enclosed

include hctx in
theorem isPhrase_signed {op : UnaryOp} (hop : op ≠ .not) (h : IsPhrase g bare ctx inner)
    (hbare : ∀ out t out', inner out = .ok (t, out') → Text.hasWords (g.dialect.text t) = false →
      bare op t) : IsPhrase g bare ctx (signed ctx op inner) := by
  intro out
  unfold signed
  split
  · simp
  · next kw hkw =>
    simp only [yields_bind, yields_pure]
    intro s out' hrun
    have hs := h out s out' hrun
    rw [Text.any_eq_hasWords, hctx]
    rw [hctx] at hkw
    split
    · exact .sign hop hkw hs.enclosed (.inl ⟨s, rfl⟩)
    · next hwords => exact .sign hop hkw hs (.inr (hbare out s out' hrun (by simpa using hwords)))

theorem isPhrase_nullTest (op : LogicOp) (h : IsPhrase g bare ctx inner) :
    IsPhrase g bare ctx (nullTest op inner) := by
  intro out
  simp only [nullTest, yields_bind, yields_pure]
  refine (h out).mono fun s out' hs => ?_
  split <;> exact .append hs (.wording (.wording (by decide))) (by decide)

theorem spaced_standsApart (kw : String) :
    (" " ++ kw ++ " ").toList.head?.any Text.isEnd = true := by
  simp [Text.isEnd]

include hctx in
theorem isPhrase_membership (op : LogicOp) (grouped : Bool) (hl : IsPhrase g bare ctx left)
    (hr : IsPhrase g bare ctx right) :
    IsPhrase g bare ctx (membership ctx op grouped left right) := by
  intro out
  simp only [membership, yields_bind, yields_paramCount]
  refine (hl out).mono fun l out₁ h₁ => (hr out₁).mono fun r out₂ h₂ => ?_
  split
  · -- Neither side is written, though tables may have been numbered for them.
    simp only [yields_bind, yields_release, yields_pure]
    have hidle : out.Idle { out₂ with params := out₂.params.take out.params.size } :=
      ⟨Nat.le_trans h₁.le h₂.le, (h₁.sound.appends.trans h₂.sound.appends).take⟩
    split
    · exact .nothing hidle
    · exact .worded (by decide) hidle
  · split
    · simp
    · next kw hkw =>
      rw [yields_pure]
      rw [hctx] at hkw
      refine h₁.between (.logic hkw) (spaced_standsApart kw) ?_
      split
      · exact h₂
      · exact h₂.enclosed

theorem isPhrase_escapedOperand (h : PhraseIn g bare ctx out s out') (escape : Char) :
    PhraseIn g bare ctx out (escapedOperand escape s) out' := by
  unfold escapedOperand
  generalize escape :: likeSpecials = chars
  induction chars generalizing s with
  | nil => exact h
  | cons c chars ih =>
    refine ih ?_
    have hsecond := h.between (t := ", ") (.fixed (by decide)) (by decide)
      (.string (t := c.toString))
    have hthird := hsecond.between (t := ", ") (.fixed (by decide)) (by decide)
      (.string (t := String.ofList [escape, c]))
    simpa using Phrase.within (t := "REPLACE(") (by decide) hthird

include hctx in
theorem isPhrase_concat (h : PhrasesIn g bare ctx out ss out') :
    PhraseIn g bare ctx out (ctx.dialect.concat ss) out' := by
  rw [hctx]
  obtain hc | hc | hc := g.concat_cases ss
  · rw [hc]
    exact h.joined (by decide) (by decide)
  · rw [hc]
    exact h.joined (by decide) (by decide)
  · rw [hc]
    exact .within (by decide) (h.joined (by decide) (by decide))

include hctx in
theorem isPhrase_wildcards (h : PhraseIn g bare ctx out s out') (op : LogicOp) :
    PhraseIn g bare ctx out (wildcards ctx.dialect op s) out' := by
  unfold wildcards
  simp only []
  split
  · exact isPhrase_concat hctx (.cons h (.single .string))
  · split
    · exact isPhrase_concat hctx (.cons .string (.single h))
    · exact isPhrase_concat hctx (.cons .string (.cons h (.single .string)))

include hctx in
theorem isPhrase_patternTest (op : LogicOp) (known : Option String)
    (hl : IsPhrase g bare ctx left) (hr : IsPhrase g bare ctx right) :
    IsPhrase g bare ctx (patternTest ctx op known left right) := by
  have hpattern : IsPhrase g bare ctx (patternOf ctx op known right) := by
    unfold patternOf
    split
    · exact isPhrase_bind _
    · intro out
      simp only [yields_bind, yields_pure]
      exact (hr out).mono fun s out' hs =>
        isPhrase_wildcards hctx (isPhrase_escapedOperand hs _) op
  intro out
  simp only [patternTest]
  split
  · simp
  · next kw hkw =>
    simp only [yields_bind, yields_pure]
    refine (hl out).mono fun l out₁ h₁ => (hpattern out₁).mono fun r out₂ h₂ => ?_
    rw [hctx] at hkw
    rw [List.append_assoc]
    exact h₁.between (.logic hkw) (spaced_standsApart kw)
      (h₂.between (.fixed (by decide)) (by decide) .string)

include hctx in
theorem isPhrase_comparison (op : LogicOp) (hl : IsPhrase g bare ctx left)
    (hr : IsPhrase g bare ctx right) : IsPhrase g bare ctx (comparison ctx op left right) := by
  intro out
  unfold comparison
  split
  · simp
  · next kw hkw =>
    simp only [yields_bind, yields_pure]
    rw [hctx] at hkw
    exact (hl out).mono fun l out₁ h₁ => (hr out₁).mono fun r out₂ h₂ =>
      h₁.between (.logic hkw) (spaced_standsApart kw) h₂

include hctx in
theorem isPhrase_computation (op : ValueOp) (hl : IsPhrase g bare ctx left)
    (hr : IsPhrase g bare ctx right) : IsPhrase g bare ctx (computation ctx op left right) := by
  intro out
  simp only [computation, yields_bind]
  refine (hl out).mono fun l out₁ h₁ => (hr out₁).mono fun r out₂ h₂ => ?_
  split
  · rw [yields_pure]
    exact isPhrase_concat hctx (.cons h₁ (.single h₂))
  · split
    · simp
    · next kw hkw =>
      rw [yields_pure]
      rw [hctx] at hkw
      exact (h₁.between (.value hkw) (spaced_standsApart kw) h₂).enclosed

theorem isPhrase_called (name : String) (h : ArePhrases g bare ctx items) :
    IsPhrase g bare ctx (called name items) := by
  intro out
  simp only [called, yields_bind, yields_checkName, yields_pure]
  intro hname
  exact (h out).mono fun ss out' hss => .call hname (hss.joined (by decide) (by decide))

theorem isPhrase_aggregation (name : String) (distinct : Bool) {arg : Render (Option Sql)}
    (h : ∀ out, Yields arg out fun s out' => PhrasesIn g bare ctx out s.toList out') :
    IsPhrase g bare ctx (aggregation name distinct arg) := by
  intro out
  simp only [aggregation, yields_bind, yields_checkName, yields_pure]
  intro hname
  refine (h out).mono fun arg out' harg => ?_
  have hs : PhraseIn g bare ctx out (arg.getD (Sql.ofText "*")) out' := by
    cases arg with
    | none => exact .worded (by decide) harg.idle
    | some s => exact harg.head
  split
  · exact .call hname (.lead (.fixed (by decide)) hs)
  · exact .call hname hs

theorem isPhrase_combined (pos : Position) (kind : SetKind) {parts : Render (List Sql × Bool)}
    (h : ∀ out, Yields parts out fun p out' => PhrasesIn g bare ctx out p.1 out') :
    IsPhrase g bare ctx (combined pos kind parts) := by
  intro out
  simp only [combined, yields_bind, yields_paramCount]
  refine (h out).mono fun p out' hp => ?_
  obtain ⟨parts, vacuous⟩ := p
  have hjoined : PhraseIn g bare ctx out (joinConditions kind parts) out' := by
    unfold joinConditions
    split <;> exact hp.joined (by decide) (by decide)
  simp only []
  split
  · simp only [yields_bind, yields_release, yields_pure]
    exact .nothing ⟨hjoined.le, hjoined.sound.appends.take⟩
  · split
    · exact yields_pure.mpr (.nothing hp.idle)
    · exact yields_pure.mpr hp.head
    · rw [yields_pure]
      split
      · exact hjoined
      · exact hjoined.enclosed

theorem isPhrase_listed (h : ArePhrases g bare ctx items) :
    IsPhrase g bare ctx (listed items) := by
  intro out
  simp only [listed, yields_bind, yields_pure]
  refine (h out).mono fun ss out' hss => ?_
  split
  · next hempty =>
    obtain rfl := List.isEmpty_iff.mp hempty
    exact .nothing hss.idle
  · exact (hss.joined (by decide) (by decide)).enclosed

include hctx in
theorem isPhrase_concatenated (h : ArePhrases g bare ctx items) :
    IsPhrase g bare ctx (concatenated ctx items) := by
  intro out
  simp only [concatenated, yields_bind, yields_pure]
  exact (h out).mono fun ss out' hss => isPhrase_concat hctx hss

theorem phrases_joinKeys {relation : String} {join : Join} {inside : Scope}
    (hscope : ctx.scope.object ≠ "")
    (hjoin : ctx.resolver.relation ctx.scope.object relation = .ok join)
    (hobject : inside.object = join.object) {m : Nat} (hm : inside.qualifier = some m) :
    Phrases g ctx.resolver bare (inside :: ctx.scope :: ctx.outer) out (joinKeys ctx m join)
      out := by
  have hkeys : ∀ pair ∈ join.foreignKeys.zip join.localKeys,
      pair.1 ∈ join.foreignKeys ∧ pair.2 ∈ join.localKeys := fun _ h => List.of_mem_zip h
  unfold joinKeys
  generalize join.foreignKeys.zip join.localKeys = pairs at hkeys
  induction pairs with
  | nil => exact .nil (.refl out)
  | cons pair pairs ih =>
    obtain ⟨⟨hforeign, hlocal⟩, hpairs⟩ := List.forall_mem_cons.mp hkeys
    refine .cons ?_ (ih hpairs)
    have hown : Phrase g ctx.resolver bare (inside :: ctx.scope :: ctx.outer) out
        (inside.columnText pair.1) out :=
      .column (by simp [Scope.IsNamed, hm]) (hobject ▸ .foreignKey hjoin hforeign)
    rw [Scope.columnText, hm] at hown
    exact hown.between (t := " = ") (.fixed (by decide)) (by decide)
      (.outerColumn List.mem_cons_self (fun _ => hscope) (.localKey hjoin hlocal))

include hctx in
theorem isPhrase_existence (relation label : String) (tableArgs : List String)
    (hscope : ctx.scope.object ≠ "") {body : Context → Render Sql}
    (h : ∀ inside : Context, inside.dialect = g.dialect → IsPhrase g bare inside (body inside)) :
    IsPhrase g bare ctx (existence ctx relation label tableArgs body) := by
  intro out
  simp only [existence, yields_bind, yields_ofExcept]
  intro join hjoin
  split
  · simp
  · simp only [yields_bind, yields_forM_checkName, yields_nextTable, yields_enter, yields_pure]
    intro _ _
    refine Yields.mono (h _ (by exact hctx) _) fun s out' hs => ?_
    let inside : Scope :=
      ⟨join.object, expandTable join.table tableArgs, label, some (out.tables + 1)⟩
    have hinner : Phrases g ctx.resolver bare (inside :: ctx.scope :: ctx.outer)
        { out with tables := out.tables + 1 } (if s.isBlank then [] else [s]) out' := by
      split
      · next hblank => exact .nil (hs.idle hblank)
      · exact .single hs
    have hbody := ((phrases_joinKeys hscope hjoin rfl rfl).append hinner).joined
      (t := " AND ") (by decide) (by decide)
    exact Phrase.related (Nat.lt_succ_self _) rfl (.related hjoin) hbody

include hctx in
theorem isPhrase_subquery (object : String) {body : Context → Render Sql}
    (h : ∀ inside : Context, inside.dialect = g.dialect → ∀ out,
      Yields (body inside) out (SelectsIn g bare inside out)) :
    IsPhrase g bare ctx (subquery ctx object body) := by
  intro out
  simp only [subquery, yields_bind, yields_ofExcept, yields_nextTable, yields_enter, yields_pure]
  intro table htable _
  refine Yields.mono (h _ (by exact hctx) _) fun s out' hs => ?_
  obtain ⟨columns, tail, mid, hcolumns, htail, hfollows, rfl⟩ := hs
  exact .subquery (Nat.lt_succ_self _) rfl (.table htable) hcolumns htail hfollows

theorem isPhrase_columnLabel (label : String) (h : PhraseIn g bare ctx out s mid) :
    Yields (labelled label s) mid (PhraseIn g bare ctx out) := by
  simp only [labelled, yields_ite, yields_pure, yields_bind, yields_checkName]
  exact ⟨fun _ => h, fun _ _ => h.labelled⟩

include hctx in
theorem isPhrase_selectable (h : PhraseIn g bare ctx out s out') (e : Expr) :
    PhraseIn g bare ctx out (selectable ctx e s) out' := by
  unfold selectable
  split
  · exact h
  · have hno : PhraseIn g bare ctx out' [booleanText ctx false, .text " END"] out' :=
      .append (isPhrase_booleanText hctx false) (.wording (.wording (by decide))) (by decide)
    have hyes := (isPhrase_booleanText hctx true).between (t := " ELSE ") (.fixed (by decide))
      (by decide) hno
    have hcase := h.between (t := " THEN ") (.fixed (by decide)) (by decide) hyes
    exact .lead (.fixed (by decide)) hcase

theorem phrase_conjunction (h : PhrasesIn g bare ctx out ss out') :
    PhraseIn g bare ctx out (conjunction ss) out' := by
  unfold conjunction
  split
  · exact .nothing h.idle
  · exact h.head
  · exact (h.joined (by decide) (by decide)).enclosed

include hctx in
theorem phrase_paging (bare : UnaryOp → Sql → Prop) (window : Option Window) (ordered : Bool) (out : Output) :
    Yields (paging ctx window ordered) out fun s out' =>
      PhraseIn g bare ctx out s out' ∧ g.Follows s := by
  have hnone : PhraseIn g bare ctx out [] out ∧ g.Follows [] := ⟨.blank, .nothing⟩
  unfold paging
  split
  · exact yields_pure.mpr hnone
  · split
    · split
      · simp
      · simp only [yields_bind, yields_ofExcept, yields_pure]
        intro t ht
        rw [hctx] at ht
        split
        · exact hnone
        · next hempty =>
          refine ⟨.lead (.fixed (by decide)) (.wording (.page ht)), .page ht ?_⟩
          rintro rfl
          exact hempty rfl
    · exact yields_pure.mpr hnone

theorem phrase_clause {u : Sql} (keyword : String) (hk : keyword ∈ Engine.clauses) {c : Bool}
    (hs : PhraseIn g bare ctx out s mid) (hc : c = true → out.Idle mid)
    (hu : PhraseIn g bare ctx mid u out' ∧ g.Follows u) :
    PhraseIn g bare ctx out ((if c then [] else .text keyword :: s) ++ u) out' ∧
      g.Follows ((if c then [] else .text keyword :: s) ++ u) := by
  split
  · next h => exact ⟨.wider (hc h) hu.1 (.refl _), hu.2⟩
  · exact ⟨.append (.lead (.clause hk) hs) hu.1 hu.2.standsApart, .clause hk⟩

theorem phrase_conditions {u : Sql} (keyword : String) (hk : keyword ∈ Engine.clauses)
    (hss : PhrasesIn g bare ctx out ss mid) (hu : PhraseIn g bare ctx mid u out' ∧ g.Follows u) :
    PhraseIn g bare ctx out (clause keyword (conjunction ss) ++ u) out' ∧
      g.Follows (clause keyword (conjunction ss) ++ u) :=
  phrase_clause keyword hk (phrase_conjunction hss) (phrase_conjunction hss).idle hu

theorem phrase_items {u : Sql} (keyword : String) (hk : keyword ∈ Engine.clauses)
    (hss : PhrasesIn g bare ctx out ss mid) (hu : PhraseIn g bare ctx mid u out' ∧ g.Follows u) :
    PhraseIn g bare ctx out
        ((if ss.isEmpty then [] else .text keyword :: Sql.joined ", " ss) ++ u) out' ∧
      g.Follows ((if ss.isEmpty then [] else .text keyword :: Sql.joined ", " ss) ++ u) := by
  refine phrase_clause keyword hk (hss.joined (by decide) (by decide)) (fun hempty => ?_) hu
  obtain rfl := List.isEmpty_iff.mp hempty
  exact hss.idle

theorem arePhrases_selected {selection grouping : Render (List Sql)}
    (hs : ArePhrases g bare ctx selection) (hg : ArePhrases g bare ctx grouping) :
    ArePhrases g bare ctx (selected selection grouping) := by
  intro out
  simp only [selected, yields_bind]
  refine (hs out).mono fun columns out₁ h₁ => ?_
  split
  · simp only [yields_bind, yields_pure]
    refine (hg out₁).mono fun keys out₂ h₂ => ?_
    split
    · next hempty =>
      obtain rfl := List.isEmpty_iff.mp hempty
      exact .single (.worded (by decide) (h₁.idle.trans h₂.idle))
    · exact h₂.earlier h₁.idle
  · exact yields_pure.mpr h₁

include hctx in
theorem selects_assembled (window : Option Window)
    {selection filters grouping groupFilters ordering : Render (List Sql)}
    (hs : ArePhrases g bare ctx selection) (hf : ArePhrases g bare ctx filters)
    (hg : ArePhrases g bare ctx grouping) (hh : ArePhrases g bare ctx groupFilters)
    (ho : ArePhrases g bare ctx ordering) (out : Output) :
    Yields (assembled ctx window selection filters grouping groupFilters ordering) out
      (SelectsIn g bare ctx out) := by
  simp only [assembled, yields_bind, yields_pure]
  refine (arePhrases_selected hs hg out).mono fun columns out₁ h₁ =>
    (hf out₁).mono fun wheres out₂ h₂ => (hg out₂).mono fun keys out₃ h₃ =>
    (hh out₃).mono fun havings out₄ h₄ => (ho out₄).mono fun order out₅ h₅ =>
    (phrase_paging hctx bare window _ out₅).mono fun page out₆ h₆ => ?_
  -- The clauses are put together from the last one on.
  have horder := phrase_items " ORDER BY " (by decide) h₅ h₆
  have hhaving := phrase_conditions " HAVING " (by decide) h₄ horder
  have hgroup := phrase_items " GROUP BY " (by decide) h₃ hhaving
  have hwhere := phrase_conditions " WHERE " (by decide) h₂ hgroup
  refine ⟨_, _, _, h₁.joined (t := ", ") (by decide) (by decide), hwhere.1, hwhere.2, ?_⟩
  cases hqualifier : ctx.scope.qualifier with
  | none => simp [Scope.selectText, Scope.labelText, hqualifier]
  | some label => simp [Scope.selectText, Scope.labelText, hqualifier]

end Nodes

-- What stands behind the sign of an operator of `root` without parentheses: the rendering of its
-- operand, if that is a single word.
def IsBareOperand (g : Engine) (frag : FragmentRenderer) (root : Expr) (op : UnaryOp) (t : Sql) :
    Prop :=
  Text.hasWords (g.dialect.text t) = false ∧
    ∃ (x : Expr) (ctx : Context) (out out' : Output), .unary op x ∈ root.nodes ∧
      ctx.dialect = g.dialect ∧ expr frag ctx .operand x out = .ok (t, out')

-- Being a phrase, as a trait of the renderings of the nodes of one expression without fragments.
def phrasing (g : Engine) (frag : FragmentRenderer) (root : Expr) : Trait where
  fits ctx := ctx.dialect = g.dialect
  covers e := e ∈ root.nodes ∧ e.isFragment = false
  admits _ := True
  text := IsPhrase g (IsBareOperand g frag root)
  texts := ArePhrases g (IsBareOperand g frag root)
  conditions ctx r := ∀ out, Yields r out fun p out' =>
    PhrasesIn g (IsBareOperand g frag root) ctx out p.1 out'
  argument ctx r := ∀ out, Yields r out fun s out' =>
    PhrasesIn g (IsBareOperand g frag root) ctx out s.toList out'
  query ctx r := ∀ out, Yields r out (SelectsIn g (IsBareOperand g frag root) ctx out)

section Traits

variable (g : Engine) (frag : FragmentRenderer) (root : Expr)

theorem closedLists_phrasing : (phrasing g frag root).ClosedLists where
  nil out := yields_pure.mpr (.nil (.refl out))
  cons := by
    intro ctx r rs hr hrs out
    simp only [yields_bind, yields_pure]
    exact (hr out).mono fun s out₁ h₁ => (hrs out₁).mono fun ss out₂ h₂ => .cons h₁ h₂
  single := by
    intro ctx r hr out
    simp only [singly, yields_bind, yields_pure]
    exact (hr out).mono fun s out' hs => .single hs
  sortKey := by
    intro ctx r rs asc hr hrs out
    simp only [yields_bind, yields_pure]
    refine (hr out).mono fun s out₁ h₁ => (hrs out₁).mono fun ss out₂ h₂ => .cons ?_ h₂
    split <;> exact .append h₁ (.wording (.wording (by decide))) (by decide)
  labelled := by
    intro ctx r rs label e hctx _ hr hrs out
    simp only [yields_bind, yields_pure]
    exact (hr out).mono fun s out₁ h₁ =>
      (isPhrase_columnLabel label (isPhrase_selectable hctx h₁ e)).mono
        fun s out₂ h₂ => (hrs out₂).mono fun ss out₃ h₃ => .cons h₂ h₃
  noConditions out := yields_pure.mpr (.nil (.refl out))
  consCondition := by
    intro ctx r rs hr hrs out
    simp only [yields_bind, yields_pure]
    refine (hr out).mono fun s out₁ h₁ => (hrs out₁).mono fun p out₂ h₂ => ?_
    split
    · next hblank => exact h₂.earlier (h₁.idle hblank)
    · exact .cons h₁ h₂
  conjuncts := by
    intro ctx rs hrs out
    simp only [yields_bind, yields_pure]
    exact hrs out
  clauseAfter := by
    intro ctx earlier parts he hp out
    simp only [clauseAfter, yields_bind, yields_pure]
    exact (hp out).mono fun ss out₁ h₁ => (he out₁).mono fun us out₂ h₂ => h₁.filter.append h₂

theorem closedNodes_phrasing : (phrasing g frag root).ClosedNodes frag where
  literal hctx _ := isPhrase_literal hctx _ _
  condition hctx _ := isPhrase_condition hctx _ _
  column owner name _ := isPhrase_column owner name
  standing pos hctx hr := isPhrase_standing hctx pos hr
  negated hctx hr := isPhrase_negated hctx hr
  signed hctx hop hnode hr := isPhrase_signed hctx hop hr fun out _ out' hrun hwords =>
    ⟨hwords, _, _, out, out', hnode.1, hctx, hrun⟩
  nullTest op hr := isPhrase_nullTest op hr
  membership op grouped hctx hl hr := isPhrase_membership hctx op grouped hl hr
  patternTest op known hctx hl hr := isPhrase_patternTest hctx op known hl hr
  comparison op hctx hl hr := isPhrase_comparison hctx op hl hr
  computation op hctx hl hr := isPhrase_computation hctx op hl hr
  called _ hrs := isPhrase_called _ hrs
  noArgument out := yields_pure.mpr (.nil (.refl out))
  someArgument := by
    intro ctx r hr out
    simp only [yields_bind, yields_pure]
    exact (hr out).mono fun s out' hs => .single hs
  aggregation _ hr := isPhrase_aggregation _ _ hr
  combined pos kind hrs := isPhrase_combined pos kind hrs
  listed hrs := isPhrase_listed hrs
  concatenated hctx hrs := isPhrase_concatenated hctx hrs
  blank := isPhrase_pure fun _ => .blank
  existence hctx _ hscope hbody := isPhrase_existence hctx _ _ _ hscope hbody
  refused _ _ _ := yields_unsupported.mpr trivial
  fragment hnode := absurd hnode.2 (by simp [Expr.isFragment])
  labels _ _ _ := trivial
  assembled window hctx hs hf hg hh ho := selects_assembled hctx window hs hf hg hh ho
  subquery object hctx hbody := isPhrase_subquery hctx object hbody

theorem closed_phrasing : (phrasing g frag root).Closed frag :=
  ⟨closedLists_phrasing g frag root, closedNodes_phrasing g frag root⟩

theorem covers_phrasing {e : Expr} (hs : e.isStatic = true) :
    ∀ x ∈ e.nodes, (phrasing g frag e).covers x := by
  intro x hx
  have hfrag : (!x.isFragment) = true := List.all_eq_true.mp hs x hx
  exact ⟨hx, by simpa using hfrag⟩

end Traits

theorem phrase_expr {g : Engine} {frag : FragmentRenderer} {ctx : Context} {e : Expr}
    (hctx : ctx.dialect = g.dialect) (hs : e.isStatic = true) (pos : Position) :
    IsPhrase g (IsBareOperand g frag e) ctx (expr frag ctx pos e) :=
  (closed_phrasing g frag e).tree hctx (covers_phrasing g frag hs) pos

end Render

namespace Compilation

def outermost (c : Compilation) : Expr → String
  | .query q => q.object
  | _ => c.object

-- A compiled statement without fragments is a query for the rows of its outermost object, or a
-- condition on them. No number is given to their table.
theorem phrase {g : Engine} {c : Compilation} (hc : c.dialect = some g.dialect) {e : Expr}
    (hs : e.isStatic = true) {st : Statement} (h : c.run (some e) = .ok st) :
    ∃ r scope out, c.resolver = some r ∧ st.dialect = g.dialect ∧
      st.params = out.params.toList ∧ scope.qualifier = none ∧ scope.object = c.outermost e ∧
      (scope.object ≠ "" → r.table scope.object = .ok scope.table) ∧
      (Selects g r (Render.IsBareOperand g c.fragments e) scope [] {} st.tokens out ∨
        Phrase g r (Render.IsBareOperand g c.fragments e) [scope] {} st.tokens out) := by
  obtain ⟨r, d, out, hr, hd, hrender, hst⟩ := run_ok h
  obtain rfl : d = g.dialect := Option.some_inj.mp (hd.symm.trans hc)
  have hdialect : st.dialect = g.dialect := by rw [hst]
  have hparams : st.params = out.params.toList := by rw [hst]
  unfold render at hrender
  obtain ⟨scope, hscope, hrender⟩ := bind_ok hrender
  have hobject : scope.object = c.object ∧ scope.qualifier = none ∧
      (scope.object ≠ "" → r.table scope.object = .ok scope.table) := by
    unfold Compilation.scope at hscope
    split at hscope
    · next hempty =>
      cases hscope
      exact ⟨(by simpa using hempty : c.object = "").symm, rfl, fun h => absurd rfl h⟩
    · obtain ⟨table, htable, hscope⟩ := bind_ok hscope
      cases hscope
      exact ⟨rfl, rfl, fun _ => htable⟩
  cases e with
  | query q =>
    obtain ⟨table, htable, hrender⟩ := bind_ok hrender
    let scope : Scope := { object := q.object, table, label := c.label }
    refine ⟨r, scope, out, hr, hdialect, hparams, rfl, rfl, fun _ => htable, .inl ?_⟩
    have hctx : (Render.phrasing g c.fragments (.query q)).fits ⟨g.dialect, r, scope, [], 0⟩ := rfl
    exact (Render.closed_phrasing g c.fragments (.query q)).statement hctx
      (Render.covers_phrasing g _ hs) {} _ _ hrender
  | _ =>
    refine ⟨r, scope, out, hr, hdialect, hparams, hobject.2.1, hobject.1, hobject.2.2, .inr ?_⟩
    have hctx : (⟨g.dialect, r, scope, [], 0⟩ : Context).dialect = g.dialect := rfl
    exact Render.phrase_expr hctx hs .condition {} _ _ hrender

end Compilation
end QueryTree
