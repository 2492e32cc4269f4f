import QueryTree.Proofs.Expr.Induction
import QueryTree.Proofs.Sql.Dash
import QueryTree.Proofs.Sql.Outcome
import QueryTree.Proofs.Sql.Reading

namespace QueryTree

open Text (beginsWithDash)

mutual

-- Negative constants and negations, also as the operand of an identity or as a member of a set.
def Expr.isSigned : Expr → Bool
  | .value v const => const && v.isNegativeNumber
  | .unary op x => op == .negate || (op == .identity && x.isSigned)
  | .set kind items => (kind.isLogical || kind == .concat) && Expr.anySigned items
  | _ => false

def Expr.anySigned : List Expr → Bool
  | [] => false
  | e :: es => e.isSigned || Expr.anySigned es

end

theorem Expr.anySigned_eq (es : List Expr) : Expr.anySigned es = es.any isSigned := by
  induction es with
  | nil => rfl
  | cons e es ih => rw [anySigned, ih, List.any_cons]

def Text.hasWords (t : String) : Bool := t.toList.any fun c => c == ' ' || c == '('

theorem Text.any_eq_hasWords (t : String) :
    (t.toList.any fun c => c == ' ' || c == '(') = hasWords t := rfl

namespace Engine

open Text (hasWords)

variable {g : Engine}

-- A rendering that begins with a dash and is not put into parentheses behind a sign.
def isBareMinus (g : Engine) (s : Sql) : Bool :=
  beginsWithDash (g.dialect.text s).toList && !hasWords (g.dialect.text s)

theorem isBareMinus_nil : g.isBareMinus [] = false := by
  simp [isBareMinus, Dialect.text, beginsWithDash]

theorem isBareMinus_words {t : String} (h : hasWords t = true) (s u : Sql) :
    g.isBareMinus (s ++ .text t :: u) = false := by
  have hwords : hasWords (g.dialect.text (s ++ .text t :: u)) = true := by
    rw [hasWords] at h ⊢
    rw [Dialect.toList_text_append, Dialect.toList_text_cons, List.any_append, List.any_append,
      Dialect.tokenText, h]
    simp
  rw [isBareMinus, hwords]
  simp

theorem isBareMinus_text {t : String} (h : (t.toList.head?).any (· != '-') = true) (u : Sql) :
    g.isBareMinus (.text t :: u) = false := by
  have hfirst : beginsWithDash (g.dialect.text (.text t :: u)).toList = false := by
    rw [Dialect.toList_text_cons, Dialect.tokenText]
    cases hcs : t.toList with
    | nil => simp [hcs] at h
    | cons c cs =>
      rw [hcs] at h
      simpa [beginsWithDash] using h
  rw [isBareMinus, hfirst]
  rfl

end Engine

namespace Render

open Engine (isBareMinus_nil isBareMinus_words isBareMinus_text)

-- Renderings that are a single word with a dash at most if the expression is signed.
def SignedOnly (g : Engine) (signed : Bool) (r : Render Sql) : Prop :=
  ∀ out, Yields r out fun s _ => g.isBareMinus s = true → signed = true

section Nodes

variable {g : Engine} {ctx : Context} (hctx : ctx.dialect = g.dialect) {signed : Bool}
  {left right inner : Render Sql} {items : Render (List Sql)} {s : Sql}

theorem signedOnly_pure (h : g.isBareMinus s = false) : SignedOnly g signed (pure s) :=
  fun _ => yields_pure.mpr fun hs => absurd hs (by simp [h])

theorem bareMinus_asCondition (h : g.isBareMinus s = true → signed = true) :
    g.isBareMinus (asCondition ctx s) = true → signed = true := by
  unfold asCondition
  split
  · exact h
  · intro hbare
    rw [isBareMinus_words (by decide) s] at hbare
    cases hbare

theorem bareMinus_reference {t : Token} (ht : ∀ u, t ≠ .text u ∧ t ≠ .literal u ∧ t ≠ .supplied u)
    (s : Sql) : g.isBareMinus (t :: s) = false := by
  have hopening : g.marks.opening ≠ '-' := by cases g <;> simp [Engine.marks]
  have hsign : g.marks.sign ≠ '-' := by cases g <;> simp [Engine.marks]
  have hfirst : beginsWithDash (g.dialect.text (t :: s)).toList = false := by
    rw [Dialect.toList_text_cons]
    cases t with
    | name u =>
      rw [Dialect.tokenText, (Marks.suits g).quoteName]
      simpa [Text.enclosed, beginsWithDash] using hopening
    | table n => simp [Dialect.tokenText, tableName, beginsWithDash]
    | string u => simp [Dialect.tokenText, quoteString, Text.enclosed, beginsWithDash]
    | placeholder i =>
      rw [Dialect.tokenText, (Marks.suits g).placeholder]
      split <;> simpa [beginsWithDash] using hsign
    | text u => exact absurd rfl (ht u).1
    | literal u => exact absurd rfl (ht u).2.1
    | supplied u => exact absurd rfl (ht u).2.2
  rw [Engine.isBareMinus, hfirst]
  rfl

theorem bareMinus_enclosed (s : Sql) : g.isBareMinus (Sql.enclosed s) = false :=
  isBareMinus_text (by decide) _

include hctx in
theorem signedOnly_literal (v : Value) (const : Bool) :
    SignedOnly g (const && v.isNegativeNumber) (literal ctx v const) := by
  unfold literal
  split
  · exact signedOnly_pure (isBareMinus_text (by decide) [])
  · split
    · next hconst =>
      split
      · intro out
        simp only [yields_bind, yields_ofExcept, yields_pure]
        intro t ht hbare
        rw [hctx] at ht
        obtain ⟨hfirst, -⟩ := Bool.and_eq_true_iff.mp hbare
        rw [hconst, ← (g.isCalm_literal ht).2]
        simpa [Dialect.text, Dialect.tokenText] using hfirst
      · exact fun _ => yields_unsupported.mpr trivial
    · split
      · exact signedOnly_pure isBareMinus_nil
      · intro out
        simp only [yields_bind, yields_pure]
        exact fun ss _ _ hbare => absurd hbare (by simp [bareMinus_enclosed])
      · intro out
        rw [yields_bindParam]
        exact fun w _ hbare => absurd hbare (by simp [bareMinus_reference])

include hctx in
theorem signedOnly_condition (v : Value) (const : Bool) :
    SignedOnly g (const && v.isNegativeNumber) (condition ctx v const) := by
  unfold condition
  split
  · exact signedOnly_pure isBareMinus_nil
  · exact signedOnly_pure (isBareMinus_text (by decide) [])
  · exact signedOnly_pure (isBareMinus_text (by decide) [])
  · intro out
    simp only [yields_bind, yields_pure]
    exact (signedOnly_literal hctx _ _ out).mono fun s _ hs => bareMinus_asCondition hs

theorem signedOnly_standing (pos : Position) (h : SignedOnly g signed inner) :
    SignedOnly g signed (standing ctx pos inner) := by
  intro out
  simp only [standing, yields_bind, yields_pure]
  refine (h out).mono fun s _ hs => ?_
  split
  · exact hs
  · exact bareMinus_asCondition hs

theorem signedOnly_of_not (h : ∀ out, Yields inner out fun s _ => g.isBareMinus s = false) :
    SignedOnly g signed inner :=
  fun out => (h out).mono fun s _ hs hbare => absurd hbare (by simp [hs])

theorem signedOnly_column (owner name : String) : SignedOnly g signed (column ctx owner name) := by
  refine signedOnly_of_not fun out => yields_column (fun _ _ col _ => ?_) fun scope _ _ _ col _ => ?_
  · unfold Scope.columnText
    split <;> exact bareMinus_reference (by simp) _
  · unfold qualifierOf
    split <;> exact bareMinus_reference (by simp) _

include hctx in
theorem signedOnly_negated : SignedOnly g signed (negated ctx inner) := by
  have hkeyword : ctx.dialect.unaryKeyword .not = some "NOT" := by
    rw [hctx]
    cases g <;> rfl
  refine signedOnly_of_not fun out => ?_
  simp only [negated, hkeyword, yields_bind, yields_pure]
  intro s _ _
  unfold negation
  split <;> exact isBareMinus_text (by decide) _

include hctx in
theorem signedOnly_signed {op : UnaryOp} (hop : op ≠ .not) :
    SignedOnly g (op == .negate) (Render.signed ctx op inner) := by
  intro out
  unfold Render.signed
  split
  · exact yields_noFeature.mpr trivial
  · next kw hkw =>
    rw [hctx] at hkw
    simp only [yields_bind, yields_pure]
    rcases g.unaryKeyword_cases hop hkw with ⟨rfl, -⟩ | rfl
    · exact fun s _ _ _ => rfl
    · exact fun s _ _ hbare => absurd hbare (by simp [isBareMinus_text (t := "~") (by decide)])

theorem hasWords_spaced (kw : String) : Text.hasWords (" " ++ kw ++ " ") = true := by
  simp [Text.hasWords]

theorem signedOnly_nullTest (op : LogicOp) : SignedOnly g signed (nullTest op inner) := by
  refine signedOnly_of_not fun out => ?_
  simp only [nullTest, yields_bind, yields_pure]
  intro s _ _
  split <;> exact isBareMinus_words (by decide) s []

theorem signedOnly_membership (op : LogicOp) (grouped : Bool) :
    SignedOnly g signed (membership ctx op grouped left right) := by
  refine signedOnly_of_not fun out => ?_
  simp only [membership, yields_bind, yields_paramCount]
  intro l _ _ r _ _
  split
  · simp only [yields_bind, yields_release, yields_pure]
    split
    · exact isBareMinus_nil
    · exact isBareMinus_text (by decide) []
  · split
    · exact yields_noFeature.mpr trivial
    · next kw _ => exact yields_pure.mpr (isBareMinus_words (hasWords_spaced kw) l _)

theorem signedOnly_patternTest (op : LogicOp) (known : Option String) :
    SignedOnly g signed (patternTest ctx op known left right) := by
  refine signedOnly_of_not fun out => ?_
  simp only [patternTest]
  split
  · exact yields_noFeature.mpr trivial
  · next kw _ =>
    simp only [yields_bind, yields_pure]
    intro l _ _ r _ _
    rw [List.append_assoc]
    exact isBareMinus_words (hasWords_spaced kw) l _

theorem signedOnly_comparison (op : LogicOp) :
    SignedOnly g signed (comparison ctx op left right) := by
  refine signedOnly_of_not fun out => ?_
  unfold comparison
  split
  · exact yields_noFeature.mpr trivial
  · next kw _ =>
    simp only [yields_bind, yields_pure]
    exact fun l _ _ r _ _ => isBareMinus_words (hasWords_spaced kw) l r

theorem bareMinus_joined {sep : String} (hsep : Text.hasWords sep = true) {ss : List Sql}
    (hss : ∀ s ∈ ss, g.isBareMinus s = true → signed = true)
    (h : g.isBareMinus (Sql.joined sep ss) = true) : signed = true := by
  cases ss with
  | nil => exact absurd h (by simp [Sql.joined, isBareMinus_nil])
  | cons s ss =>
    cases ss with
    | nil => exact hss s List.mem_cons_self h
    | cons t ss => exact absurd h (by simp [Sql.joined, isBareMinus_words hsep])

include hctx in
theorem bareMinus_concat {ss : List Sql} (hss : ∀ s ∈ ss, g.isBareMinus s = true → signed = true)
    (h : g.isBareMinus (ctx.dialect.concat ss) = true) : signed = true := by
  rw [hctx] at h
  obtain hc | hc | hc := g.concat_cases ss
  · exact bareMinus_joined (by decide) hss (hc ▸ h)
  · exact bareMinus_joined (by decide) hss (hc ▸ h)
  · rw [hc, List.cons_append, isBareMinus_text (by decide)] at h
    cases h

include hctx in
theorem signedOnly_computation (op : ValueOp) :
    SignedOnly g signed (computation ctx op left right) := by
  refine signedOnly_of_not fun out => ?_
  simp only [computation, yields_bind]
  intro l _ _ r _ _
  split
  · rw [yields_pure, hctx]
    obtain hc | hc | hc := g.concat_cases [l, r]
    · rw [hc]
      exact isBareMinus_words (by decide) l r
    · rw [hc]
      exact isBareMinus_words (by decide) l r
    · rw [hc]
      exact isBareMinus_text (by decide) _
  · split
    · exact yields_noFeature.mpr trivial
    · exact yields_pure.mpr (bareMinus_enclosed _)

theorem bareMinus_call (name : String) (s : Sql) :
    g.isBareMinus (.text name :: Sql.enclosed s) = false :=
  isBareMinus_words (t := "(") (by decide) [.text name] _

theorem signedOnly_called (name : String) : SignedOnly g signed (called name items) := by
  refine signedOnly_of_not fun out => ?_
  simp only [called, yields_bind, yields_checkName, yields_pure]
  exact fun _ ss _ _ => bareMinus_call name _

theorem signedOnly_aggregation (name : String) (distinct : Bool) (arg : Render (Option Sql)) :
    SignedOnly g signed (aggregation name distinct arg) := by
  refine signedOnly_of_not fun out => ?_
  simp only [aggregation, yields_bind, yields_checkName, yields_pure]
  exact fun _ arg _ _ => bareMinus_call name _

theorem signedOnly_combined (pos : Position) (kind : SetKind) {parts : Render (List Sql × Bool)}
    (h : ∀ out, Yields parts out fun p _ => ∀ s ∈ p.1, g.isBareMinus s = true → signed = true) :
    SignedOnly g signed (combined pos kind parts) := by
  intro out
  simp only [combined, yields_bind, yields_paramCount]
  refine (h out).mono fun p _ hp => ?_
  obtain ⟨parts, vacuous⟩ := p
  simp only []
  split
  · simp only [yields_bind, yields_release, yields_pure]
    exact fun hbare => absurd hbare (by simp [isBareMinus_nil])
  · split
    · exact signedOnly_pure isBareMinus_nil _
    · exact yields_pure.mpr (hp _ List.mem_cons_self)
    · rw [yields_pure]
      split
      · unfold joinConditions
        refine bareMinus_joined ?_ hp
        split <;> decide
      · exact fun hbare => absurd hbare (by simp [bareMinus_enclosed])

theorem signedOnly_listed : SignedOnly g signed (listed items) := by
  refine signedOnly_of_not fun out => ?_
  simp only [listed, yields_bind, yields_pure]
  intro ss _ _
  split
  · exact isBareMinus_nil
  · exact bareMinus_enclosed _

theorem signedOnly_existence (relation label : String) (tableArgs : List String)
    (body : Context → Render Sql) :
    SignedOnly g signed (existence ctx relation label tableArgs body) := by
  refine signedOnly_of_not fun out => ?_
  simp only [existence, yields_bind, yields_ofExcept]
  intro join _
  split
  · exact yields_fail.mpr trivial
  · simp only [yields_bind, yields_forM_checkName, yields_nextTable, yields_enter, yields_pure]
    exact fun _ _ s _ _ => isBareMinus_text (by decide) _

theorem signedOnly_subquery (object : String) (body : Context → Render Sql) :
    SignedOnly g signed (subquery ctx object body) := by
  refine signedOnly_of_not fun out => ?_
  simp only [subquery, yields_bind, yields_ofExcept, yields_nextTable, yields_enter, yields_pure]
  exact fun table _ _ s _ _ => bareMinus_enclosed s

variable {frag : FragmentRenderer}

theorem signedOnly_exprs {es : List Expr}
    (h : ∀ e ∈ es, SignedOnly g e.isSigned (expr frag ctx .operand e)) (out : Output) :
    Yields (exprs frag ctx es) out fun ss _ =>
      ∀ s ∈ ss, g.isBareMinus s = true → es.any Expr.isSigned = true := by
  induction es generalizing out with
  | nil => exact yields_pure.mpr (List.forall_mem_nil _)
  | cons e es ih =>
    obtain ⟨he, hes⟩ := List.forall_mem_cons.mp h
    simp only [exprs, yields_bind, yields_pure, List.any_cons, Bool.or_eq_true]
    exact (he out).mono fun s out₁ hs => (ih hes out₁).mono fun ss _ hss =>
      List.forall_mem_cons.mpr
        ⟨fun hbare => .inl (hs hbare), fun t ht hbare => .inr (hss t ht hbare)⟩

theorem signedOnly_conditions {es : List Expr}
    (h : ∀ e ∈ es, SignedOnly g e.isSigned (expr frag ctx .condition e)) (out : Output) :
    Yields (conditions frag ctx es) out fun p _ =>
      ∀ s ∈ p.1, g.isBareMinus s = true → es.any Expr.isSigned = true := by
  induction es generalizing out with
  | nil => exact yields_pure.mpr (List.forall_mem_nil _)
  | cons e es ih =>
    obtain ⟨he, hes⟩ := List.forall_mem_cons.mp h
    simp only [conditions, yields_bind, yields_pure, List.any_cons, Bool.or_eq_true]
    refine (he out).mono fun s out₁ hs => (ih hes out₁).mono fun p _ hp => ?_
    have hrest : ∀ t ∈ p.1, g.isBareMinus t = true →
        e.isSigned = true ∨ es.any Expr.isSigned = true := fun t ht hbare => .inr (hp t ht hbare)
    split
    · exact hrest
    · exact List.forall_mem_cons.mpr ⟨fun hbare => .inl (hs hbare), hrest⟩

end Nodes

-- A single word that begins with a dash comes from a signed expression.
theorem signedOnly_expr {g : Engine} (frag : FragmentRenderer) {e : Expr}
    (hs : e.isStatic = true) (ctx : Context) (pos : Position) (hctx : ctx.dialect = g.dialect) :
    SignedOnly g e.isSigned (expr frag ctx pos e) := by
  induction e using Expr.ofParts generalizing ctx pos with
  | step e ih =>
  obtain ⟨hfrag, hstatic⟩ := (Expr.isStatic_iff e).mp hs
  have hparts : ∀ x ∈ e.parts, ∀ pos, SignedOnly g x.isSigned (expr frag ctx pos x) :=
    fun x hx pos => ih x hx (hstatic x hx) ctx pos hctx
  cases e with
  | value v const =>
    simp only [expr]
    split
    · exact signedOnly_literal hctx v const
    · exact signedOnly_condition hctx v const
  | property owner name => exact signedOnly_standing pos (signedOnly_column owner name)
  | unary op x =>
    have hx := hparts x List.mem_cons_self
    simp only [expr]
    split
    · exact signedOnly_negated hctx
    · next hnot =>
      split
      · next hidentity =>
        refine fun out => (hx _ out).mono fun s _ hs hbare => ?_
        simp [Expr.isSigned, hidentity, hs hbare]
      · split
        · exact fun _ => yields_unsupported.mpr trivial
        · refine fun out => (signedOnly_signed hctx (by simpa using hnot) out).mono
            fun s _ hs hbare => ?_
          simp [Expr.isSigned, hs hbare]
  | compare op l r =>
    simp only [expr]
    split
    · exact fun _ => yields_unsupported.mpr trivial
    · split
      · exact signedOnly_nullTest op
      · split
        · exact signedOnly_membership op _
        · split
          · exact signedOnly_patternTest op _
          · exact signedOnly_comparison op
  | compute op l r =>
    simp only [expr]
    split
    · exact fun _ => yields_unsupported.mpr trivial
    · exact signedOnly_computation hctx op
  | call name args => exact signedOnly_standing pos (signedOnly_called name)
  | aggregate name arg distinct => exact signedOnly_aggregation name distinct _
  | set kind items =>
    simp only [expr, Expr.isSigned, Expr.anySigned_eq]
    split
    · next hlogical =>
      rw [hlogical, Bool.true_or, Bool.true_and]
      exact signedOnly_combined pos kind
        (signedOnly_conditions fun x hx => hparts x hx .condition)
    · split
      · exact signedOnly_listed
      · split
        · next hconcat =>
          rw [hconcat, Bool.or_true, Bool.true_and]
          intro out
          simp only [concatenated, yields_bind, yields_pure]
          exact (signedOnly_exprs (fun x hx => hparts x hx .operand) out).mono
            fun ss _ hss => bareMinus_concat hctx hss
        · exact fun _ => yields_unsupported.mpr trivial
  | related relation label inner tableArgs =>
    simp only [expr]
    split
    · exact fun _ => yields_unsupported.mpr trivial
    · exact signedOnly_existence relation label tableArgs _
  | fragment key arg => simp [Expr.isFragment] at hfrag
  | query q => exact signedOnly_subquery q.object _

end Render
end QueryTree
