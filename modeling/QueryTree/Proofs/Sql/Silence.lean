import QueryTree.Proofs.Codec.Transmission
import QueryTree.Proofs.Sql.Splice
import QueryTree.Schema.Basic

namespace QueryTree

variable {items : List Expr} {kind : SetKind}

-- Texts are joined by a sign between them, and not by a function.
def Engine.joinsBySign : Engine → Bool
  | .mariadb _ => false
  | _ => true

def Value.isEmptyList (v : Value) : Bool := v.collection?.any List.isEmpty

mutual

def Expr.isSilent (g : Engine) (pos : Position) : Expr → Bool
  | .value v const =>
    if pos == .operand then !const && v.isEmptyList
    else v.isNull || (g.dialect.capabilities.booleanPredicates && !const && v.isEmptyList)
  | .unary op x =>
    op == .identity && x.isSilent g (if pos == .operand then .operand else .condition)
  | .compare op _ r => op.positive == .isIn && op.isNegated && r.isSilent g .operand
  | .set kind items =>
    if kind == .or then items.isEmpty || (Expr.silences g .condition items).any id
    else if kind.isLogical then (Expr.silences g .condition items).all id
    else if kind == .list then items.isEmpty
    else g.joinsBySign && items.length ≤ 1 && (Expr.silences g .operand items).all id
  | .property .. | .compute .. | .call .. | .aggregate .. | .related .. | .fragment .. | .query _ =>
    false

def Expr.silences (g : Engine) (pos : Position) : List Expr → List Bool
  | [] => []
  | e :: es => e.isSilent g pos :: Expr.silences g pos es

end

namespace Sql

@[simp] theorem isBlank_append (s t : Sql) : (s ++ t).isBlank = (s.isBlank && t.isBlank) :=
  List.all_append

@[simp] theorem isBlank_cons (token : Token) (s : Sql) :
    Sql.isBlank (token :: s) = (token.isBlank && s.isBlank) :=
  List.all_cons

@[simp] theorem isBlank_nil : Sql.isBlank [] = true := rfl

@[simp] theorem isBlank_enclosed (s : Sql) : (enclosed s).isBlank = false := by
  simp [enclosed, Token.isBlank]

theorem isBlank_joined {sep : String} (hsep : sep ≠ "") (ss : List Sql) :
    (joined sep ss).isBlank = (decide (ss.length ≤ 1) && (ss.map isBlank).all id) := by
  cases ss with
  | nil => rfl
  | cons s ss =>
    cases ss with
    | nil => simp [joined]
    | cons t ss => simp [joined, Token.isBlank, hsep]

end Sql

section Words

theorem Decimal.positionalText_ne_empty (d : Decimal) : d.positionalText ≠ "" := by
  have hwhole : d.positional.1 ≠ "" := by
    unfold positional
    split
    · decide
    · next hdigits =>
      split
      · exact (by decide : "0" ≠ "")
      · next hpoint =>
        obtain ⟨c, cs, hcons⟩ := List.exists_cons_of_ne_nil (by simpa using hdigits)
        obtain ⟨n, hn⟩ : ∃ n, d.point.toNat = n + 1 := ⟨d.point.toNat - 1, by omega⟩
        simp [hcons, hn, ← String.toList_eq_nil_iff]
  unfold positionalText
  simp only
  split
  · exact hwhole
  · simp [String.append_eq_empty_iff]

theorem Decimal.scientificText_ne_empty (d : Decimal) : d.scientificText ≠ "" := by
  unfold scientificText
  split <;> simp [String.append_eq_empty_iff]

theorem Binary.write_ne_empty (style : DecimalStyle) (fmt : FloatFormat) {inf : String}
    (hinf : inf ≠ "") (x : Binary) : x.write style fmt inf ≠ "" := by
  have hstyle : style.write (x.decimal fmt) ≠ "" := by
    unfold DecimalStyle.write
    split
    · decide
    · split
      · exact Decimal.scientificText_ne_empty _
      · exact Decimal.positionalText_ne_empty _
  unfold write
  split
  · decide
  · decide
  · exact hinf
  · simp [String.append_eq_empty_iff, hstyle]

theorem toString_int_ne_empty (n : Int) : toString n ≠ "" := by
  rw [Int.toString_eq_repr, Int.repr_eq_if]
  split
  · exact Nat.repr_ne_empty
  · simp [String.append_eq_empty_iff]

theorem writeLiteral_ne_empty {v : Value} {yes no s : String} (hyes : yes ≠ "") (hno : no ≠ "")
    (h : writeLiteral v yes no = .ok s) : s ≠ "" := by
  unfold writeLiteral at h
  split at h
  · cases h
    split
    · exact hyes
    · exact hno
  · cases h
    exact toString_int_ne_empty _
  · cases h
    exact Binary.write_ne_empty _ _ (by decide) _
  · cases h

theorem Engine.literal_ne_empty (g : Engine) {v : Value} {s : String}
    (h : g.dialect.literal v = .ok s) : s ≠ "" := by
  cases g <;> exact writeLiteral_ne_empty (by decide) (by decide) h

theorem Engine.unaryKeyword_ne_empty (g : Engine) {op : UnaryOp} {kw : String}
    (h : g.dialect.unaryKeyword op = some kw) : kw ≠ "" := by
  have hstandard : standardUnary op = some kw := by cases g <;> exact h
  unfold standardUnary at hstandard
  repeat' split at hstandard
  all_goals cases hstandard
  all_goals decide

end Words

namespace Expr

theorem silences_eq_map (g : Engine) (pos : Position) (es : List Expr) :
    silences g pos es = es.map (·.isSilent g pos) := by
  induction es with
  | nil => rfl
  | cons e es ih => rw [silences, ih, List.map_cons]

end Expr

namespace Render

variable {silent : Expr → Bool}

-- Whatever a rendering gives has text, or has none.
def IsBlank (r : Render Sql) (b : Bool) : Prop := ∀ out, Yields r out fun s _ => s.isBlank = b

def AreBlank (r : Render (List Sql)) (bs : List Bool) : Prop :=
  ∀ out, Yields r out fun ss _ => ss.map Sql.isBlank = bs

variable {frag : FragmentRenderer} {ctx : Context} {pos : Position} {left right : Render Sql}

theorem isBlank_column (owner name : String) : IsBlank (column ctx owner name) false := by
  refine fun out => yields_column (fun _ _ col _ => ?_) fun scope _ _ _ col _ => ?_
  · unfold Scope.columnText
    split <;> simp [Token.isBlank]
  · simp [Token.isBlank]

theorem isBlank_bind (v : Value) : IsBlank (bind ctx v) false := by
  intro out
  rw [yields_bindParam]
  intro w _
  rfl

theorem isBlank_bindItem (v : Value) : IsBlank (bindItem ctx v) false := by
  intro out
  unfold bindItem
  split
  · exact yields_pure.mpr rfl
  · exact isBlank_bind v out

theorem isBlank_asCondition (s : Sql) : (asCondition ctx s).isBlank =
    (ctx.dialect.capabilities.booleanPredicates && s.isBlank) := by
  unfold asCondition
  split <;> simp [*, Token.isBlank]

theorem isBlank_standing {value : Render Sql} (h : IsBlank value false) :
    IsBlank (standing ctx pos value) false := by
  intro out
  simp only [standing, yields_bind, yields_pure]
  refine (h out).mono fun s _ hs => ?_
  split
  · exact hs
  · rw [isBlank_asCondition, hs, Bool.and_false]

theorem isBlank_negated (inner : Render Sql) : IsBlank (negated ctx inner) false := by
  intro out
  unfold negated
  split
  · simp
  · simp only [yields_bind, yields_pure]
    intro s _ _
    unfold negation
    split
    · rfl
    · simp

theorem isBlank_nullTest (op : LogicOp) : IsBlank (nullTest op left) false := by
  intro out
  simp only [nullTest, yields_bind, yields_pure]
  intro s _ _
  split <;> simp [Token.isBlank]

theorem isBlank_membership (op : LogicOp) (grouped : Bool) {b : Bool} (hright : IsBlank right b) :
    IsBlank (membership ctx op grouped left right) (op.isNegated && b) := by
  intro out
  simp only [membership, yields_bind, yields_paramCount]
  intro l mid _
  refine (hright mid).mono fun r out' hr => ?_
  refine yields_ite.mpr ⟨fun hblank => ?_, fun hblank => ?_⟩
  · simp only [yields_bind, yields_release, yields_pure]
    rw [← hr, hblank, Bool.and_true]
    split <;> simp [*, Sql.ofText, Token.isBlank]
  · obtain rfl : b = false := by simpa [hr] using hblank
    split
    · simp
    · simp [Token.isBlank]

theorem isBlank_patternTest (op : LogicOp) (known : Option String) :
    IsBlank (patternTest ctx op known left right) false := by
  intro out
  simp only [patternTest]
  split
  · simp
  · simp only [yields_bind, yields_pure]
    intro l _ _ r _ _
    simp [Token.isBlank]

theorem isBlank_comparison (op : LogicOp) : IsBlank (comparison ctx op left right) false := by
  intro out
  simp only [comparison]
  split
  · simp
  · simp only [yields_bind, yields_pure]
    intro l _ _ r _ _
    simp [Token.isBlank]

theorem isBlank_called (name : String) (args : Render (List Sql)) :
    IsBlank (called name args) false := by
  intro out
  simp only [called, yields_bind, yields_checkName, yields_pure]
  intro _ ss _ _
  simp

theorem isBlank_aggregation (name : String) (distinct : Bool) (arg : Render (Option Sql)) :
    IsBlank (aggregation name distinct arg) false := by
  intro out
  simp only [aggregation, yields_bind, yields_checkName, yields_pure]
  intro _ s _ _
  simp

theorem isBlank_listed {items : Render (List Sql)} {bs : List Bool} (h : AreBlank items bs) :
    IsBlank (listed items) bs.isEmpty := by
  intro out
  simp only [listed, yields_bind, yields_pure]
  refine (h out).mono fun ss _ hss => ?_
  subst hss
  cases ss <;> simp

theorem isBlank_existence (relation label : String) (tableArgs : List String)
    (inner : Context → Render Sql) :
    IsBlank (existence ctx relation label tableArgs inner) false := by
  intro out
  simp only [existence, yields_bind, yields_ofExcept]
  intro join _
  refine yields_ite.mpr ⟨fun _ => yields_fail.mpr trivial, fun _ => ?_⟩
  simp only [yields_bind, yields_forM_checkName, yields_nextTable, yields_enter, yields_pure]
  intro _ _ s _ _
  simp [Token.isBlank]

theorem isBlank_subquery (object : String) (body : Context → Render Sql) :
    IsBlank (subquery ctx object body) false := by
  intro out
  simp only [subquery, yields_bind, yields_ofExcept, yields_nextTable, yields_enter, yields_pure]
  intro table _ _ s _ _
  simp

theorem areBlank_exprs {es : List Expr}
    (h : ∀ e ∈ es, IsBlank (expr frag ctx .operand e) (silent e)) :
    AreBlank (exprs frag ctx es) (es.map silent) := by
  induction es with
  | nil => exact fun out => yields_pure.mpr rfl
  | cons e es ih =>
    obtain ⟨he, hes⟩ := List.forall_mem_cons.mp h
    intro out
    simp only [exprs, yields_bind, yields_pure]
    refine (he out).mono fun s mid hs => (ih hes mid).mono fun ss _ hss => ?_
    rw [List.map_cons, hs, hss, List.map_cons]

theorem yields_conditions {es : List Expr}
    (h : ∀ e ∈ es, IsBlank (expr frag ctx .condition e) (silent e)) (out : Output) :
    Yields (conditions frag ctx es) out fun p _ => p.1.isEmpty = es.all silent ∧
      p.2 = es.any silent ∧ ∀ s ∈ p.1, s.isBlank = false := by
  induction es generalizing out with
  | nil => exact yields_pure.mpr ⟨rfl, rfl, by simp⟩
  | cons e es ih =>
    obtain ⟨he, hes⟩ := List.forall_mem_cons.mp h
    simp only [conditions, yields_bind, yields_pure]
    refine (he out).mono fun s mid hs => (ih hes mid).mono fun p _ hp => ?_
    obtain ⟨hall, hany, hwords⟩ := hp
    rw [List.all_cons, List.any_cons, ← hs]
    cases hblank : s.isBlank with
    | true => simpa using ⟨hall, hwords⟩
    | false => simpa [hblank] using ⟨hany, hwords⟩

theorem isBlank_combined (h : ∀ e ∈ items, IsBlank (expr frag ctx .condition e) (silent e)) :
    IsBlank (combined pos kind (conditions frag ctx items))
      (if kind == .or then items.isEmpty || items.any silent else items.all silent) := by
  intro out
  simp only [combined, yields_bind, yields_paramCount]
  refine (yields_conditions h out).mono fun p mid hp => ?_
  obtain ⟨parts, vacuous⟩ := p
  obtain ⟨hall, rfl, hwords⟩ := hp
  simp only at hall hwords ⊢
  split
  · next hvacuous =>
    simp only [yields_bind, yields_release, yields_pure]
    simp_all
  · next hvacuous =>
    have hall : (if kind == .or then items.isEmpty || items.any silent else items.all silent) =
        parts.isEmpty := by
      rw [hall]
      split
      · next hor =>
        cases items with
        | nil => rfl
        | cons e es => simp_all
      · rfl
    rw [hall]
    split
    · exact yields_pure.mpr rfl
    · exact yields_pure.mpr (by simpa using hwords)
    · next hne _ =>
      rw [yields_pure, (by simpa using hne : parts.isEmpty = false)]
      split
      · exact isBlank_joinConditions kind hne hwords
      · exact Sql.isBlank_enclosed _

section Engines

variable {g : Engine} (hctx : ctx.dialect = g.dialect)
include hctx

theorem isBlank_literal (v : Value) (const : Bool) :
    IsBlank (literal ctx v const) (!const && v.isEmptyList) := by
  intro out
  unfold literal
  split
  · next hnull =>
    obtain rfl := v.isNull_iff.mp hnull
    rw [yields_pure]
    cases const <;> rfl
  · cases const with
    | true =>
      simp only [if_true, yields_ite, yields_unsupported, implies_true, and_true, yields_bind,
        yields_ofExcept, yields_pure]
      intro _ s hs
      rw [hctx] at hs
      simpa [Token.isBlank] using g.literal_ne_empty hs
    | false =>
      simp only [Bool.false_eq_true, if_false, Value.isEmptyList, Bool.not_false, Bool.true_and]
      split
      · next hitems => simp [hitems]
      · next vs hne hitems =>
        simp only [yields_bind, yields_pure, hitems]
        intro ss _ _
        cases vs with
        | nil => exact absurd rfl hne
        | cons w ws => simp
      · next hitems =>
        rw [hitems]
        exact isBlank_bind v out

theorem isBlank_condition (v : Value) (const : Bool) :
    IsBlank (condition ctx v const) (v.isNull ||
      (g.dialect.capabilities.booleanPredicates && !const && v.isEmptyList)) := by
  intro out
  unfold condition
  split
  · exact yields_pure.mpr rfl
  · exact yields_pure.mpr (by simp [Sql.ofText, Token.isBlank, Value.isNull])
  · exact yields_pure.mpr (by simp [Sql.ofText, Token.isBlank, Value.isNull])
  · next hnull _ _ =>
    have hnull : v.isNull = false := Bool.eq_false_iff.mpr fun h =>
      absurd (v.isNull_iff.mp h) hnull
    simp only [yields_bind, yields_pure, hnull, Bool.false_or, Bool.and_assoc]
    refine (isBlank_literal hctx v const out).mono fun s _ hs => ?_
    rw [isBlank_asCondition, hs, hctx]

theorem isBlank_signed (op : UnaryOp) : IsBlank (signed ctx op left) false := by
  intro out
  simp only [signed, hctx]
  split
  · simp
  · next kw hkw =>
    simp only [yields_bind, yields_pure]
    intro s _ _
    simp [Token.isBlank, g.unaryKeyword_ne_empty hkw]

theorem isBlank_concat (ss : List Sql) : (ctx.dialect.concat ss).isBlank =
    (g.joinsBySign && decide (ss.length ≤ 1) && (ss.map Sql.isBlank).all id) := by
  rw [hctx]
  cases g with
  | postgres escape => exact Sql.isBlank_joined (by decide) ss
  | sqlite escape => exact Sql.isBlank_joined (by decide) ss
  | mssql escape strict => exact Sql.isBlank_joined (by decide) ss
  | mariadb escape => rfl

theorem isBlank_computation (op : ValueOp) : IsBlank (computation ctx op left right) false := by
  intro out
  simp only [computation, yields_bind]
  intro l _ _ r _ _
  refine yields_ite.mpr ⟨fun _ => yields_pure.mpr ?_, fun _ => ?_⟩
  · simp [isBlank_concat hctx]
  · split
    · simp
    · simp

theorem isBlank_concatenated {items : Render (List Sql)} {bs : List Bool}
    (h : AreBlank items bs) : IsBlank (concatenated ctx items)
      (g.joinsBySign && decide (bs.length ≤ 1) && bs.all id) := by
  intro out
  simp only [concatenated, yields_bind, yields_pure]
  refine (h out).mono fun ss _ hss => ?_
  rw [isBlank_concat hctx, ← hss, List.length_map]

theorem isBlank_set (kind : SetKind)
    (hconditions : ∀ x ∈ items, IsBlank (expr frag ctx .condition x) (x.isSilent g .condition))
    (hoperands : ∀ x ∈ items, IsBlank (expr frag ctx .operand x) (x.isSilent g .operand)) :
    IsBlank (expr frag ctx pos (.set kind items)) ((Expr.set kind items).isSilent g pos) := by
  have hitems := areBlank_exprs hoperands
  simp only [expr, Expr.isSilent, Expr.silences_eq_map]
  intro out
  refine yields_ite.mpr ⟨fun hlogical => ?_, fun hlogical => yields_ite.mpr ⟨fun hlist => ?_,
    fun hlist => yields_ite.mpr ⟨fun _ => ?_, fun _ => yields_unsupported.mpr trivial⟩⟩⟩
  · rw [if_pos hlogical, List.any_map, List.all_map]
    exact isBlank_combined hconditions out
  · have hor : ¬(kind == .or) = true := fun h => hlogical (by simp [SetKind.isLogical, h])
    rw [if_neg hor, if_neg hlogical, if_pos hlist, ← List.isEmpty_map]
    exact isBlank_listed hitems out
  · have hor : ¬(kind == .or) = true := fun h => hlogical (by simp [SetKind.isLogical, h])
    rw [if_neg hor, if_neg hlogical, if_neg hlist]
    simpa using isBlank_concatenated hctx hitems out

-- Whether an expression is rendered as nothing does not depend on what comes before it.
theorem isBlank_expr (e : Expr) (hs : e.isStatic = true) (pos : Position) :
    IsBlank (expr frag ctx pos e) (e.isSilent g pos) := by
  induction e generalizing pos with
  | value v const =>
    simp only [expr, Expr.isSilent]
    split
    · exact isBlank_literal hctx v const
    · exact isBlank_condition hctx v const
  | property owner name => exact isBlank_standing (isBlank_column owner name)
  | unary op x ih =>
    have hx : x.isStatic = true := ((Expr.isStatic_iff _).mp hs).2 x (by simp [Expr.parts])
    simp only [expr, Expr.isSilent]
    split
    · next hnot =>
      obtain rfl : op = .not := by simpa using hnot
      exact isBlank_negated _
    · split
      · next hid =>
        rw [hid, Bool.true_and]
        exact ih hx _
      · next hid =>
        rw [(by simpa using hid : (op == .identity) = false), Bool.false_and]
        intro out
        exact yields_ite.mpr ⟨fun _ => yields_unsupported.mpr trivial,
          fun _ => isBlank_signed hctx op out⟩
  | compare op l r ihl ihr =>
    have hr : r.isStatic = true := ((Expr.isStatic_iff _).mp hs).2 r (by simp [Expr.parts])
    simp only [expr, Expr.isSilent]
    intro out
    refine yields_ite.mpr ⟨fun _ => yields_unsupported.mpr trivial, fun _ => ?_⟩
    refine yields_ite.mpr ⟨fun hnull => ?_, fun _ => yields_ite.mpr ⟨fun hin => ?_, fun hin => ?_⟩⟩
    · have hin : (op.positive == .isIn) = false := by
        have hequal : op.positive = .equal := by simpa using (Bool.and_eq_true_iff.mp hnull).1
        rw [hequal]
        decide
      rw [hin, Bool.false_and, Bool.false_and]
      exact isBlank_nullTest op out
    · rw [hin, Bool.true_and]
      exact isBlank_membership op _ (ihr hr .operand) out
    · rw [(by simpa using hin : (op.positive == .isIn) = false), Bool.false_and, Bool.false_and]
      exact yields_ite.mpr ⟨fun _ => isBlank_patternTest op _ out,
        fun _ => isBlank_comparison op out⟩
  | compute op l r ihl ihr =>
    simp only [expr, Expr.isSilent]
    intro out
    exact yields_ite.mpr ⟨fun _ => yields_unsupported.mpr trivial,
      fun _ => isBlank_computation hctx op out⟩
  | call name args ih => exact isBlank_standing (isBlank_called name _)
  | aggregate name arg distinct ih => exact isBlank_aggregation name distinct _
  | set kind items ih =>
    have hitems : ∀ x ∈ items, x.isStatic = true := ((Expr.isStatic_iff _).mp hs).2
    have hsilent : ∀ p, ∀ x ∈ items, IsBlank (expr frag ctx p x) (x.isSilent g p) :=
      fun p x hx => ih x hx (hitems x hx) p
    exact isBlank_set hctx kind (hsilent .condition) (hsilent .operand)
  | related relation label inner tableArgs ih =>
    simp only [expr, Expr.isSilent]
    intro out
    exact yields_ite.mpr ⟨fun _ => yields_unsupported.mpr trivial,
      fun _ => isBlank_existence relation label tableArgs _ out⟩
  | fragment key arg => cases ((Expr.isStatic_iff _).mp hs).1
  | query q ih => exact isBlank_subquery q.object _

theorem isBlank_pattern (op : LogicOp) (r : Expr) :
    IsBlank ((Piece.pattern ctx op r).render frag) false := by
  intro out
  simp only [Piece.render, patternOf]
  split
  · exact isBlank_bind _ out
  · simp only [yields_bind, yields_pure, wildcards]
    intro s _ _
    repeat' split
    all_goals simp [isBlank_concat hctx]

end Engines

theorem isBlank_statement (q : Query) : IsBlank (statement frag ctx q) false := by
  intro out
  simp only [statement, assembled, yields_bind, yields_pure]
  intro _ _ _ _ _ _ _ _ _ _ _ _ _ _ _ _ _ _
  simp [Token.isBlank]

end Render

def Piece.isSilent (g : Engine) : Piece → Bool
  | .expr _ pos e => e.isSilent g pos
  | .statement .. | .pattern .. | .item .. => false

theorem Piece.isBlank_render {frag : FragmentRenderer} {g : Engine} (p : Piece)
    (hp : p.context.dialect = g.dialect) (hs : ∀ e ∈ p.exprs, e.isStatic = true) :
    Render.IsBlank (p.render frag) (p.isSilent g) := by
  cases p with
  | expr ctx pos e => exact Render.isBlank_expr hp e (hs e (List.mem_singleton_self e)) pos
  | statement ctx q => exact Render.isBlank_statement q
  | pattern ctx op r => exact Render.isBlank_pattern hp op r
  | item ctx v => exact Render.isBlank_bindItem v

namespace Expr

-- What all silence comes from: null, a list without items, a set without members.
def isHollow : Expr → Bool
  | .value v _ => v.isNull || v.isEmptyList
  | .set _ items => items.isEmpty
  | _ => false

theorem exists_hollow_of_silent_member {g : Engine} {pos : Position} {x : Expr} (hx : x ∈ items)
    (hsilent : x.isSilent g pos = true)
    (ih : ∀ x ∈ items, ∀ pos, x.isSilent g pos = true → ∃ y ∈ x.nodes, y.isHollow = true) :
    ∃ y ∈ (Expr.set kind items).nodes, y.isHollow = true := by
  obtain ⟨y, hy, hhollow⟩ := ih x hx pos hsilent
  exact ⟨y, mem_nodes_of_part hx hy, hhollow⟩

theorem exists_hollow_of_all_silent {g : Engine} {pos : Position}
    (h : (silences g pos items).all id = true)
    (ih : ∀ x ∈ items, ∀ pos, x.isSilent g pos = true → ∃ y ∈ x.nodes, y.isHollow = true) :
    ∃ y ∈ (Expr.set kind items).nodes, y.isHollow = true := by
  cases items with
  | nil => exact ⟨_, self_mem_nodes _, rfl⟩
  | cons x xs =>
    have hx : x.isSilent g pos = true := by
      simpa using (Bool.and_eq_true_iff.mp h).1
    exact exists_hollow_of_silent_member List.mem_cons_self hx ih

theorem exists_hollow {g : Engine} {e : Expr} {pos : Position} (h : e.isSilent g pos = true) :
    ∃ x ∈ e.nodes, x.isHollow = true := by
  induction e generalizing pos with
  | value v const =>
    refine ⟨_, self_mem_nodes _, ?_⟩
    simp only [isSilent] at h
    simp only [isHollow]
    grind
  | unary op x ih =>
    obtain ⟨y, hy, hhollow⟩ := ih (Bool.and_eq_true_iff.mp h).2
    exact ⟨y, mem_nodes_of_part (by simp [parts]) hy, hhollow⟩
  | compare op l r ihl ihr =>
    obtain ⟨y, hy, hhollow⟩ := ihr (Bool.and_eq_true_iff.mp h).2
    exact ⟨y, mem_nodes_of_part (by simp [parts]) hy, hhollow⟩
  | set kind items ih =>
    have ih : ∀ x ∈ items, ∀ pos, x.isSilent g pos = true → ∃ y ∈ x.nodes, y.isHollow = true :=
      fun x hx pos hsilent => ih x hx hsilent
    have hempty : items.isEmpty = true → ∃ y ∈ (Expr.set kind items).nodes, y.isHollow = true :=
      fun hitems => ⟨_, self_mem_nodes _, hitems⟩
    simp only [isSilent] at h
    split at h
    · rcases Bool.or_eq_true_iff.mp h with hitems | hany
      · exact hempty hitems
      · rw [silences_eq_map, List.any_map, List.any_eq_true] at hany
        obtain ⟨x, hx, hsilent⟩ := hany
        exact exists_hollow_of_silent_member hx hsilent ih
    · split at h
      · exact exists_hollow_of_all_silent h ih
      · split at h
        · exact hempty h
        · exact exists_hollow_of_all_silent (Bool.and_eq_true_iff.mp h).2 ih
  | _ => cases h

end Expr

theorem Piece.exists_hollow {g : Engine} (p : Piece) (h : p.isSilent g = true) :
    ∃ x ∈ p.exprs.flatMap Expr.nodes, x.isHollow = true := by
  cases p with
  | expr ctx pos e => simpa [exprs] using Expr.exists_hollow h
  | _ => cases h

-- Whatever a statement is put together from has text, but for what is silent: that is written as
-- nothing, as an operand too, and it holds null, a list without items or a set without members.
theorem spliced_empty_iff_silent (g : Engine) (c : Compilation) (hc : c.dialect = some g.dialect)
    (e : Expr) (hs : e.isStatic = true) (st : Statement) (h : c.run (some e) = .ok st)
    (o : Occurrence) (ho : c.Splices e o) :
    ∃ s, o.Gives c.fragments s ∧ s <:+: st.tokens ∧
      (g.dialect.text s = "" ↔ o.piece.isSilent g = true) ∧
      (g.dialect.text s = "" → ∃ x ∈ e.nodes, x.isHollow = true) := by
  obtain ⟨hdialect, hexprs, s, hgives, hstands⟩ := ho.stands hc h
  have hstatic : ∀ x ∈ o.piece.exprs, x.isStatic = true :=
    fun x hx => Expr.isStatic_of_mem_nodes hs (hexprs hx)
  obtain ⟨out, hrun⟩ := hgives
  have hblank : s.isBlank = o.piece.isSilent g :=
    o.piece.isBlank_render hdialect hstatic o.before s out hrun
  have hiff : g.dialect.text s = "" ↔ o.piece.isSilent g = true := by
    rw [g.text_eq_empty_iff, hblank]
  refine ⟨s, ⟨out, hrun⟩, hstands, hiff, fun hempty => ?_⟩
  obtain ⟨x, hx, hhollow⟩ := o.piece.exists_hollow (hiff.mp hempty)
  obtain ⟨y, hy, hxy⟩ := List.mem_flatMap.mp hx
  exact ⟨x, Expr.nodes_subset (hexprs hy) hxy, hhollow⟩

-- Both arguments of a call are written, the first as nothing.
theorem spliced_empty_iff_silent_arguments :
    ∃ (g : Engine) (c : Compilation) (e : Expr) (st : Statement) (first second : Occurrence),
      c.dialect = some g.dialect ∧ e.isStatic = true ∧ c.run (some e) = .ok st ∧
      st.text = "SELECT COALESCE(, \"A\") AS \"x\" FROM \"t_Row\"" ∧
      (c.Splices e first ∧ first.role = .argument ∧
        ∃ s, first.Gives c.fragments s ∧ s <:+: st.tokens ∧ g.dialect.text s = "") ∧
      (c.Splices e second ∧ second.role = .argument ∧
        ∃ s, second.Gives c.fragments s ∧ s <:+: st.tokens ∧ g.dialect.text s ≠ "") ∧
      ∃ x ∈ e.nodes, x.isHollow = true := by
  let call : Expr := .call "COALESCE" [.value (.items []) false, .property "" "A"]
  let q : Query := .select (.rows "Row") [⟨call, "x"⟩]
  let e : Expr := .query q
  let schema : Schema := { tables := [⟨"t_Row", ["A"]⟩], bindings := [("Row", "t_Row")] }
  let g : Engine := .sqlite '/'
  let c : Compilation := { resolver := some schema.resolver, dialect := some g.dialect }
  let ctx : Context := ⟨g.dialect, schema.resolver, { object := "Row", table := "t_Row" }, [], 0⟩
  let whole : Occurrence := ⟨⟨.itself, .statement ctx q⟩, {}⟩
  let column : Occurrence := ⟨⟨.column, .expr ctx .operand call⟩, {}⟩
  have hpiece : c.piece schema.resolver g.dialect e = .ok whole.piece := rfl
  have hcolumn : column ∈ whole.parts c.fragments := List.mem_cons_self
  have hwithin : Occurrence.Within c.fragments whole column := .part .whole hcolumn
  obtain ⟨first, second, hparts, ⟨hrole, hsilent⟩, ⟨hrole', hsilent'⟩⟩ :
      ∃ first second : Occurrence, column.parts c.fragments = [first, second] ∧
        (first.role = .argument ∧ first.piece.isSilent g = true) ∧
        (second.role = .argument ∧ second.piece.isSilent g = false) :=
    ⟨_, _, rfl, ⟨rfl, rfl⟩, ⟨rfl, rfl⟩⟩
  have hfirst : c.Splices e first := ⟨_, _, _, rfl, rfl, hpiece, hwithin.part (by simp [hparts])⟩
  have hsecond : c.Splices e second := ⟨_, _, _, rfl, rfl, hpiece, hwithin.part (by simp [hparts])⟩
  obtain ⟨st, hrun, htext⟩ : ∃ st, c.run (some e) = .ok st ∧
      st.text = "SELECT COALESCE(, \"A\") AS \"x\" FROM \"t_Row\"" :=
    ⟨_, rfl, by decide +kernel⟩
  obtain ⟨s, hs, hstands, hiff, hhollow⟩ :=
    spliced_empty_iff_silent g c rfl e rfl st hrun first hfirst
  obtain ⟨t, ht, hstands', hiff', -⟩ :=
    spliced_empty_iff_silent g c rfl e rfl st hrun second hsecond
  have hempty : g.dialect.text s = "" := hiff.mpr hsilent
  have hword : g.dialect.text t ≠ "" := fun h => absurd (hiff'.mp h) (by simp [hsilent'])
  exact ⟨g, c, e, st, first, second, rfl, rfl, hrun, htext,
    ⟨hfirst, hrole, s, hs, hstands, hempty⟩, ⟨hsecond, hrole', t, ht, hstands', hword⟩,
    hhollow hempty⟩

-- A selected condition that excludes no values leaves a case distinction without a condition.
theorem case_condition_without_text :
    ∃ (text : String) (tree : Expr) (c : Compilation) (st : Statement) (o : Occurrence),
      Codec.decodeText text = .ok tree ∧ tree.isStatic = true ∧
      c.dialect = some (Engine.mssql '/' false).dialect ∧ c.run (some tree) = .ok st ∧
      st.text = "SELECT CASE WHEN  THEN 1 ELSE 0 END AS [x] FROM [t_Row]" ∧
      c.Splices tree o ∧ o.role = .caseCondition ∧ o.Gives c.fragments [] := by
  let condition : Expr := .compare .notIn (.property "" "A") (.value (.items []) false)
  let q : Query := .select (.rows "Row") [⟨condition, "x"⟩]
  let tree : Expr := .query q
  let schema : Schema := { tables := [⟨"t_Row", ["A"]⟩], bindings := [("Row", "t_Row")] }
  let g : Engine := .mssql '/' false
  let c : Compilation := { resolver := some schema.resolver, dialect := some g.dialect }
  let ctx : Context := ⟨g.dialect, schema.resolver, { object := "Row", table := "t_Row" }, [], 0⟩
  have hwell : tree.isWellFormed = true := by decide +kernel
  obtain ⟨text, -, hdecode⟩ := Codec.decodeText_encodeText hwell
  have hnormal : tree.normal = tree := rfl
  rw [hnormal] at hdecode
  obtain ⟨st, hrun, htext⟩ : ∃ st, c.run (some tree) = .ok st ∧
      st.text = "SELECT CASE WHEN  THEN 1 ELSE 0 END AS [x] FROM [t_Row]" :=
    ⟨_, rfl, by decide +kernel⟩
  let whole : Occurrence := ⟨⟨.itself, .statement ctx q⟩, {}⟩
  let o : Occurrence := ⟨⟨.caseCondition, .expr ctx .condition condition⟩, {}⟩
  have ho : o ∈ whole.parts c.fragments := List.mem_cons_self
  exact ⟨text, tree, c, st, o, hdecode, rfl, rfl, hrun, htext,
    ⟨_, _, _, rfl, rfl, rfl, .part .whole ho⟩, rfl, _, rfl⟩

end QueryTree
