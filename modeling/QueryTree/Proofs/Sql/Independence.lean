import QueryTree.Proofs.Expr.Outline
import QueryTree.Proofs.Sql.Uniform

namespace QueryTree

-- How a parameter comes from a literal: as the whole of it, as one of its items, or as the pattern
-- that a comparison makes of it.
inductive Source where
  | whole
  | item (n : Nat)
  | pattern (op : LogicOp)
deriving DecidableEq, Inhabited

def Source.pick (escape : Char) : Source → Value → Value
  | .whole, v => v
  | .item n, v => (v.collection?.getD [])[n]?.getD .null
  | .pattern op, v => .text (wrapPattern op (escapeLike v.display escape))

-- Literals of which a statement shows the same: where there are nulls, and in a constant what is
-- written.
structure Value.Alike (const : Bool) (v w : Value) : Prop where
  isNull : v.isNull = w.isNull
  nulls : v.collection?.map (·.map Value.isNull) = w.collection?.map (·.map Value.isNull)
  bool : const = true → ∀ b, v = .bool b ↔ w = .bool b
  isPrimitive : const = true → v.isPrimitive = w.isPrimitive
  written : const = true → ∀ yes no,
    (writeLiteral v yes no).toOption = (writeLiteral w yes no).toOption

namespace Render

variable {ι : Type} {G : (ι → DriverValue) → Prop} {g : Engine} {ctx : Context}

-- A family of literals that statements show alike, all of whose parameters may be bound.
structure Bindable (G : (ι → DriverValue) → Prop) (g : Engine) (const : Bool) (v : ι → Value) :
    Prop where
  alike : ∀ i j, (v i).Alike const (v j)
  bound : ∀ source : Source, G fun i => g.driverValue (source.pick g.dialect.escape (v i))

theorem exists_cons_family {vs : ι → List Value} {null : Bool} {nulls : List Bool}
    (hnulls : ∀ i, (vs i).map Value.isNull = null :: nulls) :
    ∃ (v : ι → Value) (ws : ι → List Value), vs = fun i => v i :: ws i := by
  refine ⟨fun i => (vs i).headD .null, fun i => (vs i).tail, funext fun i => ?_⟩
  obtain ⟨w, us, hw, -⟩ := List.map_eq_cons_iff.mp (hnulls i)
  simp [hw]

section Literals

variable (hctx : ctx.dialect = g.dialect)
include hctx

theorem uniform_bindParam {v : ι → Value} (hv : G fun i => g.driverValue (v i)) :
    Uniform G fun i => bind ctx (v i) := by
  intro t ht
  refine .inl ⟨[.placeholder t.params.length],
    { t with params := t.params ++ [fun i => g.driverValue (v i)] }, ?_, fun i => ?_⟩
  · intro p hp
    rcases List.mem_append.mp hp with h | h
    · exact ht p h
    · rw [List.mem_singleton.mp h]
      exact hv
  · have hrun : bind ctx (v i) (t.output i) = .ok ([.placeholder (t.output i).params.size],
        { t.output i with params := (t.output i).params.push (g.driverValue (v i)) }) := by
      unfold bind
      rw [hctx, g.convert_eq]
      rfl
    change bind ctx (v i) (t.output i) = _
    rw [hrun, t.size_output i]
    simp [Trace.output]

theorem uniform_bindItems {vs : ι → List Value} {nulls : List Bool}
    (hnulls : ∀ i, (vs i).map Value.isNull = nulls)
    (hvs : ∀ n : Nat, G fun i => g.driverValue ((vs i)[n]?.getD .null)) :
    Uniform G fun i => bindItems ctx (vs i) := by
  induction nulls generalizing vs with
  | nil =>
    obtain rfl : vs = fun _ => [] := funext fun i => List.map_eq_nil_iff.mp (hnulls i)
    exact uniform_pure []
  | cons null nulls ih =>
    -- The lists have a first item each, null in all of them or in none.
    obtain ⟨v, ws, rfl⟩ := exists_cons_family hnulls
    simp only [List.map_cons, List.cons.injEq] at hnulls
    have hitem : Uniform G fun i => bindItem ctx (v i) := by
      simp only [bindItem, fun i => (hnulls i).1]
      split
      · exact uniform_pure _
      · exact uniform_bindParam hctx (hvs 0)
    have hrest := ih (fun i => (hnulls i).2) fun n => hvs (n + 1)
    exact hitem.bind fun s => hrest.bind fun ss => uniform_pure _

theorem uniform_literal {const : Bool} {v : ι → Value} (hv : Bindable G g const v) :
    Uniform G fun i => literal ctx (v i) const := by
  refine .of_member fun i₀ => ?_
  unfold literal
  simp only [fun i => (hv.alike i i₀).isNull]
  split
  · exact uniform_pure _
  · cases const with
    | true =>
      simp only [fun i => (hv.alike i i₀).isPrimitive rfl, if_true]
      split
      · have hwritten : ∀ i j, (ctx.dialect.literal (v i)).toOption =
            (ctx.dialect.literal (v j)).toOption := by
          intro i j
          rw [hctx]
          exact g.literal_congr fun yes no => (hv.alike i j).written rfl yes no
        exact (uniform_ofExcept_of_toOption hwritten).bind fun _ => uniform_pure _
      · exact uniform_fail _
    | false =>
      simp only [Bool.false_eq_true, if_false]
      cases hitems : (v i₀).collection? with
      | none =>
        have hnone : ∀ i, (v i).collection? = none := by
          intro i
          have hnulls := (hv.alike i i₀).nulls
          simpa [hitems] using hnulls
        simp only [hnone]
        exact uniform_bindParam hctx (hv.bound .whole)
      | some us =>
        obtain ⟨vs, hvs, hnulls⟩ : ∃ vs : ι → List Value,
            (∀ i, (v i).collection? = some (vs i)) ∧
              ∀ i, (vs i).map Value.isNull = us.map Value.isNull := by
          refine ⟨fun i => (v i).collection?.getD [], ?_, ?_⟩
          all_goals
            intro i
            have hi := (hv.alike i i₀).nulls
            rw [hitems] at hi
            obtain ⟨ws, hws, hmap⟩ := Option.map_eq_some_iff.mp hi
            simp [hws, hmap]
        have hbound : ∀ n : Nat, G fun i => g.driverValue ((vs i)[n]?.getD .null) := by
          intro n
          simpa [Source.pick, hvs] using hv.bound (.item n)
        have hrun := uniform_bindItems hctx hnulls hbound
        simp only [hvs]
        cases us with
        | nil =>
          obtain rfl : vs = fun _ => [] := funext fun i => List.map_eq_nil_iff.mp (hnulls i)
          exact uniform_pure _
        | cons u us =>
          obtain ⟨w, ws, rfl⟩ := exists_cons_family hnulls
          exact hrun.bind fun _ => uniform_pure _

omit hctx in
theorem condition_eq {v : Value} {const : Bool} (hnull : v.isNull = false)
    (hbool : const = true → ∀ b, v ≠ .bool b) :
    condition ctx v const = do return asCondition ctx (← literal ctx v const) := by
  unfold condition
  split
  · simp [Value.isNull] at hnull
  · exact absurd rfl (hbool rfl true)
  · exact absurd rfl (hbool rfl false)
  · rfl

theorem uniform_condition {const : Bool} {v : ι → Value} (hv : Bindable G g const v) :
    Uniform G fun i => condition ctx (v i) const := by
  refine .of_member fun i₀ => ?_
  have hliteral := (uniform_literal hctx hv).bind fun s => uniform_pure (asCondition ctx s)
  by_cases hnull : (v i₀).isNull = true
  · obtain rfl : v = fun _ => .null := by
      funext i
      have hi := (hv.alike i i₀).isNull.trans hnull
      cases h : v i <;> simp_all [Value.isNull]
    exact uniform_pure []
  · by_cases hbool : const = true ∧ ∃ b, v i₀ = .bool b
    · obtain ⟨rfl, b, hb⟩ := hbool
      obtain rfl : v = fun _ => .bool b :=
        funext fun i => ((hv.alike i i₀).bool rfl b).mpr hb
      cases b <;> exact uniform_pure _
    · have heq : ∀ i, condition ctx (v i) const =
          do return asCondition ctx (← literal ctx (v i) const) := by
        intro i
        refine condition_eq ?_ ?_
        · rw [(hv.alike i i₀).isNull]
          simpa using hnull
        · intro hconst b hb
          exact hbool ⟨hconst, b, ((hv.alike i i₀).bool hconst b).mp hb⟩
      simp only [heq]
      exact hliteral

theorem uniform_patternOf (op : LogicOp) {known : ι → Option String} {right : ι → Render Sql}
    (hknown : (∀ i, known i = none) ∨ ∃ s : ι → String, (∀ i, known i = some (s i)) ∧
      G fun i => g.driverValue (.text (wrapPattern op (escapeLike (s i) g.dialect.escape))))
    (hr : Uniform G right) : Uniform G fun i => patternOf ctx op (known i) (right i) := by
  rcases hknown with hnone | ⟨s, hsome, hs⟩
  · simp only [patternOf, hnone]
    exact hr.bind fun _ => uniform_pure _
  · simp only [patternOf, hsome]
    rw [hctx]
    exact uniform_bindParam hctx hs

end Literals

-- Renderings of the expressions that come from one by putting other literals into it.
section Trees

variable (G) (g) (frag : FragmentRenderer) (σ : ι → Value → Bool → Value) (τ : ι → Value → Value)

-- What is wanted of a node: literals that can be bound, fragments that are uniform themselves.
def Carried : Expr → Prop
  | .value v const => Bindable G g const fun i => σ i v const
  | .fragment key arg =>
    ∀ ctx : Context, ctx.dialect = g.dialect → Uniform G fun i => frag ctx key (τ i arg)
  | _ => True

def TreeUniform (e : Expr) : Prop :=
  ∀ (ctx : Context) (pos : Position), ctx.dialect = g.dialect →
    Uniform G fun i => expr frag ctx pos (e.mapValues (σ i) (τ i))

variable {G g frag σ τ}

theorem isNull_mapValues {e : Expr} (he : Carried G g frag σ τ e) (i j : ι) :
    (e.mapValues (σ i) (τ i)).isNull = (e.mapValues (σ j) (τ j)).isNull := by
  cases e with
  | value v const =>
    have hnull : ∀ w : Value, (Expr.value w const).isNull = w.isNull := by
      intro w
      cases w <;> rfl
    simp only [Expr.mapValues, hnull]
    exact (he.alike i j).isNull
  | _ => rfl

theorem isSome_collection {const : Bool} {v w : Value} (h : v.Alike const w) :
    v.collection?.isSome = w.collection?.isSome := by
  have hnulls := congrArg Option.isSome h.nulls
  simpa using hnulls

theorem isGrouped_mapValues {e : Expr} (he : Carried G g frag σ τ e) (i j : ι) :
    isGrouped (e.mapValues (σ i) (τ i)) = isGrouped (e.mapValues (σ j) (τ j)) := by
  cases e with
  | value v const => exact isSome_collection (he.alike i j)
  | _ => rfl

theorem patternText_mapValues {e : Expr} (he : Carried G g frag σ τ e) (op : LogicOp) :
    (∀ i, patternText? (e.mapValues (σ i) (τ i)) = none) ∨
      ∃ s : ι → String, (∀ i, patternText? (e.mapValues (σ i) (τ i)) = some (s i)) ∧
        G fun i => g.driverValue (.text (wrapPattern op (escapeLike (s i) g.dialect.escape))) := by
  cases e with
  | value v const =>
    simp only [Expr.mapValues, patternText?]
    by_cases h : ∃ i, ((σ i v const).isNull || (σ i v const).collection?.isSome) = true
    · obtain ⟨i₀, h₀⟩ := h
      refine .inl fun i => ?_
      rw [(he.alike i i₀).isNull, isSome_collection (he.alike i i₀), if_pos h₀]
    · refine .inr ⟨fun i => (σ i v const).display, fun i => ?_, he.bound (.pattern op)⟩
      rw [if_neg fun hi => h ⟨i, hi⟩]
  | _ => exact .inl fun _ => rfl

variable {ctx : Context} (hctx : ctx.dialect = g.dialect)
include hctx

theorem uniform_exprs {es : List Expr} (h : ∀ e ∈ es, TreeUniform G g frag σ τ e) :
    Uniform G fun i => exprs frag ctx (Expr.mapAll (σ i) (τ i) es) := by
  induction es with
  | nil => exact uniform_pure []
  | cons e es ih =>
    obtain ⟨he, hes⟩ := List.forall_mem_cons.mp h
    exact (he ctx .operand hctx).bind fun s => (ih hes).bind fun ss => uniform_pure _

theorem uniform_option {o : Option Expr} (h : ∀ e ∈ o, TreeUniform G g frag σ τ e) :
    Uniform G fun i => option frag ctx (Expr.mapOption (σ i) (τ i) o) := by
  cases o with
  | none => exact uniform_pure none
  | some e => exact (h e rfl ctx .operand hctx).bind fun s => uniform_pure _

theorem uniform_optionCondition {o : Option Expr} (h : ∀ e ∈ o, TreeUniform G g frag σ τ e) :
    Uniform G fun i => optionCondition frag ctx (Expr.mapOption (σ i) (τ i) o) := by
  cases o with
  | none => exact uniform_pure []
  | some e => exact h e rfl ctx .condition hctx

theorem uniform_conditions {es : List Expr} (h : ∀ e ∈ es, TreeUniform G g frag σ τ e) :
    Uniform G fun i => conditions frag ctx (Expr.mapAll (σ i) (τ i) es) := by
  induction es with
  | nil => exact uniform_pure _
  | cons e es ih =>
    obtain ⟨he, hes⟩ := List.forall_mem_cons.mp h
    exact (he ctx .condition hctx).bind fun s => (ih hes).bind fun p => uniform_pure _

theorem uniform_columnList {cs : List (Column Expr)}
    (h : ∀ e ∈ cs.map (·.expr), TreeUniform G g frag σ τ e) :
    Uniform G fun i => columnList frag ctx (Expr.mapColumns (σ i) (τ i) cs) := by
  induction cs with
  | nil => exact uniform_pure []
  | cons c cs ih =>
    obtain ⟨he, hes⟩ := List.forall_mem_cons.mp h
    have hcondition : ∀ i, isCondition (c.expr.mapValues (σ i) (τ i)) = isCondition c.expr := by
      intro i
      cases c.expr <;> rfl
    have hselectable : ∀ i s, selectable ctx (c.expr.mapValues (σ i) (τ i)) s =
        selectable ctx c.expr s := by
      intro i s
      simp only [selectable, hcondition]
    simp only [Expr.mapColumns, columnList, hcondition, hselectable]
    exact (he ctx _ hctx).bind fun s => (uniform_labelled c.label _).bind fun s =>
      (ih hes).bind fun ss => uniform_pure _

theorem uniform_sortKeys {ks : List (SortKey Expr)}
    (h : ∀ e ∈ ks.map (·.expr), TreeUniform G g frag σ τ e) :
    Uniform G fun i => sortKeys frag ctx (Expr.mapKeys (σ i) (τ i) ks) := by
  induction ks with
  | nil => exact uniform_pure []
  | cons k ks ih =>
    obtain ⟨he, hes⟩ := List.forall_mem_cons.mp h
    exact (he ctx .operand hctx).bind fun s => (ih hes).bind fun ss => uniform_pure _

theorem uniform_clauseOf {p : Expr} (hp : TreeUniform G g frag σ τ p)
    (hparts : ∀ e ∈ p.parts, TreeUniform G g frag σ τ e) :
    Uniform G fun i => clauseOf frag ctx (p.mapValues (σ i) (τ i)) := by
  have hwhole := hp ctx .condition hctx
  cases p with
  | set kind items => exact uniform_clauseParts kind (uniform_conditions hctx hparts) hwhole
  | _ => exact hwhole.bind fun s => uniform_pure _

structure StagesUniform (G : (ι → DriverValue) → Prop) (frag : FragmentRenderer) (ctx : Context)
    (q : ι → Query) : Prop where
  selection : Uniform G fun i => selection frag ctx (q i)
  filters : Uniform G fun i => filters frag ctx (q i)
  grouping : Uniform G fun i => grouping frag ctx (q i)
  groupFilters : Uniform G fun i => groupFilters frag ctx (q i)
  ordering : Uniform G fun i => ordering frag ctx (q i)

theorem stagesUniform {q : Query}
    (h : ∀ e ∈ q.parts, TreeUniform G g frag σ τ e ∧ ∀ x ∈ e.parts, TreeUniform G g frag σ τ x) :
    StagesUniform G frag ctx fun i => Expr.mapQuery (σ i) (τ i) q := by
  have hnone : Uniform G fun _ : ι => (pure [] : Render (List Sql)) := uniform_pure []
  induction q with
  | rows object => exact ⟨hnone, hnone, hnone, hnone, hnone⟩
  | filter q p ih =>
    obtain ⟨hq, hp⟩ := List.forall_mem_append.mp h
    obtain ⟨hwhole, hparts⟩ := List.forall_mem_singleton.mp hp
    obtain ⟨hs, hf, hg, hh, ho⟩ := ih hq
    refine ⟨hs, ?_, hg, hh, ho⟩
    simp only [Expr.mapQuery, filters_filter]
    exact uniform_clauseAfter hf (uniform_clauseOf hctx hwhole hparts)
  | group q keys ih =>
    obtain ⟨hq, hkeys⟩ := List.forall_mem_append.mp h
    obtain ⟨hs, hf, hg, hh, ho⟩ := ih hq
    exact ⟨hs, hf, uniform_exprs hctx fun e he => (hkeys e he).1, hh, ho⟩
  | having q p ih =>
    obtain ⟨hq, hp⟩ := List.forall_mem_append.mp h
    obtain ⟨hwhole, hparts⟩ := List.forall_mem_singleton.mp hp
    obtain ⟨hs, hf, hg, hh, ho⟩ := ih hq
    refine ⟨hs, hf, hg, ?_, ho⟩
    simp only [Expr.mapQuery, groupFilters_having]
    exact uniform_clauseAfter hh (uniform_clauseOf hctx hwhole hparts)
  | order q keys ih =>
    obtain ⟨hq, hkeys⟩ := List.forall_mem_append.mp h
    obtain ⟨hs, hf, hg, hh, ho⟩ := ih hq
    exact ⟨hs, hf, hg, hh, uniform_sortKeys hctx fun e he => (hkeys e he).1⟩
  | window q offset limit ih =>
    obtain ⟨hs, hf, hg, hh, ho⟩ := ih h
    exact ⟨hs, hf, hg, hh, ho⟩
  | select q columns ih =>
    obtain ⟨hq, hcolumns⟩ := List.forall_mem_append.mp h
    obtain ⟨hs, hf, hg, hh, ho⟩ := ih hq
    refine ⟨?_, hf, hg, hh, ho⟩
    simp only [Expr.mapQuery, selection, Expr.hasSelect_mapQuery]
    split
    · exact hs
    · exact uniform_columnList hctx fun e he => (hcolumns e he).1

theorem uniform_statement {q : Query}
    (h : ∀ e ∈ q.parts, TreeUniform G g frag σ τ e ∧ ∀ x ∈ e.parts, TreeUniform G g frag σ τ x) :
    Uniform G fun i => statement frag ctx (Expr.mapQuery (σ i) (τ i) q) := by
  obtain ⟨hs, hf, hg, hh, ho⟩ := stagesUniform hctx h
  simp only [statement, Expr.foldWindows_mapQuery]
  exact uniform_assembled _ hs hf hg hh ho

omit hctx in
theorem treesUniform {e : Expr} (hnodes : ∀ x ∈ e.nodes, Carried G g frag σ τ x) :
    TreeUniform G g frag σ τ e ∧ ∀ x ∈ e.parts, TreeUniform G g frag σ τ x := by
  induction e using Expr.ofParts with
  | step e ih =>
  have hown := hnodes e e.self_mem_nodes
  have htrees : ∀ x ∈ e.parts, TreeUniform G g frag σ τ x ∧
      ∀ y ∈ x.parts, TreeUniform G g frag σ τ y := fun x hx =>
    ih x hx fun y hy => hnodes y (Expr.mem_nodes_of_part hx hy)
  have hcarried : ∀ x ∈ e.parts, Carried G g frag σ τ x := fun x hx =>
    hnodes x (Expr.mem_nodes_of_part hx x.self_mem_nodes)
  have hparts : ∀ x ∈ e.parts, TreeUniform G g frag σ τ x := fun x hx => (htrees x hx).1
  refine ⟨fun ctx pos hctx => ?_, hparts⟩
  cases e with
  | value v const =>
    simp only [Expr.mapValues, expr]
    split
    · exact uniform_literal hctx hown
    · exact uniform_condition hctx hown
  | property owner name => exact uniform_standing pos (uniform_column owner name)
  | unary op x =>
    have hx := hparts x List.mem_cons_self
    simp only [Expr.mapValues, expr]
    split
    · exact uniform_negated (hx ctx .enclosed hctx)
    · split
      · exact hx ctx _ hctx
      · split
        · exact uniform_fail _
        · exact uniform_signed op (hx ctx .operand hctx)
  | compare op l r =>
    have hl := hparts l List.mem_cons_self ctx .operand hctx
    have hr := hparts r (List.mem_cons_of_mem l List.mem_cons_self) ctx .operand hctx
    have hlc := hcarried l List.mem_cons_self
    have hrc := hcarried r (List.mem_cons_of_mem l List.mem_cons_self)
    refine .of_member fun i₀ => ?_
    simp only [Expr.mapValues, expr, fun i => isNull_mapValues hlc i i₀,
      fun i => isNull_mapValues hrc i i₀, fun i => isGrouped_mapValues hrc i i₀]
    split
    · exact uniform_fail _
    · split
      · refine uniform_nullTest op ?_
        split
        · exact hr
        · exact hl
      · split
        · exact uniform_membership op _ hl hr
        · split
          · exact uniform_patternTest op hl
              (uniform_patternOf hctx op (patternText_mapValues hrc op) hr)
          · exact uniform_comparison op hl hr
  | compute op l r =>
    have hl := hparts l List.mem_cons_self ctx .operand hctx
    have hr := hparts r (List.mem_cons_of_mem l List.mem_cons_self) ctx .operand hctx
    simp only [Expr.mapValues, expr]
    split
    · exact uniform_fail _
    · exact uniform_computation op hl hr
  | call name args => exact uniform_standing pos (uniform_called name (uniform_exprs hctx hparts))
  | aggregate name arg distinct =>
    refine uniform_aggregation name distinct (uniform_option hctx ?_)
    exact fun x hx => hparts x (Option.mem_toList.mpr hx)
  | set kind items =>
    simp only [Expr.mapValues, expr]
    split
    · exact uniform_combined pos kind (uniform_conditions hctx hparts)
    · split
      · exact uniform_listed (uniform_exprs hctx hparts)
      · split
        · exact uniform_concatenated (uniform_exprs hctx hparts)
        · exact uniform_fail _
  | related relation label inner tableArgs =>
    simp only [Expr.mapValues, expr]
    split
    · exact uniform_fail _
    · refine uniform_existence relation label tableArgs fun inside hinside => ?_
      exact uniform_optionCondition (hinside.trans hctx) fun x hx =>
        hparts x (Option.mem_toList.mpr hx)
  | fragment key arg => exact hown ctx hctx
  | query q =>
    simp only [Expr.mapValues, expr, Expr.object_mapQuery]
    exact uniform_subquery q.object fun inside hinside =>
      uniform_statement (hinside.trans hctx) htrees

end Trees
end Render
theorem Value.alike_of_shape {const : Bool} {v w : Value}
    (h : (if const then v else v.shape) = if const then w else w.shape) : v.Alike const w := by
  cases const with
  | true =>
    obtain rfl : v = w := by simpa using h
    exact ⟨rfl, rfl, fun _ _ => Iff.rfl, fun _ => rfl, fun _ _ _ => rfl⟩
  | false =>
    have hshape : v.shape = w.shape := by simpa using h
    refine ⟨?_, ?_, by simp, by simp, by simp⟩
    · rw [← v.isNull_shape, hshape, w.isNull_shape]
    · rw [← v.nulls_shape, hshape, w.nulls_shape]

namespace Compilation

open Render

variable {ι : Type} {G : (ι → DriverValue) → Prop} {g : Engine} {σ : ι → Value → Bool → Value}
  {τ : ι → Value → Value} {c : Compilation} {e : Expr}

theorem render_uniform (r : Resolver)
    (hnodes : ∀ x ∈ e.nodes, Carried G g (fragment c.sources fragmentLevels) σ τ x) :
    (∃ s t, Trace.Within G t ∧
      ∀ i, c.render r g.dialect (e.mapValues (σ i) (τ i)) = .ok (s, t.output i)) ∨
    ∀ i, ∃ err, c.render r g.dialect (e.mapValues (σ i) (τ i)) = .error err := by
  have hstart : Trace.Within G {} := by simp [Trace.Within]
  unfold render
  cases hscope : c.scope r with
  | error err => exact .inr fun i => ⟨err, rfl⟩
  | ok scope =>
    cases e with
    | query q =>
      simp only [Expr.mapValues, Expr.object_mapQuery]
      cases htable : r.table q.object with
      | error err => exact .inr fun i => ⟨err, rfl⟩
      | ok table =>
        have htrees := fun x hx => treesUniform fun y hy =>
          hnodes y (Expr.mem_nodes_of_part (e := .query q) (x := x) hx hy)
        exact uniform_statement rfl htrees {} hstart
    | _ => exact (treesUniform hnodes).1 _ .condition rfl {} hstart

theorem run_uniform (hc : c.dialect = some g.dialect)
    (hnodes : ∀ x ∈ e.nodes, Carried G g (fragment c.sources fragmentLevels) σ τ x) :
    (∃ (s : Sql) (params : List (ι → DriverValue)), (∀ p ∈ params, G p) ∧
      ∀ i, c.run (some (e.mapValues (σ i) (τ i))) = .ok ⟨s, g.dialect, params.map (· i)⟩) ∨
    ∀ i, ∃ err, c.run (some (e.mapValues (σ i) (τ i))) = .error err := by
  unfold run
  cases hnames : c.checkNames with
  | error err => exact .inr fun i => ⟨err, rfl⟩
  | ok _ =>
    rw [hc]
    cases hr : c.resolver with
    | none => exact .inr fun i => ⟨_, rfl⟩
    | some r =>
      rcases render_uniform r hnodes with ⟨s, t, ht, hok⟩ | herr
      · -- All members have as many parameters.
        have hrun : ∀ i, (c.render r g.dialect (e.mapValues (σ i) (τ i)) >>=
            fun x => bounded g.dialect x.1 x.2) = bounded g.dialect s (t.output i) := by
          intro i
          rw [hok i]
          rfl
        by_cases hbound : (g.dialect.capabilities.maxParameters > 0 &&
            t.params.length > g.dialect.capabilities.maxParameters) = true
        · have hover : ∀ i, ∃ err, bounded g.dialect s (t.output i) = .error err := by
            intro i
            simp only [bounded, Trace.size_output]
            exact ⟨_, if_pos hbound⟩
          refine .inr fun i => ?_
          obtain ⟨err, herr⟩ := hover i
          exact ⟨err, (hrun i).trans herr⟩
        · refine .inl ⟨s, t.params, ht, fun i => (hrun i).trans ?_⟩
          simp only [bounded, Trace.size_output]
          exact (if_neg hbound).trans (by simp [Trace.output, pure, Except.pure])
      · refine .inr fun i => ?_
        obtain ⟨err, herr⟩ := herr i
        exact ⟨err, by simp only [herr]; rfl⟩

end Compilation

-- The parameter that an expression gives for a place and a source.
def Expr.parameter (g : Engine) (e : Expr) (origin : Nat × Source) : Option DriverValue :=
  (e.literalAt origin.1).map fun v => g.driverValue (origin.2.pick g.dialect.escape v)

-- The expressions of the same outline.
abbrev Expr.Siblings (e : Expr) : Type := { e' : Expr // e'.outline = e.outline }

-- Parameters that come from one place, by one source, in all siblings.
def Expr.Originates (g : Engine) (e : Expr) (p : e.Siblings → DriverValue) : Prop :=
  ∃ origin : Nat × Source, ∀ e' : e.Siblings, e'.1.parameter g origin = some (p e')

theorem Expr.carried_template {g : Engine} {frag : FragmentRenderer} {e : Expr}
    (hs : e.isStatic = true) :
    ∀ x ∈ e.template.nodes, Render.Carried (e.Originates g) g frag
      (fun e' : e.Siblings => e'.1.contents) (fun _ => id) x := by
  intro x hx
  obtain ⟨m, hm⟩ := List.getElem?_of_mem hx
  have hnode : ∀ e' : e.Siblings, e'.1.nodes[m]? = some (x.mapValues e'.1.contents id) :=
    fun e' => Expr.getElem_nodes_template e'.2 hm
  cases x with
  | value v const =>
    refine ⟨fun e₁ e₂ => ?_, fun source => ⟨(m, source), fun e' => ?_⟩⟩
    · have h := e₁.2.trans e₂.2.symm
      exact Value.alike_of_shape (Expr.shape_eq_of_outline h (hnode e₂) (hnode e₁))
    · simp only [Expr.parameter, Expr.literalAt, hnode e', Expr.mapValues, Option.bind_some,
        Expr.literal?, Option.map_some]
  | fragment key arg =>
    -- Siblings of an expression without fragments have none.
    have hmem := List.mem_of_getElem? (hnode ⟨e, rfl⟩)
    have hstatic := List.all_eq_true.mp hs _ hmem
    simp [Expr.mapValues, Expr.isFragment] at hstatic
  | _ => trivial

theorem Expr.exists_origins {g : Engine} {e : Expr} {params : List (e.Siblings → DriverValue)}
    (hparams : ∀ p ∈ params, e.Originates g p) :
    ∃ origins : List (Nat × Source), ∀ e' : e.Siblings,
      (params.map (· e')).map some = origins.map (e'.1.parameter g) := by
  induction params with
  | nil => exact ⟨[], fun _ => rfl⟩
  | cons p params ih =>
    obtain ⟨⟨origin, hp⟩, hrest⟩ := List.forall_mem_cons.mp hparams
    obtain ⟨origins, horigins⟩ := ih hrest
    refine ⟨origin :: origins, fun e' => ?_⟩
    rw [List.map_cons, List.map_cons, List.map_cons, horigins e', hp e']

-- Statements of expressions that differ in the contents of their bound values alone: if one can
-- be compiled so can the other, with the same text and the same names, and each parameter comes
-- from one place by one source, which are the same for all such expressions.
theorem text_independent_of_values (g : Engine) (c : Compilation)
    (hc : c.dialect = some g.dialect) (e : Expr) (hs : e.isStatic = true) :
    ∃ origins : List (Nat × Source), ∀ e' : Expr, e'.outline = e.outline →
      ((∃ st, c.run (some e) = .ok st) ↔ ∃ st, c.run (some e') = .ok st) ∧
      ∀ st st', c.run (some e) = .ok st → c.run (some e') = .ok st' →
        st'.text = st.text ∧ st'.named.map (·.1) = st.named.map (·.1) ∧
        st.params.map some = origins.map (e.parameter g) ∧
        st'.params.map some = origins.map (e'.parameter g) := by
  have hfill : ∀ e' : e.Siblings, e.template.mapValues e'.1.contents id = e'.1 :=
    fun e' => Expr.mapValues_template e'.2
  rcases Compilation.run_uniform hc (Expr.carried_template hs) with ⟨s, params, hparams, hok⟩ | herr
  · simp only [hfill] at hok
    obtain ⟨origins, horigins⟩ := Expr.exists_origins hparams
    refine ⟨origins, fun e' he' => ⟨?_, fun st st' hst hst' => ?_⟩⟩
    · exact iff_of_true ⟨_, hok ⟨e, rfl⟩⟩ ⟨_, hok ⟨e', he'⟩⟩
    · obtain rfl := Except.ok.inj (hst.symm.trans (hok ⟨e, rfl⟩))
      obtain rfl := Except.ok.inj (hst'.symm.trans (hok ⟨e', he'⟩))
      refine ⟨rfl, ?_, horigins ⟨e, rfl⟩, horigins ⟨e', he'⟩⟩
      simp only [Statement.named_fst, List.length_map]
  · simp only [hfill] at herr
    refine ⟨[], fun e' he' => ⟨?_, fun st st' hst _ => ?_⟩⟩
    · refine iff_of_false ?_ ?_
      · rintro ⟨st, hst⟩
        obtain ⟨err, h⟩ := herr ⟨e, rfl⟩
        cases hst.symm.trans h
      · rintro ⟨st, hst⟩
        obtain ⟨err, h⟩ := herr ⟨e', he'⟩
        cases hst.symm.trans h
    · obtain ⟨err, h⟩ := herr ⟨e, rfl⟩
      cases hst.symm.trans h

-- A quotation and a wildcard among the values leave the text as it is.
theorem text_independent_of_values_postgres :
    ∃ (c : Compilation) (e e' : Expr) (st st' : Statement),
      c.dialect = some (Engine.postgres '/').dialect ∧ e.isStatic = true ∧
      e'.outline = e.outline ∧ c.run (some e) = .ok st ∧ c.run (some e') = .ok st' ∧
      st.params.length = 3 ∧ st.text =
        "SELECT * FROM \"t\" WHERE (\"name\" LIKE @p0 ESCAPE '/' OR \"id\" IN (@p1, NULL, @p2))" ∧
      st'.text = st.text := by
  let resolver : Resolver :=
    ⟨fun _ => .ok "t", fun _ name => .ok ⟨name, "", false⟩, fun _ _ => .error (.noFunction "")⟩
  let c : Compilation :=
    { resolver := some resolver, dialect := some (Engine.postgres '/').dialect }
  let expr (pattern : String) (m n : Int) : Expr := .query (.filter (.rows "Row") (.set .or
    [.compare .contains (.property "" "name") (.value (.text pattern) false),
      .compare .isIn (.property "" "id") (.value (.items [.int64 m, .null, .int64 n]) false)]))
  have houtline : (expr "'); --%" 3 4).outline = (expr "a" 1 2).outline := rfl
  obtain ⟨st, hst, hlength, htext⟩ : ∃ st, c.run (some (expr "a" 1 2)) = .ok st ∧
    st.params.length = 3 ∧ st.text =
      "SELECT * FROM \"t\" WHERE (\"name\" LIKE @p0 ESCAPE '/' OR \"id\" IN (@p1, NULL, @p2))" := by
    refine ⟨_, rfl, ?_, ?_⟩
    · rfl
    · decide +kernel
  obtain ⟨origins, h⟩ := text_independent_of_values (.postgres '/') c rfl (expr "a" 1 2) rfl
  obtain ⟨hiff, hsame⟩ := h _ houtline
  obtain ⟨st', hst'⟩ := hiff.mp ⟨st, hst⟩
  exact ⟨c, expr "a" 1 2, expr "'); --%" 3 4, st, st', rfl, rfl, houtline, hst, hst', hlength,
    htext, (hsame st st' hst hst').1⟩

end QueryTree
