import QueryTree.Proofs.Expr.Induction
import QueryTree.Proofs.Sql.Outcome

namespace QueryTree

def Query.labels : Query → List String
  | .rows _ => []
  | .select q columns => q.labels ++ columns.map (·.label)
  | .filter q _ | .group q _ | .having q _ | .order q _ | .window q _ _ => q.labels

namespace Render

-- Why an expression is refused before any part of it is rendered.
inductive Refused (ctx : Context) : Expr → String → Prop
  | unary {op : UnaryOp} {x : Expr} :
      op.isValid = false → Refused ctx (.unary op x) "invalid unary operator"
  | compare {op : LogicOp} {l r : Expr} :
      op.isValid = false → Refused ctx (.compare op l r) "invalid logic operator"
  | compute {op : ValueOp} {l r : Expr} :
      op.isValid = false → Refused ctx (.compute op l r) "invalid value operator"
  | set {kind : SetKind} {items : List Expr} :
      kind.isLogical = false → kind ≠ .list → kind ≠ .concat →
      Refused ctx (.set kind items) "unknown set kind"
  | related {relation label : String} {inner : Option Expr} {tableArgs : List String} :
      ctx.scope.object = "" →
      Refused ctx (.related relation label inner tableArgs) "no object in scope"

-- What is asked of renderings of each kind, in which contexts, of which nodes and for which labels
-- of columns. A query may have to satisfy more than a text inside a statement.
structure Trait where
  fits : Context → Prop
  covers : Expr → Prop
  admits : String → Prop
  text : Context → Render Sql → Prop
  texts : Context → Render (List Sql) → Prop
  conditions : Context → Render (List Sql × Bool) → Prop
  argument : Context → Render (Option Sql) → Prop
  query : Context → Render Sql → Prop

namespace Trait

variable {T : Trait} {frag : FragmentRenderer} {ctx : Context}

-- Lists of renderings, one part after the other.
structure ClosedLists (T : Trait) : Prop where
  nil {ctx : Context} : T.texts ctx (pure [])
  cons {ctx : Context} {r : Render Sql} {rs : Render (List Sql)} :
    T.text ctx r → T.texts ctx rs → T.texts ctx (do let s ← r; return s :: (← rs))
  single {ctx : Context} {r : Render Sql} : T.text ctx r → T.texts ctx (singly r)
  sortKey {ctx : Context} {r : Render Sql} {rs : Render (List Sql)} (asc : Bool) :
    T.text ctx r → T.texts ctx rs →
    T.texts ctx (do
      let s ← r
      return (s ++ [.text (if asc then " ASC" else " DESC")]) :: (← rs))
  labelled {ctx : Context} {r : Render Sql} {rs : Render (List Sql)} {label : String} (e : Expr) :
    T.fits ctx → T.admits label → T.text ctx r → T.texts ctx rs →
    T.texts ctx (do
      let s ← r
      let s ← Render.labelled label (selectable ctx e s)
      return s :: (← rs))
  noConditions {ctx : Context} : T.conditions ctx (pure ([], false))
  consCondition {ctx : Context} {r : Render Sql} {rs : Render (List Sql × Bool)} :
    T.text ctx r → T.conditions ctx rs →
    T.conditions ctx (do
      let s ← r
      let (parts, vacuous) ← rs
      return if s.isBlank then (parts, true) else (s :: parts, vacuous))
  conjuncts {ctx : Context} {rs : Render (List Sql × Bool)} :
    T.conditions ctx rs → T.texts ctx (do return (← rs).1)
  clauseAfter {ctx : Context} {earlier parts : Render (List Sql)} :
    T.texts ctx earlier → T.texts ctx parts → T.texts ctx (clauseAfter earlier parts)

-- Nodes, from the renderings of their parts.
structure ClosedNodes (T : Trait) (frag : FragmentRenderer) : Prop where
  literal {ctx : Context} {v : Value} {const : Bool} :
    T.fits ctx → T.covers (.value v const) → T.text ctx (literal ctx v const)
  condition {ctx : Context} {v : Value} {const : Bool} :
    T.fits ctx → T.covers (.value v const) → T.text ctx (condition ctx v const)
  column {ctx : Context} (owner name : String) : T.fits ctx → T.text ctx (column ctx owner name)
  standing {ctx : Context} {r : Render Sql} (pos : Position) :
    T.fits ctx → T.text ctx r → T.text ctx (standing ctx pos r)
  negated {ctx : Context} {r : Render Sql} :
    T.fits ctx → T.text ctx r → T.text ctx (negated ctx r)
  signed {ctx : Context} {op : UnaryOp} {x : Expr} :
    T.fits ctx → op ≠ .not → T.covers (.unary op x) → T.text ctx (expr frag ctx .operand x) →
    T.text ctx (signed ctx op (expr frag ctx .operand x))
  nullTest {ctx : Context} {r : Render Sql} (op : LogicOp) :
    T.text ctx r → T.text ctx (nullTest op r)
  membership {ctx : Context} {l r : Render Sql} (op : LogicOp) (grouped : Bool) :
    T.fits ctx → T.text ctx l → T.text ctx r → T.text ctx (membership ctx op grouped l r)
  patternTest {ctx : Context} {l r : Render Sql} (op : LogicOp) (known : Option String) :
    T.fits ctx → T.text ctx l → T.text ctx r → T.text ctx (patternTest ctx op known l r)
  comparison {ctx : Context} {l r : Render Sql} (op : LogicOp) :
    T.fits ctx → T.text ctx l → T.text ctx r → T.text ctx (comparison ctx op l r)
  computation {ctx : Context} {l r : Render Sql} (op : ValueOp) :
    T.fits ctx → T.text ctx l → T.text ctx r → T.text ctx (computation ctx op l r)
  called {ctx : Context} {name : String} {args : List Expr} {rs : Render (List Sql)} :
    T.covers (.call name args) → T.texts ctx rs → T.text ctx (called name rs)
  noArgument {ctx : Context} : T.argument ctx (pure none)
  someArgument {ctx : Context} {r : Render Sql} :
    T.text ctx r → T.argument ctx (do return some (← r))
  aggregation {ctx : Context} {name : String} {arg : Option Expr} {distinct : Bool}
    {r : Render (Option Sql)} :
    T.covers (.aggregate name arg distinct) → T.argument ctx r →
    T.text ctx (aggregation name distinct r)
  combined {ctx : Context} {rs : Render (List Sql × Bool)} (pos : Position) (kind : SetKind) :
    T.conditions ctx rs → T.text ctx (combined pos kind rs)
  listed {ctx : Context} {rs : Render (List Sql)} : T.texts ctx rs → T.text ctx (listed rs)
  concatenated {ctx : Context} {rs : Render (List Sql)} :
    T.fits ctx → T.texts ctx rs → T.text ctx (concatenated ctx rs)
  blank {ctx : Context} : T.text ctx (pure [])
  existence {ctx : Context} {relation label : String} {inner : Option Expr}
    {tableArgs : List String} {body : Context → Render Sql} :
    T.fits ctx → T.covers (.related relation label inner tableArgs) → ctx.scope.object ≠ "" →
    (∀ inside, T.fits inside → T.text inside (body inside)) →
    T.text ctx (existence ctx relation label tableArgs body)
  refused {ctx : Context} {e : Expr} {reason : String} :
    T.covers e → Refused ctx e reason → T.text ctx (unsupported e.display reason)
  fragment {ctx : Context} {key : String} {arg : Value} :
    T.covers (.fragment key arg) → T.text ctx (frag ctx key arg)
  labels {q : Query} : T.covers (.query q) → ∀ label ∈ q.labels, T.admits label
  assembled {ctx : Context} {selection filters grouping groupFilters ordering : Render (List Sql)}
    (window : Option Window) :
    T.fits ctx → T.texts ctx selection → T.texts ctx filters → T.texts ctx grouping →
    T.texts ctx groupFilters → T.texts ctx ordering →
    T.query ctx (assembled ctx window selection filters grouping groupFilters ordering)
  subquery {ctx : Context} {body : Context → Render Sql} (object : String) :
    T.fits ctx → (∀ inside, T.fits inside → T.query inside (body inside)) →
    T.text ctx (subquery ctx object body)

structure Closed (T : Trait) (frag : FragmentRenderer) : Prop
  extends ClosedLists T, ClosedNodes T frag

def Tree (T : Trait) (frag : FragmentRenderer) (e : Expr) : Prop :=
  ∀ ctx pos, T.fits ctx → T.text ctx (expr frag ctx pos e)

-- The conditions of a stage may be rendered as a whole or part by part.
def Trees (T : Trait) (frag : FragmentRenderer) (e : Expr) : Prop :=
  T.Tree frag e ∧ ∀ x ∈ e.parts, T.Tree frag x

namespace Closed

variable (hT : T.Closed frag) (hctx : T.fits ctx)
include hT hctx

theorem exprs {es : List Expr} (h : ∀ e ∈ es, T.Tree frag e) :
    T.texts ctx (Render.exprs frag ctx es) := by
  induction es with
  | nil => exact hT.nil
  | cons e es ih =>
    obtain ⟨he, hes⟩ := List.forall_mem_cons.mp h
    exact hT.cons (he ctx .operand hctx) (ih hes)

theorem conditions {es : List Expr} (h : ∀ e ∈ es, T.Tree frag e) :
    T.conditions ctx (Render.conditions frag ctx es) := by
  induction es with
  | nil => exact hT.noConditions
  | cons e es ih =>
    obtain ⟨he, hes⟩ := List.forall_mem_cons.mp h
    exact hT.consCondition (he ctx .condition hctx) (ih hes)

theorem option {arg : Option Expr} (h : ∀ e ∈ arg.toList, T.Tree frag e) :
    T.argument ctx (Render.option frag ctx arg) := by
  cases arg with
  | none => exact hT.noArgument
  | some e => exact hT.someArgument (h e List.mem_cons_self ctx .operand hctx)

theorem optionCondition {inner : Option Expr} (h : ∀ e ∈ inner.toList, T.Tree frag e) :
    T.text ctx (Render.optionCondition frag ctx inner) := by
  cases inner with
  | none => exact hT.blank
  | some e => exact h e List.mem_cons_self ctx .condition hctx

theorem columnList {cs : List (Column Expr)} (h : ∀ e ∈ cs.map (·.expr), T.Tree frag e)
    (hlabels : ∀ label ∈ cs.map (·.label), T.admits label) :
    T.texts ctx (Render.columnList frag ctx cs) := by
  induction cs with
  | nil => exact hT.nil
  | cons c cs ih =>
    obtain ⟨he, hes⟩ := List.forall_mem_cons.mp h
    obtain ⟨hlabel, hlabels⟩ := List.forall_mem_cons.mp hlabels
    exact hT.labelled c.expr hctx hlabel (he ctx _ hctx) (ih hes hlabels)

theorem sortKeys {ks : List (SortKey Expr)} (h : ∀ e ∈ ks.map (·.expr), T.Tree frag e) :
    T.texts ctx (Render.sortKeys frag ctx ks) := by
  induction ks with
  | nil => exact hT.nil
  | cons k ks ih =>
    obtain ⟨he, hes⟩ := List.forall_mem_cons.mp h
    exact hT.sortKey k.ascending (he ctx .operand hctx) (ih hes)

theorem clauseOf {p : Expr} (hp : T.Trees frag p) : T.texts ctx (Render.clauseOf frag ctx p) := by
  have hsingle : T.texts ctx (singly (expr frag ctx .condition p)) :=
    hT.single (hp.1 ctx .condition hctx)
  cases p with
  | set kind items =>
    simp only [Render.clauseOf, clauseParts]
    split
    · exact hT.conjuncts (hT.conditions hctx hp.2)
    · exact hsingle
  | _ => exact hsingle

-- What the stages of a query contribute to its clauses.
structure Clauses (T : Trait) (frag : FragmentRenderer) (ctx : Context) (q : Query) : Prop where
  selection : T.texts ctx (Render.selection frag ctx q)
  filters : T.texts ctx (Render.filters frag ctx q)
  grouping : T.texts ctx (Render.grouping frag ctx q)
  groupFilters : T.texts ctx (Render.groupFilters frag ctx q)
  ordering : T.texts ctx (Render.ordering frag ctx q)

theorem clauses {q : Query} (hlabels : ∀ label ∈ q.labels, T.admits label)
    (h : ∀ e ∈ q.parts, T.Trees frag e) : Clauses T frag ctx q := by
  -- Each stage adds to one clause and leaves the others to the stages before it.
  induction q with
  | rows object => exact ⟨hT.nil, hT.nil, hT.nil, hT.nil, hT.nil⟩
  | filter q p ih =>
    obtain ⟨hq, hp⟩ := List.forall_mem_append.mp h
    obtain ⟨hs, hf, hg, hh, ho⟩ := ih hlabels hq
    refine ⟨hs, ?_, hg, hh, ho⟩
    rw [filters_filter]
    exact hT.clauseAfter hf (hT.clauseOf hctx (List.forall_mem_singleton.mp hp))
  | group q keys ih =>
    obtain ⟨hq, hkeys⟩ := List.forall_mem_append.mp h
    obtain ⟨hs, hf, hg, hh, ho⟩ := ih hlabels hq
    exact ⟨hs, hf, hT.exprs hctx fun e he => (hkeys e he).1, hh, ho⟩
  | having q p ih =>
    obtain ⟨hq, hp⟩ := List.forall_mem_append.mp h
    obtain ⟨hs, hf, hg, hh, ho⟩ := ih hlabels hq
    refine ⟨hs, hf, hg, ?_, ho⟩
    rw [groupFilters_having]
    exact hT.clauseAfter hh (hT.clauseOf hctx (List.forall_mem_singleton.mp hp))
  | order q keys ih =>
    obtain ⟨hq, hkeys⟩ := List.forall_mem_append.mp h
    obtain ⟨hs, hf, hg, hh, ho⟩ := ih hlabels hq
    exact ⟨hs, hf, hg, hh, hT.sortKeys hctx fun e he => (hkeys e he).1⟩
  | window q offset limit ih =>
    obtain ⟨hs, hf, hg, hh, ho⟩ := ih hlabels h
    exact ⟨hs, hf, hg, hh, ho⟩
  | select q columns ih =>
    obtain ⟨hq, hcolumns⟩ := List.forall_mem_append.mp h
    obtain ⟨hearlier, hown⟩ := List.forall_mem_append.mp hlabels
    obtain ⟨hs, hf, hg, hh, ho⟩ := ih hearlier hq
    refine ⟨?_, hf, hg, hh, ho⟩
    simp only [Render.selection]
    split
    · exact hs
    · exact hT.columnList hctx (fun e he => (hcolumns e he).1) hown

theorem statementOf {q : Query} (hq : T.covers (.query q)) (h : ∀ e ∈ q.parts, T.Trees frag e) :
    T.query ctx (Render.statement frag ctx q) := by
  obtain ⟨hs, hf, hg, hh, ho⟩ := hT.clauses hctx (hT.labels hq) h
  exact hT.assembled _ hctx hs hf hg hh ho

omit hctx in
theorem trees {e : Expr} (he : ∀ x ∈ e.nodes, T.covers x) : T.Trees frag e := by
  induction e using Expr.ofParts with
  | step e ih =>
  have htrees : ∀ x ∈ e.parts, T.Trees frag x := fun x hx =>
    ih x hx fun y hy => he y (Expr.mem_nodes_of_part hx hy)
  have hparts : ∀ x ∈ e.parts, T.Tree frag x := fun x hx => (htrees x hx).1
  have hnode : T.covers e := he e (Expr.self_mem_nodes e)
  refine ⟨fun ctx pos hctx => ?_, hparts⟩
  cases e with
  | value v const =>
    simp only [expr]
    split
    · exact hT.literal hctx hnode
    · exact hT.condition hctx hnode
  | property owner name => exact hT.standing pos hctx (hT.column owner name hctx)
  | unary op x =>
    have hx := hparts x List.mem_cons_self
    simp only [expr]
    split
    · exact hT.negated hctx (hx ctx .enclosed hctx)
    · next hop =>
      split
      · exact hx ctx _ hctx
      · split
        · next hvalid => exact hT.refused hnode (.unary (by simpa using hvalid))
        · exact hT.signed hctx (by simpa using hop) hnode (hx ctx .operand hctx)
  | compare op l r =>
    have hl := hparts l List.mem_cons_self ctx .operand hctx
    have hr := hparts r (List.mem_cons_of_mem l List.mem_cons_self) ctx .operand hctx
    simp only [expr]
    split
    · next hvalid => exact hT.refused hnode (.compare (by simpa using hvalid))
    · split
      · refine hT.nullTest op ?_
        split
        · exact hr
        · exact hl
      · split
        · exact hT.membership op _ hctx hl hr
        · split
          · exact hT.patternTest op _ hctx hl hr
          · exact hT.comparison op hctx hl hr
  | compute op l r =>
    have hl := hparts l List.mem_cons_self ctx .operand hctx
    have hr := hparts r (List.mem_cons_of_mem l List.mem_cons_self) ctx .operand hctx
    simp only [expr]
    split
    · next hvalid => exact hT.refused hnode (.compute (by simpa using hvalid))
    · exact hT.computation op hctx hl hr
  | call name args => exact hT.standing pos hctx (hT.called hnode (hT.exprs hctx hparts))
  | aggregate name arg distinct => exact hT.aggregation hnode (hT.option hctx hparts)
  | set kind items =>
    simp only [expr]
    split
    · exact hT.combined pos kind (hT.conditions hctx hparts)
    · next hlogical =>
      split
      · exact hT.listed (hT.exprs hctx hparts)
      · next hlist =>
        split
        · exact hT.concatenated hctx (hT.exprs hctx hparts)
        · next hconcat =>
          exact hT.refused hnode
            (.set (by simpa using hlogical) (by simpa using hlist) (by simpa using hconcat))
  | related relation label inner tableArgs =>
    simp only [expr]
    split
    · next hobject => exact hT.refused hnode (.related (by simpa using hobject))
    · next hobject =>
      exact hT.existence hctx hnode (by simpa using hobject) fun inside hinside =>
        hT.optionCondition hinside hparts
  | fragment key arg => exact hT.fragment hnode
  | query q =>
    exact hT.subquery q.object hctx fun inside hinside => hT.statementOf hinside hnode htrees

theorem tree {e : Expr} (he : ∀ x ∈ e.nodes, T.covers x) (pos : Position) :
    T.text ctx (expr frag ctx pos e) :=
  (hT.trees he).1 ctx pos hctx

theorem statement {q : Query} (he : ∀ x ∈ (Expr.query q).nodes, T.covers x) :
    T.query ctx (Render.statement frag ctx q) :=
  hT.statementOf hctx (he _ (Expr.self_mem_nodes _)) fun _ hx =>
    hT.trees fun y hy => he y (Expr.mem_nodes_of_part hx hy)

end Closed
end Trait
end Render
end QueryTree
