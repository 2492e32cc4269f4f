import QueryTree.Proofs.Query.Plan
import QueryTree.Proofs.Sql.Meaning

namespace QueryTree

variable {ss : List Sql}

-- What a part is to the piece around it: something said of rows, an operand of one kind or another,
-- the query between parentheses, or the piece itself over again.
inductive Role where
  | condition
  | column
  | caseCondition
  | sortKey
  | groupKey
  | argument
  | item
  | comparison
  | arithmetic
  | concatenation
  | subquery
  | itself
deriving DecidableEq, Inhabited

-- Operands are written whether they have text or not.
def Role.isOperand : Role → Bool
  | .condition | .subquery | .itself => false
  | _ => true

-- Expressions, whole queries, the patterns of comparisons and the items of bound lists.
inductive Piece where
  | expr (ctx : Context) (pos : Position) (e : Expr)
  | statement (ctx : Context) (q : Query)
  | pattern (ctx : Context) (op : LogicOp) (r : Expr)
  | item (ctx : Context) (v : Value)

def Piece.render (frag : FragmentRenderer) : Piece → Render Sql
  | .expr ctx pos e => Render.expr frag ctx pos e
  | .statement ctx q => Render.statement frag ctx q
  | .pattern ctx op r =>
    Render.patternOf ctx op (Render.patternText? r) (Render.expr frag ctx .operand r)
  | .item ctx v => Render.bindItem ctx v

structure Slot where
  role : Role
  piece : Piece

namespace Slot

def operand (ctx : Context) (role : Role) (e : Expr) : Slot := ⟨role, .expr ctx .operand e⟩

def condition (ctx : Context) (e : Expr) : Slot := ⟨.condition, .expr ctx .condition e⟩

-- A value where a condition is wanted stands for itself, or is compared with true.
def standing (ctx : Context) (e : Expr) : Slot :=
  operand ctx (if ctx.dialect.capabilities.booleanPredicates then .itself else .comparison) e

-- A selected condition is the condition of a case distinction where the dialect needs one.
def column (ctx : Context) (e : Expr) : Slot :=
  if Render.isCondition e then
    ⟨if ctx.dialect.capabilities.booleanPredicates then .column else .caseCondition,
      .expr ctx .condition e⟩
  else operand ctx .column e

end Slot

-- Literals that are conditions without being compared.
def Value.isVerdict (v : Value) (const : Bool) : Bool :=
  match v, const with
  | .null, _ | .bool _, true => true
  | _, _ => false

namespace Expr

-- The parts of an expression in the context in which they are rendered.
def slots (ctx : Context) (pos : Position) : Expr → List Slot
  | .value v const =>
    if pos == .operand then
      if const then [] else (v.collection?.getD []).map fun w => ⟨.item, .item ctx w⟩
    else if v.isVerdict const then [] else [.standing ctx (.value v const)]
  | .property owner name =>
    if pos == .operand then [] else [.standing ctx (.property owner name)]
  | .unary op x =>
    if op == .not then [⟨.condition, .expr ctx .enclosed x⟩]
    else if op == .identity then
      [⟨.itself, .expr ctx (if pos == .operand then .operand else .condition) x⟩]
    else [.operand ctx .arithmetic x]
  | .compare op l r =>
    if op.positive == .equal && (l.isNull || r.isNull) then
      [.operand ctx .comparison (if l.isNull then r else l)]
    else if op.isPattern then [.operand ctx .comparison l, ⟨.comparison, .pattern ctx op r⟩]
    else [.operand ctx .comparison l, .operand ctx .comparison r]
  | .compute op l r =>
    [l, r].map (.operand ctx (if op == .concatenate then .concatenation else .arithmetic))
  | .call name args =>
    if pos == .operand then args.map (.operand ctx .argument)
    else [.standing ctx (.call name args)]
  | .aggregate _ arg _ => arg.toList.map (.operand ctx .argument)
  | .set kind items =>
    if kind.isLogical then items.map (.condition ctx)
    else items.map (.operand ctx (if kind == .list then .item else .concatenation))
  | .related _ _ inner _ => inner.toList.map (.condition ctx)
  | .query q => [⟨.subquery, .statement ctx q⟩]
  | .fragment .. => []

-- Expressions whose parts are about the rows of another table.
def opens : Expr → Bool
  | .related .. | .query _ => true
  | _ => false

def conjuncts : Expr → List Expr
  | .set kind items => if kind == .and then items else [.set kind items]
  | p => [p]

end Expr

def Context.entering (ctx : Context) (scope : Scope) : Context :=
  { ctx with scope, outer := ctx.scope :: ctx.outer, depth := ctx.depth + 1 }

def Expr.inside? (ctx : Context) (n : Nat) : Expr → Option Context
  | .related relation label _ tableArgs =>
    (ctx.resolver.relation ctx.scope.object relation).toOption.map fun join => ctx.entering
      { object := join.object, table := Render.expandTable join.table tableArgs, label,
        qualifier := some n }
  | .query q =>
    (ctx.resolver.table q.object).toOption.map fun table => ctx.entering
      { object := q.object, table, qualifier := some n }
  | _ => some ctx

-- The parts of a query in the order in which they are written.
def Plan.slots (ctx : Context) (p : Plan) : List Slot :=
  (if p.columns.isEmpty then p.keys.map (.operand ctx .column)
    else p.columns.map fun c => .column ctx c.expr) ++
  (p.filters.flatMap Expr.conjuncts).map (.condition ctx) ++
  p.keys.map (.operand ctx .groupKey) ++
  (p.groupFilters.flatMap Expr.conjuncts).map (.condition ctx) ++
  p.order.map fun k => .operand ctx .sortKey k.expr

namespace Piece

def context : Piece → Context
  | .expr ctx .. | .statement ctx _ | .pattern ctx .. | .item ctx _ => ctx

def opens : Piece → Bool
  | .expr _ _ e => e.opens
  | _ => false

-- The output from which on the parts are rendered.
def start (p : Piece) (out : Output) : Output :=
  if p.opens then { out with tables := out.tables + 1 } else out

def slots (n : Nat) : Piece → List Slot
  | .expr ctx pos e => ((e.inside? ctx n).map (e.slots · pos)).getD []
  | .statement ctx q => q.plan.slots ctx
  | .pattern ctx _ r =>
    if (Render.patternText? r).isSome then [] else [.operand ctx .argument r]
  | .item .. => []

end Piece

-- A piece in its role, with all that the statement has produced before it.
structure Occurrence extends Slot where
  before : Output

section Parts

variable (frag : FragmentRenderer)

open Render

def Slot.row : List Slot → Output → List Occurrence
  | [], _ => []
  | slot :: rest, out => ⟨slot, out⟩ :: row rest (after (slot.piece.render frag) out)

namespace Occurrence

def Gives (o : Occurrence) (s : Sql) : Prop := ∃ out, o.piece.render frag o.before = .ok (s, out)

def text (o : Occurrence) : Sql :=
  match o.piece.render frag o.before with
  | .ok (s, _) => s
  | .error _ => []

-- A condition without text is left out.
def isWritten (o : Occurrence) : Bool := o.role.isOperand || !(o.text frag).isBlank

-- Whether a fixed text, or none at all, is written in place of the parts: a test without members,
-- and a set of conditions that says nothing.
def isDropped (o : Occurrence) : Bool :=
  match o.piece with
  | .expr ctx _ (.compare op l r) => op.positive == .isIn && lacksMembers frag ctx o.before l r
  | .expr _ _ (.set kind _) => kind.isLogical && (o.text frag).isBlank
  | _ => false

-- The parts that are written into the text of a piece.
def parts (o : Occurrence) : List Occurrence :=
  let out := o.piece.start o.before
  if o.isDropped frag then []
  else (Slot.row frag (o.piece.slots out.tables) out).filter (·.isWritten frag)

end Occurrence

def Slot.renderAll : List Slot → Render (List (Slot × Sql))
  | [] => return []
  | slot :: rest => do
    let s ← slot.piece.render frag
    return (slot, s) :: (← renderAll rest)

end Parts

-- Texts that are written into one text, conditions only when they have some.
def Sql.Holds (ps : List (Slot × Sql)) (s : Sql) : Prop :=
  ∀ x ∈ ps, x.1.role.isOperand = true ∨ x.2.isBlank = false → x.2 <:+: s

-- Texts that are written into the texts of a list.
def Sql.Spread (ps : List (Slot × Sql)) (ss : List Sql) : Prop :=
  ∀ x ∈ ps, x.1.role.isOperand = true ∨ x.2.isBlank = false → ∃ s ∈ ss, x.2 <:+: s

namespace Sql

theorem infix_enclosed (s : Sql) : s <:+: enclosed s := ⟨[.text "("], [.text ")"], rfl⟩

theorem infix_joined (sep : String) {s : Sql} (h : s ∈ ss) : s <:+: joined sep ss := by
  induction ss with
  | nil => exact absurd h List.not_mem_nil
  | cons r ss ih =>
    cases ss with
    | nil =>
      exact List.mem_singleton.mp h ▸ List.infix_rfl
    | cons q ss =>
      change s <:+: r ++ .text sep :: joined sep (q :: ss)
      rcases List.mem_cons.mp h with rfl | h
      · exact (List.prefix_append _ _).isInfix
      · exact (ih h).trans ((List.suffix_cons _ _).trans (List.suffix_append _ _)).isInfix

theorem isBlank_of_isInfix {s t : Sql} (h : t <:+: s) (hs : s.isBlank = true) :
    t.isBlank = true := by
  obtain ⟨l, r, rfl⟩ := h
  simp only [isBlank, List.all_append, Bool.and_eq_true] at hs ⊢
  exact hs.1.2

theorem infix_conjunction {s : Sql} (h : s ∈ ss) : s <:+: Render.conjunction ss := by
  unfold Render.conjunction
  split
  · exact absurd h List.not_mem_nil
  · exact List.mem_singleton.mp h ▸ List.infix_rfl
  · exact (infix_joined _ h).trans (infix_enclosed _)

theorem infix_clause (keyword : String) {s t : Sql} (h : t <:+: s) (ht : t.isBlank = false) :
    t <:+: Render.clause keyword s := by
  unfold Render.clause
  split
  · next hs => simp [isBlank_of_isInfix h hs] at ht
  · exact h.trans (List.suffix_cons _ _).isInfix

theorem Spread.cons {slot : Slot} {s t : Sql} {ps : List (Slot × Sql)} (h : t <:+: s)
    (hps : Spread ps ss) : Spread ((slot, t) :: ps) (s :: ss) := by
  intro x hx hwritten
  rcases List.mem_cons.mp hx with rfl | hx
  · exact ⟨s, List.mem_cons_self, h⟩
  · obtain ⟨r, hr, hstands⟩ := hps x hx hwritten
    exact ⟨r, List.mem_cons_of_mem s hr, hstands⟩

theorem Spread.append {ps qs : List (Slot × Sql)} {ts : List Sql} (hps : Spread ps ss)
    (hqs : Spread qs ts) : Spread (ps ++ qs) (ss ++ ts) := by
  intro x hx hwritten
  rcases List.mem_append.mp hx with hx | hx
  · obtain ⟨s, hs, hstands⟩ := hps x hx hwritten
    exact ⟨s, List.mem_append_left _ hs, hstands⟩
  · obtain ⟨s, hs, hstands⟩ := hqs x hx hwritten
    exact ⟨s, List.mem_append_right _ hs, hstands⟩

theorem Spread.holds {ps : List (Slot × Sql)} {t : Sql} (h : Spread ps ss)
    (hss : ∀ s ∈ ss, s <:+: t) : Holds ps t := by
  intro x hx hwritten
  obtain ⟨s, hs, hstands⟩ := h x hx hwritten
  exact hstands.trans (hss s hs)

theorem Holds.cons {slot : Slot} {s t : Sql} {ps : List (Slot × Sql)} (h : t <:+: s)
    (hps : Holds ps s) : Holds ((slot, t) :: ps) s :=
  List.forall_mem_cons.mpr ⟨fun _ => h, hps⟩

theorem Holds.append {ps qs : List (Slot × Sql)} {s : Sql} (hps : Holds ps s) (hqs : Holds qs s) :
    Holds (ps ++ qs) s :=
  List.forall_mem_append.mpr ⟨hps, hqs⟩

theorem Holds.left {ps : List (Slot × Sql)} {s t : Sql} (h : Holds ps s) : Holds ps (s ++ t) :=
  fun x hx hwritten => (h x hx hwritten).trans (List.prefix_append s t).isInfix

theorem Holds.right {ps : List (Slot × Sql)} {s t : Sql} (h : Holds ps t) : Holds ps (s ++ t) :=
  fun x hx hwritten => (h x hx hwritten).trans (List.suffix_append s t).isInfix

theorem Holds.after {ps : List (Slot × Sql)} {token : Token} {s : Sql} (h : Holds ps s) :
    Holds ps (token :: s) :=
  fun x hx hwritten => (h x hx hwritten).trans (List.suffix_cons token s).isInfix

theorem holds_nil (s : Sql) : Holds [] s := fun _ hx => absurd hx List.not_mem_nil

end Sql

namespace Render

variable {α β : Type} {r : Render α} {f : α → Render β} {out out' : Output}

theorem bind_eq_ok {b : β} : (r >>= f) out = .ok (b, out') ↔
    ∃ a mid, r out = .ok (a, mid) ∧ f a mid = .ok (b, out') := by
  rw [run_bind]
  cases r out with
  | error e => simp
  | ok p =>
    constructor
    · intro h
      exact ⟨p.1, p.2, rfl, h⟩
    · rintro ⟨a, mid, hp, h⟩
      cases hp
      exact h

end Render

namespace Slot

variable {frag : FragmentRenderer} {slot : Slot} {slots rest : List Slot} {out mid out' : Output}
  {ps qs : List (Slot × Sql)} {s : Sql}

open Render

theorem renderAll_cons (hs : slot.piece.render frag out = .ok (s, mid))
    (hqs : renderAll frag rest mid = .ok (qs, out')) :
    renderAll frag (slot :: rest) out = .ok ((slot, s) :: qs, out') :=
  bind_eq_ok.mpr ⟨s, mid, hs, bind_eq_ok.mpr ⟨qs, out', hqs, rfl⟩⟩

theorem exists_of_renderAll_cons (h : renderAll frag (slot :: rest) out = .ok (ps, out')) :
    ∃ s mid qs, slot.piece.render frag out = .ok (s, mid) ∧
      renderAll frag rest mid = .ok (qs, out') ∧ ps = (slot, s) :: qs := by
  obtain ⟨s, mid, hs, h⟩ := bind_eq_ok.mp h
  obtain ⟨qs, end', hqs, h⟩ := bind_eq_ok.mp h
  cases h
  exact ⟨s, mid, qs, hs, hqs, rfl⟩

theorem renderAll_append (hps : renderAll frag slots out = .ok (ps, mid))
    (hqs : renderAll frag rest mid = .ok (qs, out')) :
    renderAll frag (slots ++ rest) out = .ok (ps ++ qs, out') := by
  induction slots generalizing out ps with
  | nil =>
    cases hps
    exact hqs
  | cons slot slots ih =>
    obtain ⟨s, next, ts, hs, hts, rfl⟩ := exists_of_renderAll_cons hps
    exact renderAll_cons hs (ih hts)

theorem map_fst_of_renderAll (h : renderAll frag slots out = .ok (ps, out')) :
    ps.map Prod.fst = slots := by
  induction slots generalizing out ps with
  | nil =>
    cases h
    rfl
  | cons slot rest ih =>
    obtain ⟨s, mid, qs, -, hqs, rfl⟩ := exists_of_renderAll_cons h
    rw [List.map_cons, ih hqs]

theorem exists_of_mem_row (h : renderAll frag slots out = .ok (ps, out')) {o : Occurrence}
    (ho : o ∈ row frag slots out) : ∃ s, (o.toSlot, s) ∈ ps ∧ o.Gives frag s := by
  induction slots generalizing out ps with
  | nil => exact absurd ho List.not_mem_nil
  | cons slot rest ih =>
    obtain ⟨s, mid, qs, hs, hqs, rfl⟩ := exists_of_renderAll_cons h
    rcases List.mem_cons.mp ho with rfl | ho
    · exact ⟨s, List.mem_cons_self, mid, hs⟩
    · have hmid : after (slot.piece.render frag) out = mid := by simp only [after, hs]
      rw [hmid] at ho
      obtain ⟨t, ht, hgives⟩ := ih hqs ho
      exact ⟨t, List.mem_cons_of_mem _ ht, hgives⟩

end Slot

namespace Render

open Sql (Spread Holds)
open Slot (renderAll renderAll_cons renderAll_append)

variable {frag : FragmentRenderer} {ctx : Context}

-- The texts of a list come from rendering the pieces of the slots one after the other.
def Follows (frag : FragmentRenderer) (slots : List Slot) (r : Render (List Sql)) : Prop :=
  ∀ out, Yields r out fun ss out' =>
    ∃ ps, renderAll frag slots out = .ok (ps, out') ∧ Spread ps ss

theorem follows_nil : Follows frag [] (pure []) := by
  intro out
  exact yields_pure.mpr ⟨[], rfl, fun _ hx => absurd hx List.not_mem_nil⟩

theorem follows_exprs (role : Role) (es : List Expr) :
    Follows frag (es.map (.operand ctx role)) (exprs frag ctx es) := by
  induction es with
  | nil => exact follows_nil
  | cons e es ih =>
    intro out
    simp only [exprs, yields_bind, yields_pure]
    intro s mid hs ss out' hss
    obtain ⟨ps, hps, hspread⟩ := ih mid ss out' hss
    exact ⟨_, renderAll_cons hs hps, hspread.cons List.infix_rfl⟩

theorem follows_bindItems (vs : List Value) :
    Follows frag (vs.map fun v => ⟨.item, .item ctx v⟩) (bindItems ctx vs) := by
  induction vs with
  | nil => exact follows_nil
  | cons v vs ih =>
    intro out
    simp only [bindItems, yields_bind, yields_pure]
    intro s mid hs ss out' hss
    obtain ⟨ps, hps, hspread⟩ := ih mid ss out' hss
    exact ⟨_, renderAll_cons hs hps, hspread.cons List.infix_rfl⟩

theorem infix_selectable (e : Expr) (s : Sql) : s <:+: selectable ctx e s := by
  unfold selectable
  split
  · exact List.infix_rfl
  · exact ⟨[.text "CASE WHEN "], _, rfl⟩

theorem yields_labelled (label : String) (s : Sql) (out : Output) :
    Yields (labelled label s) out fun t out' => out' = out ∧ s <:+: t := by
  unfold labelled
  split
  · exact yields_pure.mpr ⟨rfl, List.infix_rfl⟩
  · rw [yields_bind, yields_checkName]
    exact fun _ => yields_pure.mpr ⟨rfl, (List.prefix_append _ _).isInfix⟩

theorem render_column (ctx : Context) (e : Expr) : (Slot.column ctx e).piece.render frag =
    expr frag ctx (if isCondition e then .condition else .operand) e := by
  unfold Slot.column
  split <;> rfl

theorem follows_columnList (cs : List (Column Expr)) :
    Follows frag (cs.map fun c => .column ctx c.expr) (columnList frag ctx cs) := by
  induction cs with
  | nil => exact follows_nil
  | cons c cs ih =>
    intro out
    simp only [columnList, yields_bind, yields_pure]
    intro s mid hs t between ht ss out' hss
    obtain ⟨rfl, hstands⟩ := yields_labelled c.label _ mid t between ht
    obtain ⟨ps, hps, hspread⟩ := ih between ss out' hss
    refine ⟨_, renderAll_cons ?_ hps, hspread.cons ((infix_selectable c.expr s).trans hstands)⟩
    rw [render_column]
    exact hs

theorem follows_sortKeys (ks : List (SortKey Expr)) :
    Follows frag (ks.map fun k => .operand ctx .sortKey k.expr) (sortKeys frag ctx ks) := by
  induction ks with
  | nil => exact follows_nil
  | cons k ks ih =>
    intro out
    simp only [sortKeys, yields_bind, yields_pure]
    intro s mid hs ss out' hss
    obtain ⟨ps, hps, hspread⟩ := ih mid ss out' hss
    exact ⟨_, renderAll_cons hs hps, hspread.cons (List.prefix_append _ _).isInfix⟩

theorem follows_conditions (es : List Expr) (out : Output) :
    Yields (conditions frag ctx es) out fun p out' =>
      ∃ ps, renderAll frag (es.map (.condition ctx)) out = .ok (ps, out') ∧ Spread ps p.1 := by
  induction es generalizing out with
  | nil =>
    simp only [conditions, yields_pure]
    exact ⟨[], rfl, fun _ hx => absurd hx List.not_mem_nil⟩
  | cons e es ih =>
    simp only [conditions, yields_bind, yields_pure]
    intro s mid hs p out' hp
    obtain ⟨ps, hps, hspread⟩ := ih mid p out' hp
    refine ⟨_, renderAll_cons hs hps, ?_⟩
    split
    · next hblank =>
      -- What has no text is left out, so that nothing is to be found of it.
      refine List.forall_mem_cons.mpr ⟨fun hwritten => ?_, hspread⟩
      simp [Slot.condition, Role.isOperand, hblank] at hwritten
    · exact hspread.cons List.infix_rfl

theorem words_of_conditions {es : List Expr} {out out' : Output} {ps : List (Slot × Sql)}
    (hps : renderAll frag (es.map (.condition ctx)) out = .ok (ps, out')) {x : Slot × Sql}
    (hx : x ∈ ps) (hwritten : x.1.role.isOperand = true ∨ x.2.isBlank = false) :
    x.2.isBlank = false := by
  have hslot : x.1 ∈ es.map (.condition ctx) := by
    rw [← Slot.map_fst_of_renderAll hps]
    exact List.mem_map_of_mem hx
  obtain ⟨e, -, he⟩ := List.mem_map.mp hslot
  exact hwritten.resolve_left (by simp [← he, Slot.condition, Role.isOperand])

theorem follows_singly (e : Expr) :
    Follows frag [.condition ctx e] (singly (expr frag ctx .condition e)) := by
  intro out
  simp only [singly, yields_bind, yields_pure]
  intro s out' hs
  exact ⟨_, renderAll_cons hs rfl, .cons List.infix_rfl fun _ hx => absurd hx List.not_mem_nil⟩

theorem follows_clauseOf (p : Expr) :
    Follows frag (p.conjuncts.map (.condition ctx)) (clauseOf frag ctx p) := by
  cases p with
  | set kind items =>
    simp only [Expr.conjuncts, clauseOf, clauseParts]
    split
    · intro out
      simp only [yields_bind, yields_pure]
      exact follows_conditions items out
    · exact follows_singly _
  | _ => exact follows_singly _

theorem follows_clauseAfter {es fs : List Expr} {earlier parts : Render (List Sql)}
    (hparts : Follows frag (es.map (.condition ctx)) parts)
    (hearlier : Follows frag (fs.map (.condition ctx)) earlier) :
    Follows frag ((es ++ fs).map (.condition ctx)) (clauseAfter earlier parts) := by
  intro out
  simp only [clauseAfter, yields_bind, yields_pure]
  intro ss mid hss ts out' hts
  obtain ⟨ps, hps, hspread⟩ := hparts out ss mid hss
  obtain ⟨qs, hqs, hspread'⟩ := hearlier mid ts out' hts
  rw [List.map_append]
  refine ⟨_, renderAll_append hps hqs, Spread.append (fun x hx hwritten => ?_) hspread'⟩
  obtain ⟨s, hs, hstands⟩ := hspread x hx hwritten
  have hword : s.isBlank = false := by
    cases hblank : s.isBlank with
    | false => rfl
    | true =>
      exact absurd (Sql.isBlank_of_isInfix hstands hblank)
        (by simp [words_of_conditions hps hx hwritten])
  exact ⟨s, List.mem_filter.mpr ⟨hs, by simp [hword]⟩, hstands⟩

theorem follows_clausesOf (ps : List Expr) :
    Follows frag ((ps.flatMap Expr.conjuncts).map (.condition ctx)) (clausesOf frag ctx ps) := by
  induction ps with
  | nil => exact follows_nil
  | cons p ps ih => exact follows_clauseAfter (follows_clauseOf p) ih

theorem follows_selected (columns : List (Column Expr)) (keys : List Expr) :
    Follows frag (if columns.isEmpty then keys.map (.operand ctx .column)
        else columns.map fun c => .column ctx c.expr)
      (selected (columnList frag ctx columns) (exprs frag ctx keys)) := by
  intro out
  cases columns with
  | nil =>
    simp only [selected, columnList, pure_bind, yields_bind, yields_pure, List.isEmpty_nil, if_true]
    intro ss out' hss
    obtain ⟨ps, hps, hspread⟩ := follows_exprs .column keys out ss out' hss
    refine ⟨ps, hps, fun x hx hwritten => ?_⟩
    obtain ⟨s, hs, hstands⟩ := hspread x hx hwritten
    have hne : ss.isEmpty = false := by simpa using List.ne_nil_of_mem hs
    exact ⟨s, by simpa [hne] using hs, hstands⟩
  | cons c cs =>
    simp only [selected, yields_bind, List.isEmpty_cons, Bool.false_eq_true, if_false]
    intro ss out' hss
    obtain ⟨ps, hps, hspread⟩ := follows_columnList (c :: cs) out ss out' hss
    split
    · -- Columns have been rendered, so that the list is not empty.
      have hcons : Yields (columnList frag ctx (c :: cs)) out fun ss _ => ss ≠ [] := by
        simp only [columnList, yields_bind, yields_pure]
        intro s mid _ t between _ rest end' _
        exact List.cons_ne_nil t rest
      exact absurd rfl (hcons _ _ hss)
    · exact yields_pure.mpr ⟨ps, hps, hspread⟩

theorem holds_clause (keyword : String) {es : List Expr} {out out' : Output}
    {ps : List (Slot × Sql)} (hps : renderAll frag (es.map (.condition ctx)) out = .ok (ps, out'))
    (hspread : Spread ps ss) : Holds ps (clause keyword (conjunction ss)) := by
  intro x hx hwritten
  obtain ⟨s, hs, hstands⟩ := hspread x hx hwritten
  exact Sql.infix_clause keyword (hstands.trans (Sql.infix_conjunction hs))
    (words_of_conditions hps hx hwritten)

theorem holds_keys (keyword : String) {ps : List (Slot × Sql)} (hspread : Spread ps ss) :
    Holds ps (if ss.isEmpty then [] else .text keyword :: Sql.joined ", " ss) := by
  refine hspread.holds fun s hs => ?_
  rw [if_neg (by simpa using List.ne_nil_of_mem hs)]
  exact (Sql.infix_joined _ hs).trans (List.suffix_cons _ _).isInfix

theorem yields_paging (w : Option Window) (ordered : Bool) (out : Output) :
    Yields (paging ctx w ordered) out fun _ out' => out' = out := by
  unfold paging
  split
  · exact yields_pure.mpr rfl
  · split
    · split
      · exact yields_fail.mpr trivial
      · simp
    · exact yields_pure.mpr rfl

end Render

section Clauses

open Render
open Slot (renderAll renderAll_append)

theorem Plan.holds_render {frag : FragmentRenderer} {ctx : Context} (p : Plan) (out : Output) :
    Yields (p.render frag ctx) out fun s out' =>
      ∃ ps, renderAll frag (p.slots ctx) out = .ok (ps, out') ∧ Sql.Holds ps s := by
  simp only [Plan.render, assembled, yields_bind, yields_pure]
  intro columns out₁ hcolumns filters out₂ hfilters keys out₃ hkeys groups out₄ hgroups
    order out₅ horder page out₆ hpage
  obtain rfl := yields_paging _ _ _ page out₆ hpage
  obtain ⟨ps₁, hps₁, hspread₁⟩ := follows_selected p.columns p.keys out columns out₁ hcolumns
  obtain ⟨ps₂, hps₂, hspread₂⟩ := follows_clausesOf p.filters out₁ filters out₂ hfilters
  obtain ⟨ps₃, hps₃, hspread₃⟩ := follows_exprs .groupKey p.keys out₂ keys out₃ hkeys
  obtain ⟨ps₄, hps₄, hspread₄⟩ := follows_clausesOf p.groupFilters out₃ groups out₄ hgroups
  obtain ⟨ps₅, hps₅, hspread₅⟩ := follows_sortKeys p.order out₄ order out₆ horder
  refine ⟨_, renderAll_append (renderAll_append (renderAll_append (renderAll_append hps₁ hps₂)
    hps₃) hps₄) hps₅, ?_⟩
  have hholds₁ : Sql.Holds ps₁ (.text "SELECT " :: Sql.joined ", " columns) :=
    (hspread₁.holds fun s hs => Sql.infix_joined _ hs).after
  -- The clauses are appended in the order of their parts.
  exact ((((hholds₁.left.left.append (holds_clause " WHERE " hps₂ hspread₂).right).left.append
    (holds_keys " GROUP BY " hspread₃).right).left.append
    (holds_clause " HAVING " hps₄ hspread₄).right).left.append
    (holds_keys " ORDER BY " hspread₅).right).left

end Clauses

-- The pieces of the slots can be rendered one after the other, and their texts stand in one text.
def Slot.Shown (frag : FragmentRenderer) (slots : List Slot) (out : Output) (s : Sql) : Prop :=
  ∃ ps out', renderAll frag slots out = .ok (ps, out') ∧ Sql.Holds ps s

section Nodes

open Render Sql
open Slot (renderAll renderAll_cons Shown)

variable {frag : FragmentRenderer} {ctx : Context} {pos : Position} {slots : List Slot}
  {out mid out' : Output} {s t : Sql}

theorem shown_nil : Shown frag [] out s := ⟨[], out, rfl, holds_nil s⟩

theorem shown_operand {slot : Slot} (h : slot.piece.render frag out = .ok (t, mid))
    (hstands : t <:+: s) : Shown frag [slot] out s :=
  ⟨_, mid, renderAll_cons h rfl, .cons hstands (holds_nil s)⟩

theorem shown_operands {a b : Slot} {u : Sql} (ha : a.piece.render frag out = .ok (t, mid))
    (hb : b.piece.render frag mid = .ok (u, out')) (ht : t <:+: s) (hu : u <:+: s) :
    Shown frag [a, b] out s :=
  ⟨_, out', renderAll_cons ha (renderAll_cons hb rfl), .cons ht (.cons hu (holds_nil s))⟩

theorem shown_condition {p : Position} {e : Expr} (h : expr frag ctx p e out = .ok (t, mid))
    (hstands : t.isBlank = false → t <:+: s) :
    Shown frag [⟨.condition, .expr ctx p e⟩] out s :=
  ⟨_, mid, renderAll_cons h rfl, List.forall_mem_cons.mpr
    ⟨fun hwritten => hstands (hwritten.resolve_left (by simp [Role.isOperand])), holds_nil s⟩⟩

theorem Render.Follows.shown {r : Render (List Sql)} (h : Follows frag slots r)
    (hrun : r out = .ok (ss, mid)) (hss : ∀ t ∈ ss, t <:+: s) : Shown frag slots out s := by
  obtain ⟨ps, hps, hspread⟩ := h out ss mid hrun
  exact ⟨ps, mid, hps, hspread.holds hss⟩

theorem infix_asCondition (s : Sql) : s <:+: asCondition ctx s := by
  unfold asCondition
  split
  · exact List.infix_rfl
  · exact (List.prefix_append _ _).isInfix

theorem infix_between_left (kw : Token) : s <:+: s ++ kw :: t := (List.prefix_append _ _).isInfix

theorem infix_between_right (kw : Token) : t <:+: s ++ kw :: t :=
  ((List.suffix_cons kw t).trans (List.suffix_append s _)).isInfix

theorem shown_literal (v : Value) (const : Bool) :
    Yields (literal ctx v const) out fun s _ =>
      Shown frag ((Expr.value v const).slots ctx .operand) out s := by
  simp only [Expr.slots, beq_self_eq_true, if_true]
  unfold literal
  split
  · next hnull =>
    obtain rfl := v.isNull_iff.mp hnull
    rw [yields_pure]
    cases const <;> exact shown_nil
  · cases const with
    | true =>
      simp only [if_true]
      intro s _ _
      exact shown_nil
    | false =>
      simp only [Bool.false_eq_true, if_false]
      split
      · next hitems =>
        rw [yields_pure, hitems]
        exact shown_nil
      · next vs _ hitems =>
        simp only [yields_bind, yields_pure, hitems, Option.getD_some]
        intro ss mid hss
        exact (follows_bindItems vs).shown hss fun t ht =>
          (infix_joined _ ht).trans (infix_enclosed _)
      · next hitems =>
        rw [hitems]
        intro s _ _
        exact shown_nil

theorem shown_condition_literal (v : Value) (const : Bool) (hpos : pos ≠ .operand) :
    Yields (condition ctx v const) out fun s _ =>
      Shown frag ((Expr.value v const).slots ctx pos) out s := by
  have hpos : (pos == .operand) = false := by simpa using hpos
  simp only [Expr.slots, hpos, Bool.false_eq_true, if_false]
  unfold condition
  split
  · exact yields_pure.mpr shown_nil
  · exact yields_pure.mpr shown_nil
  · exact yields_pure.mpr shown_nil
  · simp only [yields_bind, yields_pure]
    intro t mid ht
    split
    · exact shown_nil
    · exact shown_operand ht (infix_asCondition t)

theorem shown_standing {e : Expr} {value : Render Sql}
    (he : ∀ p, expr frag ctx p e = standing ctx p value) (hpos : pos ≠ .operand) :
    Yields (expr frag ctx pos e) out fun s _ => Shown frag [.standing ctx e] out s := by
  have hpos : (pos == .operand) = false := by simpa using hpos
  simp only [he, standing, hpos, Bool.false_eq_true, if_false, yields_bind, yields_pure]
  intro t mid ht
  have hrun : expr frag ctx .operand e out = .ok (t, mid) := by
    rw [he]
    exact bind_eq_ok.mpr ⟨t, mid, ht, rfl⟩
  exact shown_operand hrun (infix_asCondition t)

theorem shown_unary (op : UnaryOp) (x : Expr) :
    Yields (expr frag ctx pos (.unary op x)) out fun s _ =>
      Shown frag ((Expr.unary op x).slots ctx pos) out s := by
  simp only [expr, Expr.slots]
  split
  · simp only [negated]
    split
    · simp
    · simp only [yields_bind, yields_pure]
      intro t mid ht
      refine shown_condition ht fun hword => ?_
      rw [negation, hword, if_neg (by simp)]
      exact (infix_enclosed t).trans (List.suffix_cons _ _).isInfix
  · split
    · intro t mid ht
      exact shown_operand ht List.infix_rfl
    · simp only [yields_ite, yields_unsupported, implies_true, true_and, signed]
      intro _
      split
      · simp
      · simp only [yields_bind, yields_pure]
        intro t mid ht
        refine shown_operand ht (List.IsInfix.trans ?_ (List.suffix_cons _ _).isInfix)
        split
        · exact infix_enclosed t
        · exact List.infix_rfl

theorem infix_concat (g : Engine) {parts : List Sql} (h : s ∈ parts) :
    s <:+: g.dialect.concat parts := by
  rcases g.concat_cases parts with heq | heq | heq
  · exact heq ▸ infix_joined _ h
  · exact heq ▸ infix_joined _ h
  · rw [heq]
    exact (infix_joined ", " h).trans ⟨[.text "CONCAT("], [.text ")"], rfl⟩

theorem infix_replacements (escape : Char) (cs : List Char) (s : Sql) :
    s <:+: cs.foldl (fun s c => .text "REPLACE(" :: s ++
      [.text ", ", .string c.toString, .text ", ", .string (String.ofList [escape, c]), .text ")"])
      s := by
  induction cs generalizing s with
  | nil => exact List.infix_rfl
  | cons c cs ih => exact List.IsInfix.trans ⟨[.text "REPLACE("], _, rfl⟩ (ih _)

theorem infix_wildcards (g : Engine) (op : LogicOp) (s : Sql) :
    s <:+: wildcards g.dialect op s := by
  unfold wildcards
  split
  · exact infix_concat g (by simp)
  · split
    · exact infix_concat g (by simp)
    · exact infix_concat g (by simp)

theorem shown_compare (role : Role) (op : LogicOp) (l r : Expr) :
    Yields (expr frag ctx pos (.compare op l r)) out fun s _ =>
      (⟨⟨role, .expr ctx pos (.compare op l r)⟩, out⟩ : Occurrence).isDropped frag = true ∨
        Shown frag ((Expr.compare op l r).slots ctx pos) out s := by
  simp only [expr, Expr.slots, yields_ite, yields_unsupported, implies_true, true_and]
  refine fun _ => ⟨fun hnull => ?_, fun hnull => ⟨fun hin => ?_, fun _ => ⟨fun hpattern => ?_,
    fun hpattern => ?_⟩⟩⟩
  · -- A test for null.
    rw [if_pos hnull]
    split
    all_goals
      simp only [nullTest, yields_bind, yields_pure]
      intro t mid ht
      exact .inr (shown_operand ht (List.prefix_append _ _).isInfix)
  · have hpattern : op.isPattern = false := by
      rw [beq_iff_eq] at hin
      simp only [LogicOp.isPattern, hin]
      decide
    rw [if_neg hnull, hpattern, if_neg (by simp)]
    simp only [membership, yields_bind, yields_paramCount]
    intro left mid hl right out' hr
    refine yields_ite.mpr ⟨fun hblank => ?_, fun _ => ?_⟩
    · intro _ _ _
      refine .inl ?_
      simp only [Occurrence.isDropped, hin, lacksMembers, after, hl, hr, hblank, Bool.and_true]
    · split
      · simp
      · refine yields_pure.mpr (.inr (shown_operands hl hr (infix_between_left _) ?_))
        refine List.IsInfix.trans ?_ (infix_between_right _)
        split
        · exact List.infix_rfl
        · exact infix_enclosed right
  · rw [if_neg hnull, if_pos hpattern]
    simp only [patternTest]
    split
    · simp
    · simp only [yields_bind, yields_pure]
      intro left mid hl pattern out' hp
      refine .inr (shown_operands hl hp ?_ ?_)
      · exact (infix_between_left _).trans (List.prefix_append _ _).isInfix
      · exact (infix_between_right _).trans (List.prefix_append _ _).isInfix
  · rw [if_neg hnull, if_neg hpattern]
    simp only [comparison]
    split
    · simp
    · simp only [yields_bind, yields_pure]
      intro left mid hl right out' hr
      exact .inr (shown_operands hl hr (infix_between_left _) (infix_between_right _))

theorem shown_listed (items : List Expr) :
    Yields (listed (exprs frag ctx items)) out fun s _ =>
      Shown frag (items.map (.operand ctx .item)) out s := by
  simp only [listed, yields_bind, yields_pure]
  intro ss mid hss
  refine (follows_exprs _ items).shown hss fun t ht => ?_
  rw [if_neg (by simpa using List.ne_nil_of_mem ht)]
  exact (infix_joined _ ht).trans (infix_enclosed _)

theorem shown_combined (kind : SetKind) (items : List Expr) :
    Yields (combined pos kind (conditions frag ctx items)) out fun s _ =>
      s.isBlank = true ∨ Shown frag (items.map (.condition ctx)) out s := by
  simp only [combined, yields_bind, yields_paramCount]
  rintro ⟨parts, vacuous⟩ mid hrun
  obtain ⟨ps, hps, hspread⟩ := follows_conditions items out _ mid hrun
  simp only
  split
  · simp only [yields_bind, yields_release, yields_pure]
    exact .inl rfl
  · split
    · exact yields_pure.mpr (.inl rfl)
    · refine yields_pure.mpr (.inr ⟨ps, mid, hps, hspread.holds fun t ht => ?_⟩)
      exact List.mem_singleton.mp ht ▸ List.infix_rfl
    · refine yields_pure.mpr (.inr ⟨ps, mid, hps, hspread.holds fun t ht => ?_⟩)
      split
      · exact infix_joined _ ht
      · exact (infix_joined _ ht).trans (infix_enclosed _)

theorem shown_called (name : String) (args : List Expr) :
    Yields (called name (exprs frag ctx args)) out fun s _ =>
      Shown frag (args.map (.operand ctx .argument)) out s := by
  simp only [called, yields_bind, yields_checkName, yields_pure]
  intro _ ss mid hss
  exact (follows_exprs _ args).shown hss fun t ht =>
    ((infix_joined _ ht).trans (infix_enclosed _)).trans (List.suffix_cons _ _).isInfix

theorem shown_aggregation (name : String) (distinct : Bool) (arg : Option Expr) :
    Yields (aggregation name distinct (option frag ctx arg)) out fun s _ =>
      Shown frag (arg.toList.map (.operand ctx .argument)) out s := by
  simp only [aggregation, yields_bind, yields_checkName, yields_pure]
  intro _
  cases arg with
  | none =>
    intro t mid _
    exact shown_nil
  | some x =>
    simp only [option, yields_bind, yields_pure]
    intro t mid ht
    refine shown_operand ht (List.IsInfix.trans ?_ (List.suffix_cons _ _).isInfix)
    refine List.IsInfix.trans ?_ (infix_enclosed _)
    split
    · exact (List.suffix_cons _ _).isInfix
    · exact List.infix_rfl

theorem shown_related (relation label : String) (inner : Option Expr) (tableArgs : List String) :
    let p : Piece := .expr ctx pos (.related relation label inner tableArgs)
    Yields (p.render frag) out fun s _ =>
      Shown frag (p.slots (p.start out).tables) (p.start out) s := by
  simp only [Piece.render, expr, yields_ite, yields_unsupported, implies_true, true_and, existence,
    yields_bind, yields_ofExcept]
  intro _ join hjoin
  refine ⟨fun _ => yields_fail.mpr trivial, fun _ => ?_⟩
  rw [yields_forM_checkName]
  simp only [yields_nextTable, yields_enter, yields_pure]
  intro _ _ t mid ht
  simp only [Piece.slots, Piece.start, Piece.opens, Expr.opens, if_true, Expr.inside?, hjoin,
    Except.toOption, Option.map_some, Option.getD_some, Expr.slots]
  cases inner with
  | none => exact shown_nil
  | some x =>
    refine shown_condition ht fun hword => ?_
    rw [hword, if_neg (by simp)]
    have hstands : t <:+: Sql.joined " AND " (joinKeys ctx (out.tables + 1) join ++ [t]) :=
      infix_joined _ (by simp)
    exact hstands.trans (List.infix_append _ _ _)

theorem shown_query (q : Query) :
    let p : Piece := .expr ctx pos (.query q)
    Yields (p.render frag) out fun s _ =>
      Shown frag (p.slots (p.start out).tables) (p.start out) s := by
  change Yields (subquery ctx q.object fun inside => statement frag inside q) out _
  simp only [subquery, yields_bind, yields_ofExcept, yields_nextTable, yields_enter, yields_pure]
  intro table htable _ t mid ht
  simp only [Piece.slots, Piece.start, Piece.opens, Expr.opens, if_true, Expr.inside?, htable,
    Except.toOption, Option.map_some, Option.getD_some, Expr.slots]
  exact shown_operand ht (infix_enclosed t)

section Engines

variable {g : Engine} (hctx : ctx.dialect = g.dialect)
include hctx

theorem shown_pattern (op : LogicOp) (r : Expr) (n : Nat) :
    Yields ((Piece.pattern ctx op r).render frag) out fun s _ =>
      Shown frag ((Piece.pattern ctx op r).slots n) out s := by
  simp only [Piece.render, Piece.slots]
  cases hknown : patternText? r with
  | some text =>
    intro s _ _
    exact shown_nil
  | none =>
    simp only [patternOf, yields_bind, yields_pure, Option.isSome_none, Bool.false_eq_true, if_false]
    intro t mid ht
    rw [hctx]
    exact shown_operand ht ((infix_replacements _ _ t).trans (infix_wildcards g op _))

theorem shown_compute (op : ValueOp) (l r : Expr) :
    Yields (expr frag ctx pos (.compute op l r)) out fun s _ =>
      Shown frag ((Expr.compute op l r).slots ctx pos) out s := by
  simp only [expr, computation, yields_bind, yields_ite, yields_pure, yields_unsupported,
    implies_true, true_and]
  intro _ left mid hl right out' hr
  refine ⟨fun _ => ?_, fun _ => ?_⟩
  · rw [hctx]
    exact shown_operands hl hr (infix_concat g (by simp)) (infix_concat g (by simp))
  · split
    · simp
    · exact yields_pure.mpr (shown_operands hl hr
        ((infix_between_left _).trans (infix_enclosed _))
        ((infix_between_right _).trans (infix_enclosed _)))

theorem shown_concatenated (items : List Expr) :
    Yields (concatenated ctx (exprs frag ctx items)) out fun s _ =>
      Shown frag (items.map (.operand ctx .concatenation)) out s := by
  simp only [concatenated, yields_bind, yields_pure]
  intro ss mid hss
  rw [hctx]
  exact (follows_exprs _ items).shown hss fun t ht => infix_concat g ht

end Engines

-- The text of a piece holds the texts of its parts, unless they are dropped.
theorem shown_piece {g : Engine} (role : Role) (p : Piece) (hp : p.context.dialect = g.dialect) :
    Yields (p.render frag) out fun s _ =>
      (⟨⟨role, p⟩, out⟩ : Occurrence).isDropped frag = true ∨
        Shown frag (p.slots (p.start out).tables) (p.start out) s := by
  cases p with
  | statement ctx q =>
    simp only [Piece.render, statement_eq_render]
    refine (q.plan.holds_render out).mono fun s out' h => .inr ?_
    obtain ⟨ps, hps, hholds⟩ := h
    exact ⟨ps, out', hps, hholds⟩
  | pattern ctx op r => exact (shown_pattern hp op r _).mono fun s _ h => .inr h
  | item ctx v =>
    intro s _ _
    exact .inr shown_nil
  | expr ctx pos e =>
    have hctx : ctx.dialect = g.dialect := hp
    cases e with
    | value v const =>
      simp only [Piece.render, expr, yields_ite]
      refine ⟨fun hpos => ?_, fun hpos => ?_⟩
      · obtain rfl : pos = .operand := by simpa using hpos
        exact (shown_literal v const).mono fun s _ h => .inr h
      · exact (shown_condition_literal v const (by simpa using hpos)).mono fun s _ h => .inr h
    | property owner name =>
      by_cases hpos : pos = .operand
      · subst hpos
        intro s _ _
        exact .inr shown_nil
      · refine (shown_standing (fun _ => rfl) hpos).mono fun s _ h => .inr ?_
        simpa [Piece.slots, Piece.start, Piece.opens, Expr.opens, Expr.inside?, Expr.slots, hpos]
          using h
    | unary op x => exact (shown_unary op x).mono fun s _ h => .inr h
    | compare op l r => exact shown_compare role op l r
    | compute op l r =>
      have hshown : Yields (expr frag ctx pos (.compute op l r)) out fun s _ =>
          Shown frag ((Expr.compute op l r).slots ctx pos) out s := shown_compute hctx op l r
      exact hshown.mono fun s _ h => .inr h
    | call name args =>
      by_cases hpos : pos = .operand
      · subst hpos
        simp only [Piece.render, expr, standing, yields_bind, beq_self_eq_true, if_true, yields_pure]
        exact (shown_called name args).mono fun s _ h => .inr h
      · refine (shown_standing (fun _ => rfl) hpos).mono fun s _ h => .inr ?_
        simpa [Piece.slots, Piece.start, Piece.opens, Expr.opens, Expr.inside?, Expr.slots, hpos]
          using h
    | aggregate name arg distinct =>
      exact (shown_aggregation name distinct arg).mono fun s _ h => .inr h
    | set kind items =>
      intro s out' hrun
      have htext : (⟨⟨role, .expr ctx pos (.set kind items)⟩, out⟩ : Occurrence).text frag = s := by
        simp only [Occurrence.text, hrun]
      simp only [Piece.render, expr] at hrun
      simp only [Occurrence.isDropped, htext, Piece.slots, Piece.start, Piece.opens, Expr.opens,
        Expr.inside?, Expr.slots, Option.map_some, Option.getD_some, Bool.false_eq_true, if_false]
      split at hrun
      · next hlogical =>
        rw [hlogical, Bool.true_and, if_pos rfl]
        exact shown_combined kind items s out' hrun
      · next hlogical =>
        rw [if_neg hlogical]
        split at hrun
        · next hlist =>
          rw [if_pos hlist]
          exact .inr (shown_listed items s out' hrun)
        · next hlist =>
          rw [if_neg hlist]
          split at hrun
          · exact .inr (shown_concatenated hctx items s out' hrun)
          · cases hrun
    | related relation label inner tableArgs =>
      exact (shown_related relation label inner tableArgs).mono fun s _ h => .inr h
    | fragment key arg =>
      intro s _ _
      exact .inr shown_nil
    | query q => exact (shown_query q).mono fun s _ h => .inr h

end Nodes

theorem Occurrence.exists_of_part {frag : FragmentRenderer} {g : Engine} {o o' : Occurrence}
    {s : Sql} (ho : o.piece.context.dialect = g.dialect) (hs : o.Gives frag s)
    (hpart : o' ∈ o.parts frag) : ∃ t, o'.Gives frag t ∧ t <:+: s := by
  obtain ⟨out', hrun⟩ := hs
  unfold parts at hpart
  split at hpart
  · exact absurd hpart List.not_mem_nil
  · next hdropped =>
    obtain ⟨ps, out'', hps, hholds⟩ :=
      (shown_piece o.role o.piece ho s out' hrun).resolve_left hdropped
    obtain ⟨hrow, hwritten⟩ := List.mem_filter.mp hpart
    obtain ⟨t, ht, hgives⟩ := Slot.exists_of_mem_row hps hrow
    refine ⟨t, hgives, hholds _ ht ?_⟩
    obtain ⟨next, hrun'⟩ := hgives
    simpa [isWritten, text, hrun'] using hwritten

end QueryTree
