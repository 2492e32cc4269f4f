import QueryTree.Proofs.Sql.Piece

namespace QueryTree

def Plan.parts (p : Plan) : List Expr :=
  p.columns.map (·.expr) ++ p.filters ++ p.keys ++ p.groupFilters ++ p.order.map (·.expr)

theorem Query.mem_parts_of_plan {q : Query} {x : Expr} (h : x ∈ q.plan.parts) : x ∈ q.parts := by
  induction q with
  | rows object => exact h
  | window q offset limit ih => exact ih h
  | _ => grind [Plan.parts, plan, columns, filters, keys, groupFilters, sortKeys, parts]

def Piece.exprs : Piece → List Expr
  | .expr _ _ e => [e]
  | .statement _ q => q.parts
  | .pattern _ _ r => [r]
  | .item .. => []

-- A slot in a context that is filled from among given expressions.
def Slot.IsOver (ctx : Context) (es : List Expr) (slot : Slot) : Prop :=
  slot.piece.context = ctx ∧ slot.piece.exprs ⊆ es

section Over

variable {ctx : Context} {es : List Expr} {e x : Expr}

theorem isOver_expr {role : Role} {pos : Position} (h : x ∈ es) :
    Slot.IsOver ctx es ⟨role, .expr ctx pos x⟩ :=
  ⟨rfl, by simpa [Piece.exprs] using h⟩

theorem isOver_column (h : x ∈ es) : (Slot.column ctx x).IsOver ctx es := by
  unfold Slot.column
  split <;> exact isOver_expr h

theorem Expr.isOver_slots (e : Expr) (pos : Position) :
    ∀ slot ∈ e.slots ctx pos, slot.IsOver ctx e.nodes := by
  have hself : ∀ slot ∈ [Slot.standing ctx e], slot.IsOver ctx e.nodes :=
    List.forall_mem_singleton.mpr (isOver_expr e.self_mem_nodes)
  have hpart : ∀ (role : Role) (pos : Position), ∀ x ∈ e.parts,
      Slot.IsOver ctx e.nodes ⟨role, .expr ctx pos x⟩ :=
    fun _ _ x hx => isOver_expr (mem_nodes_of_mem_parts hx)
  cases e with
  | value v const =>
    rw [slots]
    split
    · split
      · simp
      · exact List.forall_mem_map.mpr fun w _ => ⟨rfl, by simp [Piece.exprs]⟩
    · split
      · simp
      · exact hself
  | property owner name =>
    rw [slots]
    split
    · simp
    · exact hself
  | unary op x =>
    have hx : x ∈ (Expr.unary op x).parts := List.mem_singleton_self x
    rw [slots]
    repeat' split
    all_goals exact List.forall_mem_singleton.mpr (hpart _ _ x hx)
  | compare op l r =>
    have hl : l ∈ (Expr.compare op l r).parts := by simp [parts]
    have hr : r ∈ (Expr.compare op l r).parts := by simp [parts]
    rw [slots]
    split
    · refine List.forall_mem_singleton.mpr (hpart _ _ _ ?_)
      split
      · exact hr
      · exact hl
    · split
      · refine List.forall_mem_cons.mpr ⟨hpart _ _ l hl, List.forall_mem_singleton.mpr ⟨rfl, ?_⟩⟩
        simpa [Piece.exprs] using mem_nodes_of_mem_parts hr
      · exact List.forall_mem_cons.mpr
          ⟨hpart _ _ l hl, List.forall_mem_singleton.mpr (hpart _ _ r hr)⟩
  | compute op l r | aggregate name arg distinct | related relation label inner tableArgs =>
    exact List.forall_mem_map.mpr fun x hx => hpart _ _ x hx
  | call name args =>
    rw [slots]
    split
    · exact List.forall_mem_map.mpr fun x hx => hpart _ _ x hx
    · exact hself
  | set kind items =>
    rw [slots]
    split
    all_goals exact List.forall_mem_map.mpr fun x hx => hpart _ _ x hx
  | query q => exact List.forall_mem_singleton.mpr ⟨rfl, fun x hx => mem_nodes_of_mem_parts hx⟩
  | fragment key arg => simp [slots]

theorem Expr.mem_nodes_of_conjuncts (h : x ∈ e.conjuncts) : x ∈ e.nodes := by
  cases e with
  | set kind items =>
    rw [conjuncts] at h
    split at h
    · exact mem_nodes_of_mem_parts h
    · rw [List.mem_singleton.mp h]
      exact self_mem_nodes _
  | _ =>
    rw [List.mem_singleton.mp h]
    exact self_mem_nodes _

theorem isOver_clause {ps : List Expr} (h : ∀ e ∈ ps, e.nodes ⊆ es) :
    ∀ slot ∈ (ps.flatMap Expr.conjuncts).map (Slot.condition ctx), slot.IsOver ctx es := by
  refine List.forall_mem_map.mpr fun x hx => ?_
  obtain ⟨e, he, hx⟩ := List.mem_flatMap.mp hx
  exact isOver_expr (h e he (Expr.mem_nodes_of_conjuncts hx))

theorem Plan.isOver_slots (p : Plan) (h : ∀ e ∈ p.parts, e.nodes ⊆ es) :
    ∀ slot ∈ p.slots ctx, slot.IsOver ctx es := by
  simp only [parts, List.forall_mem_append] at h
  obtain ⟨⟨⟨⟨hcolumns, hfilters⟩, hkeys⟩, hgroups⟩, horder⟩ := h
  have hself : ∀ e : Expr, e.nodes ⊆ es → e ∈ es := fun e he => he e.self_mem_nodes
  simp only [slots, List.forall_mem_append]
  refine ⟨⟨⟨⟨?_, isOver_clause hfilters⟩, ?_⟩, isOver_clause hgroups⟩, ?_⟩
  · split
    · exact List.forall_mem_map.mpr fun x hx => isOver_expr (hself x (hkeys x hx))
    · exact List.forall_mem_map.mpr fun c hc =>
        isOver_column (hself _ (hcolumns _ (List.mem_map_of_mem hc)))
  · exact List.forall_mem_map.mpr fun x hx => isOver_expr (hself x (hkeys x hx))
  · exact List.forall_mem_map.mpr fun k hk =>
      isOver_expr (hself _ (horder _ (List.mem_map_of_mem hk)))

theorem Expr.dialect_inside? {n : Nat} {inside : Context} (h : e.inside? ctx n = some inside) :
    inside.dialect = ctx.dialect := by
  cases e with
  | related relation label inner tableArgs =>
    obtain ⟨join, -, rfl⟩ := Option.map_eq_some_iff.mp h
    rfl
  | query q =>
    obtain ⟨table, -, rfl⟩ := Option.map_eq_some_iff.mp h
    rfl
  | _ =>
    cases h
    rfl

end Over

theorem Piece.isOver_slots (p : Piece) (n : Nat) : ∀ slot ∈ p.slots n,
    slot.piece.context.dialect = p.context.dialect ∧
      slot.piece.exprs ⊆ p.exprs.flatMap Expr.nodes := by
  intro slot hslot
  cases p with
  | expr ctx pos e =>
    simp only [slots] at hslot
    cases hinside : e.inside? ctx n with
    | none =>
      rw [hinside] at hslot
      exact absurd hslot List.not_mem_nil
    | some inside =>
      rw [hinside] at hslot
      obtain ⟨hcontext, hexprs⟩ := e.isOver_slots pos slot hslot
      rw [hcontext]
      exact ⟨Expr.dialect_inside? hinside, by simpa [exprs] using hexprs⟩
  | statement ctx q =>
    have hnodes : ∀ e ∈ q.plan.parts, e.nodes ⊆ q.parts.flatMap Expr.nodes :=
      fun e he x hx => List.mem_flatMap.mpr ⟨e, q.mem_parts_of_plan he, hx⟩
    obtain ⟨hcontext, hexprs⟩ := q.plan.isOver_slots hnodes slot hslot
    rw [hcontext]
    exact ⟨rfl, hexprs⟩
  | pattern ctx op r =>
    simp only [slots] at hslot
    split at hslot
    · exact absurd hslot List.not_mem_nil
    · rw [List.mem_singleton.mp hslot]
      exact ⟨rfl, by simpa [exprs, Slot.operand] using r.self_mem_nodes⟩
  | item ctx v => exact absurd hslot List.not_mem_nil

theorem Slot.mem_of_mem_row {frag : FragmentRenderer} {slots : List Slot} {out : Output}
    {o : Occurrence} (h : o ∈ row frag slots out) : o.toSlot ∈ slots := by
  induction slots generalizing out with
  | nil => exact absurd h List.not_mem_nil
  | cons slot rest ih =>
    rcases List.mem_cons.mp h with rfl | h
    · exact List.mem_cons_self
    · exact List.mem_cons_of_mem slot (ih h)

theorem Slot.exists_mem_row (frag : FragmentRenderer) {slots : List Slot} {slot : Slot}
    (h : slot ∈ slots) (out : Output) : ∃ o ∈ row frag slots out, o.toSlot = slot := by
  induction slots generalizing out with
  | nil => exact absurd h List.not_mem_nil
  | cons first rest ih =>
    rcases List.mem_cons.mp h with rfl | h
    · exact ⟨⟨slot, out⟩, List.mem_cons_self, rfl⟩
    · obtain ⟨o, ho, hslot⟩ := ih h _
      exact ⟨o, List.mem_cons_of_mem _ ho, hslot⟩

namespace Occurrence

variable {frag : FragmentRenderer} {whole o o' : Occurrence}

theorem exists_part {slot : Slot} (hdropped : o.isDropped frag = false)
    (h : slot ∈ o.piece.slots (o.piece.start o.before).tables) (hrole : slot.role.isOperand = true) :
    ∃ o' ∈ o.parts frag, o'.toSlot = slot := by
  obtain ⟨o', ho', rfl⟩ := Slot.exists_mem_row frag h (o.piece.start o.before)
  refine ⟨o', ?_, rfl⟩
  rw [parts, if_neg (by simp [hdropped])]
  exact List.mem_filter.mpr ⟨ho', by simp [isWritten, hrole]⟩

theorem mem_slots_of_part (h : o' ∈ o.parts frag) : ∃ n, o'.toSlot ∈ o.piece.slots n := by
  unfold parts at h
  split at h
  · exact absurd h List.not_mem_nil
  · exact ⟨_, Slot.mem_of_mem_row (List.mem_filter.mp h).1⟩

-- All that the text of a whole is put together from.
inductive Within (frag : FragmentRenderer) (whole : Occurrence) : Occurrence → Prop
  | whole : Within frag whole whole
  | part {o o' : Occurrence} (h : Within frag whole o) (hpart : o' ∈ o.parts frag) :
    Within frag whole o'

theorem Within.dialect (h : Within frag whole o) :
    o.piece.context.dialect = whole.piece.context.dialect := by
  induction h with
  | whole => rfl
  | part _ hpart ih =>
    obtain ⟨n, hslot⟩ := mem_slots_of_part hpart
    exact ((Piece.isOver_slots _ n _ hslot).1).trans ih

theorem Within.exprs (h : Within frag whole o) :
    o.piece.exprs ⊆ whole.piece.exprs.flatMap Expr.nodes := by
  induction h with
  | whole => exact fun x hx => List.mem_flatMap.mpr ⟨x, hx, x.self_mem_nodes⟩
  | part _ hpart ih =>
    obtain ⟨n, hslot⟩ := mem_slots_of_part hpart
    intro x hx
    obtain ⟨y, hy, hxy⟩ := List.mem_flatMap.mp ((Piece.isOver_slots _ n _ hslot).2 hx)
    obtain ⟨z, hz, hyz⟩ := List.mem_flatMap.mp (ih hy)
    exact List.mem_flatMap.mpr ⟨z, hz, Expr.nodes_subset hyz hxy⟩

theorem Within.exists_gives {g : Engine} (hwhole : whole.piece.context.dialect = g.dialect)
    {s : Sql} (hs : whole.Gives frag s) (h : Within frag whole o) :
    ∃ t, o.Gives frag t ∧ t <:+: s := by
  induction h with
  | whole => exact ⟨s, hs, List.infix_rfl⟩
  | part h hpart ih =>
    obtain ⟨t, ht, hts⟩ := ih
    obtain ⟨u, hu, hut⟩ := exists_of_part (h.dialect.trans hwhole) ht hpart
    exact ⟨u, hu, hut.trans hts⟩

end Occurrence

namespace Compilation

def piece (c : Compilation) (resolver : Resolver) (dialect : Dialect) (e : Expr) :
    Except Error Piece := do
  let scope ← c.scope resolver
  match e with
  | .query q => do
    let table ← resolver.table q.object
    let scope : Scope := { object := q.object, table, label := c.label }
    return .statement { dialect, resolver, scope } q
  | e => return .expr { dialect, resolver, scope } .condition e

theorem render_eq_piece (c : Compilation) (r : Resolver) (d : Dialect) (e : Expr) :
    c.render r d e = c.piece r d e >>= fun p => p.render c.fragments {} := by
  simp only [render, piece, bind_assoc]
  congr
  funext scope
  cases e with
  | query q =>
    simp only [bind_assoc]
    rfl
  | _ => rfl

-- What the statement of an expression is put together from.
def Splices (c : Compilation) (e : Expr) (o : Occurrence) : Prop :=
  ∃ r d p, c.resolver = some r ∧ c.dialect = some d ∧ c.piece r d e = .ok p ∧
    Occurrence.Within c.fragments ⟨⟨.itself, p⟩, {}⟩ o

theorem Splices.part {c : Compilation} {e : Expr} {o o' : Occurrence} (h : c.Splices e o)
    (hpart : o' ∈ o.parts c.fragments) : c.Splices e o' := by
  obtain ⟨r, d, p, hr, hd, hp, hwithin⟩ := h
  exact ⟨r, d, p, hr, hd, hp, hwithin.part hpart⟩

theorem piece_ok {c : Compilation} {r : Resolver} {d : Dialect} {e : Expr} {p : Piece}
    (h : c.piece r d e = .ok p) : p.context.dialect = d ∧ p.exprs ⊆ e.nodes := by
  obtain ⟨scope, -, h⟩ := bind_ok h
  cases e with
  | query q =>
    obtain ⟨table, -, h⟩ := bind_ok h
    cases h
    exact ⟨rfl, fun x hx => Expr.mem_nodes_of_mem_parts hx⟩
  | _ =>
    cases h
    exact ⟨rfl, List.cons_subset.mpr ⟨Expr.self_mem_nodes _, List.nil_subset _⟩⟩

-- Everything that a statement is put together from is for its engine, is made of the expression
-- and stands in the statement.
theorem Splices.stands {c : Compilation} {g : Engine} (hc : c.dialect = some g.dialect) {e : Expr}
    {st : Statement} (h : c.run (some e) = .ok st) {o : Occurrence} (ho : c.Splices e o) :
    o.piece.context.dialect = g.dialect ∧ o.piece.exprs ⊆ e.nodes ∧
      ∃ s, o.Gives c.fragments s ∧ s <:+: st.tokens := by
  obtain ⟨r, d, p, hr, hd, hp, hwithin⟩ := ho
  obtain ⟨r', d', out, hr', hd', hrender, -⟩ := run_ok h
  obtain rfl : d = g.dialect := Option.some_inj.mp (hd.symm.trans hc)
  obtain rfl : r' = r := Option.some_inj.mp (hr'.symm.trans hr)
  obtain rfl : d' = g.dialect := Option.some_inj.mp (hd'.symm.trans hc)
  obtain ⟨hdialect, hexprs⟩ := piece_ok hp
  rw [render_eq_piece, hp] at hrender
  have hwhole : (⟨⟨.itself, p⟩, {}⟩ : Occurrence).Gives c.fragments st.tokens := ⟨out, hrender⟩
  refine ⟨hwithin.dialect.trans hdialect, fun x hx => ?_, hwithin.exists_gives hdialect hwhole⟩
  obtain ⟨y, hy, hxy⟩ := List.mem_flatMap.mp (hwithin.exprs hx)
  exact Expr.nodes_subset (hexprs hy) hxy

end Compilation

end QueryTree
