import QueryTree.Expr.Members
import QueryTree.Proofs.Sql.Calculation
import QueryTree.Proofs.Sql.Silence
import QueryTree.Proofs.Sql.Sound
import QueryTree.Schema.Basic

namespace QueryTree

namespace Value

-- Identifiers, under whatever type they are declared.
def isUuid (v : Value) : Bool :=
  match v.under with
  | .uuid _ => true
  | _ => false

-- What a database holds as one value.
def isSingle (v : Value) : Bool :=
  v.isOctetList || match v.under with
    | .bool _ | .int .. | .float .. | .text _ | .octets _ | .time _ => true
    | .uuid u => u.octets.length == 16
    | _ => false

end Value

def Engine.bound (g : Engine) (v : Value) : List DriverValue :=
  if v.isUuid then (v.items?.getD []).map g.driverValue else [g.driverValue v]

-- `Uses v user x` says that `x`, made of the value `v` alone, is an operand of `user`.
inductive Expr.Uses (v : Value) : Expr → Expr → Prop
  | compared {op : LogicOp} {l r : Expr} (hop : op ∈ LogicOp.comparisons)
    (h : .value v false ∈ [l, r]) : Uses v (.compare op l r) (.value v false)
  | computed {op : ValueOp} {l r : Expr} (h : .value v false ∈ [l, r]) :
    Uses v (.compute op l r) (.value v false)
  | signed {op : UnaryOp} (hnot : op ≠ .not) (hidentity : op ≠ .identity) :
    Uses v (.unary op (.value v false)) (.value v false)
  | argument {name : String} {args : List Expr} (h : .value v false ∈ args) :
    Uses v (.call name args) (.value v false)
  | aggregated (name : String) (distinct : Bool) :
    Uses v (.aggregate name (some (.value v false)) distinct) (.value v false)
  | included (l : Expr) : Uses v (l.isIn [.value v]) (Expr.members [.value v])
  | excluded (l : Expr) : Uses v (l.notIn [.value v]) (Expr.members [.value v])

namespace Value

variable {v : Value}

theorem ne_null_of_isSingle (h : v.isSingle = true) : v ≠ .null := by
  rintro rfl
  cases h

theorem isNull_of_isSingle (h : v.isSingle = true) : v.isNull = false :=
  Bool.eq_false_iff.mpr fun hnull => ne_null_of_isSingle h (v.isNull_iff.mp hnull)

theorem collection?_of_isSingle (h : v.isSingle = true) :
    v.collection? = if v.isUuid then v.items? else none := by
  unfold collection?
  split
  · next hoctets =>
    have huuid : v.isUuid = false := by
      unfold isOctetList at hoctets
      split at hoctets
      · rfl
      · rfl
      · cases hoctets
    simp [huuid]
  · next hoctets =>
    simp only [isSingle, hoctets, Bool.false_or] at h
    unfold isUuid items?
    split at h <;> simp_all

theorem items?_of_isUuid (h : v.isSingle = true) (huuid : v.isUuid = true) :
    ∃ vs, v.items? = some vs ∧ vs.length = 16 ∧ ∀ w ∈ vs, w.isNull = false := by
  unfold isUuid at huuid
  split at huuid
  · next u hu =>
    have hoctets : v.isOctetList = false := by
      cases v <;> first | rfl | cases hu
    refine ⟨u.octets.map fun b => .int .uint8 b.toNat, by simp [items?, hu], ?_, ?_⟩
    · simpa [isSingle, hoctets, hu] using h
    · simp [isNull]
  · cases huuid

end Value

namespace Output

def binding (out : Output) (ws : List DriverValue) : Output :=
  { out with params := out.params ++ ws.toArray }

theorem binding_nil (out : Output) : out.binding [] = out := by
  simp [binding]

theorem binding_append (out : Output) (ws us : List DriverValue) :
    (out.binding ws).binding us = out.binding (ws ++ us) := by
  simp [binding, Array.append_assoc]

theorem size_binding (out : Output) (ws : List DriverValue) :
    (out.binding ws).params.size = out.params.size + ws.length := by
  simp [binding]

theorem binding_inj {out : Output} {ws us : List DriverValue} (h : out.binding ws = out.binding us) :
    ws = us := by
  have hparams := congrArg (fun out => out.params.toList) h
  simpa [binding] using hparams

end Output

namespace Render

-- A rendering that gives a text and binds parameters, with a placeholder in the text for each.
def Binds (r : Render Sql) (out : Output) (s : Sql) (ws : List DriverValue) : Prop :=
  r out = .ok (s, out.binding ws) ∧ s.places = List.range' out.params.size ws.length

theorem Binds.unique {r : Render Sql} {out : Output} {s t : Sql} {ws us : List DriverValue}
    (h : Binds r out s ws) (h' : Binds r out t us) : ws = us := by
  have heq := h.1.symm.trans h'.1
  exact Output.binding_inj (Prod.ext_iff.mp (Except.ok.inj heq)).2

theorem Binds.isBlank {r : Render Sql} {out : Output} {s : Sql} {ws : List DriverValue}
    (h : Binds r out s ws) (hws : ws ≠ []) : s.isBlank = false := by
  cases hblank : s.isBlank with
  | false => rfl
  | true =>
    have hplaces := h.2.symm.trans (Sql.places_eq_nil_of_isBlank hblank)
    exact absurd hplaces (by simpa using hws)

variable {g : Engine} {frag : FragmentRenderer} {ctx : Context} {v : Value}
  (hctx : ctx.dialect = g.dialect) (out : Output)
include hctx

theorem binds_bind (v : Value) :
    Binds (bind ctx v) out [.placeholder out.params.size] [g.driverValue v] := by
  refine ⟨?_, rfl⟩
  simp only [bind, hctx, g.convert_eq]
  rfl

theorem exists_bindItems {vs : List Value} (hvs : ∀ w ∈ vs, w.isNull = false) :
    ∃ ss, bindItems ctx vs out = .ok (ss, out.binding (vs.map g.driverValue)) ∧
      ss.flatMap Sql.places = List.range' out.params.size vs.length := by
  induction vs generalizing out with
  | nil => exact ⟨[], by rw [List.map_nil, out.binding_nil]; rfl, rfl⟩
  | cons v vs ih =>
    obtain ⟨hv, hvs⟩ := List.forall_mem_cons.mp hvs
    have hbind : bindItem ctx v out =
        .ok ([.placeholder out.params.size], out.binding [g.driverValue v]) := by
      rw [bindItem, hv]
      exact (binds_bind hctx out v).1
    obtain ⟨ss, hss, hplaces⟩ := ih (out.binding [g.driverValue v]) hvs
    rw [out.binding_append] at hss
    refine ⟨_, bind_eq_ok.mpr ⟨_, _, hbind, bind_eq_ok.mpr ⟨ss, _, hss, rfl⟩⟩, ?_⟩
    rw [List.flatMap_cons, hplaces, out.size_binding]
    rfl

theorem exists_binds_items {vs : List Value} (hnull : v.isNull = false)
    (hitems : v.collection? = some vs) (hne : vs ≠ []) (hvs : ∀ w ∈ vs, w.isNull = false) :
    ∃ s, Binds (expr frag ctx .operand (.value v false)) out s (vs.map g.driverValue) := by
  obtain ⟨ss, hss, hplaces⟩ := exists_bindItems hctx out hvs
  refine ⟨Sql.enclosed (Sql.joined ", " ss), ?_, by simpa using hplaces⟩
  simp only [expr, beq_self_eq_true, if_true, literal, hnull, Bool.false_eq_true, if_false, hitems]
  exact bind_eq_ok.mpr ⟨ss, _, hss, rfl⟩

theorem exists_binds_literal (hv : v.isSingle = true) :
    ∃ s, Binds (expr frag ctx .operand (.value v false)) out s (g.bound v) := by
  have hcollection := Value.collection?_of_isSingle hv
  have hnull := Value.isNull_of_isSingle hv
  cases huuid : v.isUuid with
  | true =>
    obtain ⟨vs, hvs, hlength, hitems⟩ := Value.items?_of_isUuid hv huuid
    rw [huuid, if_pos rfl, hvs] at hcollection
    rw [Engine.bound, huuid, if_pos rfl, hvs]
    exact exists_binds_items hctx out hnull hcollection (by rintro rfl; simp at hlength) hitems
  | false =>
    rw [huuid, if_neg (by simp)] at hcollection
    rw [Engine.bound, huuid, if_neg (by simp)]
    refine ⟨_, ?_, (binds_bind hctx out v).2⟩
    simp only [expr, beq_self_eq_true, if_true, literal, hnull, Bool.false_eq_true, if_false,
      hcollection]
    exact (binds_bind hctx out v).1

-- A value alone becomes a list of one item, unless it is a list itself.
theorem exists_binds_members (hv : v.isSingle = true) :
    ∃ s, Binds (expr frag ctx .operand (Expr.members [.value v])) out s (g.bound v) := by
  simp only [Expr.members]
  split
  · exact exists_binds_literal hctx out hv
  · next hitems =>
    have huuid : v.isUuid = false := by
      cases huuid : v.isUuid with
      | false => rfl
      | true =>
        obtain ⟨vs, hvs, -⟩ := Value.items?_of_isUuid hv huuid
        simp [hvs] at hitems
    rw [Engine.bound, huuid, if_neg (by simp)]
    exact exists_binds_items hctx out rfl rfl (List.cons_ne_nil v [])
      (List.forall_mem_singleton.mpr (Value.isNull_of_isSingle hv))

theorem exists_binds_use {user x : Expr} (hv : v.isSingle = true) (huse : Expr.Uses v user x) :
    ∃ s, Binds (expr frag ctx .operand x) out s (g.bound v) := by
  cases huse with
  | included l => exact exists_binds_members hctx out hv
  | excluded l => exact exists_binds_members hctx out hv
  | _ => exact exists_binds_literal hctx out hv

end Render

theorem Engine.length_bound (g : Engine) {v : Value} (hv : v.isSingle = true) :
    (g.bound v).length = if v.isUuid then 16 else 1 := by
  unfold bound
  split
  · next huuid =>
    obtain ⟨vs, hvs, hlength, -⟩ := Value.items?_of_isUuid hv huuid
    simp [hvs, hlength]
  · rfl

theorem Engine.bound_eq_iff (g : Engine) {v : Value} (hv : v.isSingle = true) :
    g.bound v = [g.driverValue v] ↔ v.isUuid = false := by
  constructor
  · intro h
    have hlength := g.length_bound hv
    cases huuid : v.isUuid with
    | false => rfl
    | true => simp [h, huuid] at hlength
  · intro huuid
    simp [bound, huuid]

theorem LogicOp.kind_of_comparison {op : LogicOp} (hop : op ∈ comparisons) :
    op.isPattern = false ∧ (op.positive == .isIn) = false := by
  revert op
  decide

namespace Expr.Uses

variable {v : Value} {user x : Expr} {ctx : Context} {pos : Position}

-- The operand is among the parts of an expression, for a call where that is an operand itself.
theorem exists_slot (hv : v.isSingle = true) (h : Uses v user x)
    (hcall : ∀ name args, user = .call name args → pos = .operand) :
    ∃ role : Role, role.isOperand = true ∧ ⟨role, .expr ctx .operand x⟩ ∈ user.slots ctx pos := by
  cases h with
  | @compared op l r hop h =>
    refine ⟨.comparison, rfl, ?_⟩
    have hnull := Codec.isNull_value (Value.ne_null_of_isSingle hv) false
    rw [slots, (LogicOp.kind_of_comparison hop).1]
    split
    · next htest =>
      -- The value is no null, so the test is about it.
      have hself : .value v false = if l.isNull then r else l := by
        simp only [Bool.and_eq_true, Bool.or_eq_true] at htest
        grind
      rw [← hself]
      exact List.mem_singleton_self _
    · exact List.mem_map_of_mem (f := Slot.operand ctx .comparison) h
  | computed h => exact ⟨_, by split <;> rfl, List.mem_map_of_mem h⟩
  | signed hnot hidentity =>
    refine ⟨.arithmetic, rfl, ?_⟩
    rw [slots, if_neg (by simpa using hnot), if_neg (by simpa using hidentity)]
    exact List.mem_singleton_self _
  | argument h =>
    rw [slots, hcall _ _ rfl]
    exact ⟨_, rfl, List.mem_map_of_mem h⟩
  | aggregated name distinct => exact ⟨.argument, rfl, List.mem_singleton_self _⟩
  | included l | excluded l =>
    exact ⟨.comparison, rfl, List.mem_cons_of_mem (Slot.operand ctx _ l) (List.mem_singleton_self _)⟩

theorem isDropped {g : Engine} {frag : FragmentRenderer} (hctx : ctx.dialect = g.dialect)
    (hv : v.isSingle = true) (h : Uses v user x) (role : Role) (out : Output) :
    (⟨⟨role, .expr ctx pos user⟩, out⟩ : Occurrence).isDropped frag = false := by
  have hmember : ∀ l, Render.lacksMembers frag ctx out l (members [.value v]) = false := by
    intro l
    obtain ⟨s, hs⟩ : ∃ s, Render.Binds (Render.expr frag ctx .operand (members [.value v]))
        (Render.after (Render.expr frag ctx .operand l) out) s (g.bound v) :=
      Render.exists_binds_members hctx _ hv
    rw [Render.lacksMembers, hs.1]
    refine hs.isBlank (List.ne_nil_of_length_pos ?_)
    rw [g.length_bound hv]
    split <;> decide
  cases h with
  | compared hop h => simp [Occurrence.isDropped, (LogicOp.kind_of_comparison hop).2]
  | included l => simp [Occurrence.isDropped, isIn, hmember]
  | excluded l => simp [Occurrence.isDropped, notIn, hmember]
  | _ => rfl

theorem exists_called {frag : FragmentRenderer} {o : Occurrence} {s : Sql} {name : String}
    {args : List Expr} (hpiece : o.piece = .expr ctx pos (.call name args)) (hpos : pos ≠ .operand)
    (hs : o.Gives frag s) :
    ∃ o' ∈ o.parts frag, o'.piece = .expr ctx .operand (.call name args) := by
  obtain ⟨⟨role, piece⟩, before⟩ := o
  obtain rfl : piece = .expr ctx pos (.call name args) := hpiece
  have hpos : (pos == .operand) = false := by simpa using hpos
  obtain ⟨out, hrun⟩ := hs
  obtain ⟨t, mid, ht, -⟩ := Render.bind_eq_ok.mp hrun
  have hoperand : Render.expr frag ctx .operand (.call name args) before = .ok (t, mid) :=
    Render.bind_eq_ok.mpr ⟨t, mid, ht, rfl⟩
  have hword : t.isBlank = false :=
    Render.isBlank_standing (Render.isBlank_called name _) before t mid hoperand
  refine ⟨⟨.standing ctx (.call name args), before⟩, List.mem_filter.mpr ⟨?_, ?_⟩, rfl⟩
  · simp [Piece.slots, inside?, slots, hpos, Slot.row, Piece.start, Piece.opens, opens]
  · simp [Occurrence.isWritten, Occurrence.text, Slot.standing, Slot.operand, Piece.render,
      hoperand, hword]

theorem exists_part {g : Engine} {frag : FragmentRenderer} {o : Occurrence}
    (hctx : ctx.dialect = g.dialect) (hv : v.isSingle = true) (h : Uses v user x)
    (hpiece : o.piece = .expr ctx pos user)
    (hcall : ∀ name args, user = .call name args → pos = .operand) :
    ∃ o' ∈ o.parts frag, o'.role.isOperand = true ∧ o'.piece = .expr ctx .operand x := by
  obtain ⟨⟨role, piece⟩, before⟩ := o
  obtain rfl : piece = .expr ctx pos user := hpiece
  obtain ⟨inner, hrole, hslot⟩ : ∃ inner : Role, inner.isOperand = true ∧
      ⟨inner, .expr ctx .operand x⟩ ∈ user.slots ctx pos := h.exists_slot hv hcall
  have hinside : ∀ n, user.inside? ctx n = some ctx := by
    intro n
    cases h <;> rfl
  have hmem : ⟨inner, .expr ctx .operand x⟩ ∈ (Piece.expr ctx pos user).slots
      ((Piece.expr ctx pos user).start before).tables := by
    rw [Piece.slots, hinside]
    exact hslot
  obtain ⟨o', ho', hslot'⟩ := Occurrence.exists_part (h.isDropped hctx hv role before) hmem hrole
  exact ⟨o', ho', by rw [hslot']; exact hrole, by rw [hslot']⟩

theorem exists_splice {g : Engine} {c : Compilation} (hc : c.dialect = some g.dialect) {e : Expr}
    {st : Statement} (hrun : c.run (some e) = .ok st) {o : Occurrence} (ho : c.Splices e o)
    (hpiece : o.piece = .expr ctx pos user) (hv : v.isSingle = true) (h : Uses v user x) :
    ∃ o', c.Splices e o' ∧ o'.role.isOperand = true ∧ o'.piece = .expr ctx .operand x := by
  obtain ⟨hdialect, -, s, hs, -⟩ := ho.stands hc hrun
  have hctx : ctx.dialect = g.dialect := by simpa [hpiece, Piece.context] using hdialect
  by_cases hcall : ∀ name args, user = .call name args → pos = .operand
  · obtain ⟨o', ho', hrole, hpiece'⟩ := h.exists_part hctx hv hpiece hcall
    exact ⟨o', ho.part ho', hrole, hpiece'⟩
  · obtain ⟨name, args, rfl, hpos⟩ : ∃ name args, user = .call name args ∧ pos ≠ .operand := by
      simpa using hcall
    obtain ⟨called, hcalled, hpiece'⟩ := exists_called hpiece hpos hs
    obtain ⟨o', ho', hrole, hpiece''⟩ := h.exists_part hctx hv hpiece' fun _ _ _ => rfl
    exact ⟨o', (ho.part hcalled).part ho', hrole, hpiece''⟩

end Expr.Uses

-- A value of the database is bound as one parameter, in the form that the engine is given, unless
-- it is an identifier: of that every octet is. So it is for each use as an operand, and the operand
-- stands in every statement that the use is part of.
theorem single_value_binds_once_iff (g : Engine) (v : Value) (hv : v.isSingle = true)
    (user x : Expr) (huse : Expr.Uses v user x) :
    (∀ (frag : FragmentRenderer) (ctx : Context) (out : Output), ctx.dialect = g.dialect →
      (∃ s, Render.Binds (Render.expr frag ctx .operand x) out s (g.bound v)) ∧
      ((∃ s, Render.Binds (Render.expr frag ctx .operand x) out s [g.driverValue v]) ↔
        v.isUuid = false)) ∧
    ∀ (c : Compilation) (e : Expr) (st : Statement) (o : Occurrence) (ctx : Context)
      (pos : Position), c.dialect = some g.dialect → c.run (some e) = .ok st → c.Splices e o →
      o.piece = .expr ctx pos user →
      ∃ o' s, c.Splices e o' ∧ o'.role.isOperand = true ∧ o'.piece = .expr ctx .operand x ∧
        Render.Binds (Render.expr c.fragments ctx .operand x) o'.before s (g.bound v) ∧
        s <:+: st.tokens := by
  refine ⟨fun frag ctx out hctx => ?_, fun c e st o ctx pos hc hrun ho hpiece => ?_⟩
  · obtain ⟨s, hs⟩ : ∃ s, Render.Binds (Render.expr frag ctx .operand x) out s (g.bound v) :=
      Render.exists_binds_use hctx out hv huse
    refine ⟨⟨s, hs⟩, ?_⟩
    rw [← g.bound_eq_iff hv]
    constructor
    · rintro ⟨t, ht⟩
      exact hs.unique ht
    · intro h
      exact ⟨s, h ▸ hs⟩
  · obtain ⟨o', ho', hrole, hpiece'⟩ := huse.exists_splice hc hrun ho hpiece hv
    obtain ⟨hdialect, -, s, ⟨out, hs⟩, hstands⟩ := ho'.stands hc hrun
    have hctx : ctx.dialect = g.dialect := by simpa [hpiece', Piece.context] using hdialect
    obtain ⟨t, ht⟩ : ∃ t, Render.Binds (Render.expr c.fragments ctx .operand x) o'.before t
        (g.bound v) := Render.exists_binds_use hctx o'.before hv huse
    rw [hpiece'] at hs
    obtain rfl : s = t := (Prod.ext_iff.mp (Except.ok.inj (hs.symm.trans ht.1))).1
    exact ⟨o', s, ho', hrole, hpiece', ht, hstands⟩

-- A text alone in a test for membership.
theorem single_value_binds_once_iff_member :
    ∃ (g : Engine) (v : Value) (user x : Expr) (c : Compilation) (e : Expr) (st : Statement)
      (o o' : Occurrence) (ctx : Context) (s : Sql),
      v.isSingle = true ∧ Expr.Uses v user x ∧ c.dialect = some g.dialect ∧
      c.run (some e) = .ok st ∧ st.text = "SELECT * FROM \"t_Row\" WHERE \"A\" NOT IN (:p0)" ∧
      c.Splices e o ∧ o.piece = .expr ctx .condition user ∧
      c.Splices e o' ∧ o'.piece = .expr ctx .operand x ∧ s <:+: st.tokens ∧
      Render.Binds (Render.expr c.fragments ctx .operand x) o'.before s [g.driverValue v] := by
  let v : Value := .text "x"
  let user : Expr := (Expr.property "" "A").notIn [.value v]
  let q : Query := .filter (.rows "Row") user
  let schema : Schema := { tables := [⟨"t_Row", ["A"]⟩], bindings := [("Row", "t_Row")] }
  let g : Engine := .sqlite '/'
  let c : Compilation := { resolver := some schema.resolver, dialect := some g.dialect }
  let ctx : Context := ⟨g.dialect, schema.resolver, { object := "Row", table := "t_Row" }, [], 0⟩
  let whole : Occurrence := ⟨⟨.itself, .statement ctx q⟩, {}⟩
  let o : Occurrence := ⟨⟨.condition, .expr ctx .condition user⟩, {}⟩
  have huse : Expr.Uses v user (Expr.members [.value v]) := .excluded _
  have hpart : o ∈ whole.parts c.fragments := List.mem_cons_self
  have ho : c.Splices (.query q) o := ⟨_, _, _, rfl, rfl, rfl, .part .whole hpart⟩
  obtain ⟨st, hrun, htext⟩ : ∃ st, c.run (some (.query q)) = .ok st ∧
      st.text = "SELECT * FROM \"t_Row\" WHERE \"A\" NOT IN (:p0)" :=
    ⟨_, rfl, by decide +kernel⟩
  obtain ⟨-, hstatement⟩ := single_value_binds_once_iff g v rfl user _ huse
  obtain ⟨o', s, ho', -, hpiece, hbinds, hstands⟩ :=
    hstatement c (.query q) st o ctx .condition rfl hrun ho rfl
  exact ⟨g, v, user, _, c, .query q, st, o, o', ctx, s, rfl, huse, rfl, hrun, htext, ho, rfl, ho',
    hpiece, hstands, hbinds⟩

-- An identifier is compared with sixteen parameters.
theorem identifier_binds_octets :
    ∃ (g : Engine) (v : Value) (user x : Expr) (c : Compilation) (st : Statement),
      v.isSingle = true ∧ Expr.Uses v user x ∧ c.dialect = some g.dialect ∧
      c.run (some (.query (.filter (.rows "Row") user))) = .ok st ∧
      st.text = "SELECT * FROM \"t_Row\" WHERE \"Key\" = (@p0, @p1, @p2, @p3, @p4, @p5, @p6, " ++
        "@p7, @p8, @p9, @p10, @p11, @p12, @p13, @p14, @p15)" ∧
      st.params.length = 16 ∧
      ∀ (frag : FragmentRenderer) (ctx : Context) (out : Output) (s : Sql),
        ctx.dialect = g.dialect →
        ¬Render.Binds (Render.expr frag ctx .operand x) out s [g.driverValue v] := by
  let v : Value := .uuid ⟨[0x6b, 0xa7, 0xb8, 0x10, 0x9d, 0xad, 0x11, 0xd1, 0x80, 0xb4, 0x00, 0xc0,
    0x4f, 0xd4, 0x30, 0xc8]⟩
  let user : Expr := .compare .equal (.property "" "Key") (.value v false)
  let schema : Schema := { tables := [⟨"t_Row", ["Key"]⟩], bindings := [("Row", "t_Row")] }
  let g : Engine := .postgres '/'
  let c : Compilation := { resolver := some schema.resolver, dialect := some g.dialect }
  have hv : v.isSingle = true := by decide
  have huse : Expr.Uses v user (.value v false) := .compared (by decide) (by simp)
  obtain ⟨st, hrun, htext, hparams⟩ : ∃ st,
      c.run (some (.query (.filter (.rows "Row") user))) = .ok st ∧
      st.text = "SELECT * FROM \"t_Row\" WHERE \"Key\" = (@p0, @p1, @p2, @p3, @p4, @p5, @p6, " ++
        "@p7, @p8, @p9, @p10, @p11, @p12, @p13, @p14, @p15)" ∧
      st.params.length = 16 :=
    ⟨_, rfl, by decide +kernel, by decide +kernel⟩
  refine ⟨g, v, user, _, c, st, hv, huse, rfl, hrun, htext, hparams, fun frag ctx out s hctx hs => ?_⟩
  obtain ⟨t, ht⟩ : ∃ t, Render.Binds (Render.expr frag ctx .operand (.value v false)) out t
      (g.bound v) := Render.exists_binds_use hctx out hv huse
  exact absurd ((g.bound_eq_iff hv).mp (ht.unique hs)) (by decide)

end QueryTree
