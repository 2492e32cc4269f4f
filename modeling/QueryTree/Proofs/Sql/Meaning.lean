import QueryTree.Proofs.Expr.Induction
import QueryTree.Proofs.Sql.Formula
import QueryTree.Proofs.Sql.Outcome
import QueryTree.Proofs.Sql.Reading

namespace QueryTree

namespace Render

def after {α : Type} (r : Render α) (out : Output) : Output :=
  match r out with
  | .ok (_, out') => out'
  | .error _ => out

variable (frag : FragmentRenderer) (ctx : Context)

def leafText (leaf : Expr × Output) : Sql :=
  match expr frag ctx .condition leaf.1 leaf.2 with
  | .ok (s, _) => s
  | .error _ => []

def lacksMembers (out : Output) (l r : Expr) : Bool :=
  match expr frag ctx .operand r (after (expr frag ctx .operand l) out) with
  | .ok (s, _) => s.isBlank
  | .error _ => false

end Render

-- A set without children holds.
def Formula.ofSet {α : Type} (kind : SetKind) (φs : List (Formula α)) : Formula α :=
  if φs.isEmpty then .const true else if kind == .or then any φs else all φs

section Formulas

variable (frag : FragmentRenderer) (ctx : Context)

open Render

mutual

-- The formula of a condition that is rendered from an output on. Leaves are atoms, but for those
-- that say the same of every row.
def Expr.formula (out : Output) : Expr → Formula (Expr × Output)
  | .value .null _ => .const true
  | .value (.bool b) true => .const b
  | .unary op x =>
    if op == .not then .not (x.formula out)
    else if op == .identity then x.formula out
    else .atom (.unary op x, out)
  | .compare op l r =>
    if op.positive == .isIn && lacksMembers frag ctx out l r then .const op.isNegated
    else .atom (.compare op l r, out)
  | .set kind items =>
    if kind.isLogical then .ofSet kind (Expr.formulas out items) else .atom (.set kind items, out)
  | e => .atom (e, out)

def Expr.formulas (out : Output) : List Expr → List (Formula (Expr × Output))
  | [] => []
  | e :: es => e.formula out :: Expr.formulas (after (expr frag ctx .condition e) out) es

end

end Formulas

-- How the signs of a condition are written, when it is known how its atoms are.
def Symbol.sql {α : Type} (word : α → Sql) : Symbol α → Sql
  | .atom a => word a
  | .const b => Sql.ofText (if b then "1=1" else "0=1")
  | .not => Sql.ofText "NOT "
  | .and => Sql.ofText " AND "
  | .or => Sql.ofText " OR "
  | .opening => Sql.ofText "("
  | .closing => Sql.ofText ")"

namespace Symbol

variable {α : Type} (word : α → Sql)

def spelled (ts : List (Symbol α)) : Sql := ts.flatMap (sql word)

theorem spelled_enclosed (ts : List (Symbol α)) :
    spelled word (.opening :: ts ++ [.closing]) = Sql.enclosed (spelled word ts) := by
  simp [spelled, sql, Sql.enclosed, Sql.ofText]

theorem spelled_separated (sep : Symbol α) (t : String) (hsep : sep.sql word = Sql.ofText t)
    (tss : List (List (Symbol α))) :
    spelled word (separated sep tss) = Sql.joined t (tss.map (spelled word)) := by
  induction tss with
  | nil => rfl
  | cons ts tss ih =>
    cases tss with
    | nil => rfl
    | cons us tss =>
      simp only [separated, List.map_cons, Sql.joined] at ih ⊢
      rw [← ih]
      simp [spelled, hsep, Sql.ofText]

end Symbol

namespace Formula

variable {α : Type}

theorem atoms_all (φs : List (Formula α)) : (all φs).atoms = φs.flatMap atoms := by
  induction φs with
  | nil => rfl
  | cons φ φs ih => simp [all, atoms, ih]

theorem atoms_any (φs : List (Formula α)) : (any φs).atoms = φs.flatMap atoms := by
  induction φs with
  | nil => rfl
  | cons φ φs ih => simp [any, atoms, ih]

theorem mem_atoms_ofSet {kind : SetKind} {φs : List (Formula α)} {φ : Formula α} {a : α}
    (hφ : φ ∈ φs) (ha : a ∈ φ.atoms) : a ∈ (ofSet kind φs).atoms := by
  have hmem : a ∈ φs.flatMap atoms := List.mem_flatMap.mpr ⟨φ, hφ, ha⟩
  have hne : φs.isEmpty = false := by simpa using List.ne_nil_of_mem hφ
  unfold ofSet
  rw [hne, if_neg (by simp)]
  split
  · rw [atoms_any]
    exact hmem
  · rw [atoms_all]
    exact hmem

theorem same_ofSet_and {kind : SetKind} (hkind : kind ≠ .or) (φs : List (Formula α)) :
    (all φs).Same (ofSet kind φs) := by
  intro v
  cases φs with
  | nil => rfl
  | cons φ φs => simp [ofSet, hkind]

end Formula

section Meaning

open Render Formula QueryTree.Symbol

variable (frag : FragmentRenderer) (ctx : Context)

-- What a rendering says for a formula: without text the formula holds, and with text it is read
-- as a formula of the same truth.
def Says (pos : Position) (φ : Formula (Expr × Output)) (s : Sql) : Prop :=
  (s.isBlank = true ∧ ∀ v, φ.eval v = .yes) ∨
  (s.isBlank = false ∧ ∃ ts, spelled (leafText frag ctx) ts = s ∧
    if pos = .enclosed then IsWhole ts φ else IsOperand ts φ)

def HasWords (φ : Formula (Expr × Output)) : Prop :=
  ∀ a ∈ φ.atoms, (leafText frag ctx a).isBlank = false

variable {frag ctx} {pos : Position} {φ ψ : Formula (Expr × Output)} {s : Sql} {out : Output}

theorem Says.of_operand (ts : List (Symbol (Expr × Output)))
    (hts : spelled (leafText frag ctx) ts = s) (hs : s.isBlank = false) (h : IsOperand ts φ) :
    Says frag ctx pos φ s := by
  refine .inr ⟨hs, ts, hts, ?_⟩
  split
  · exact h.isWhole
  · exact h

theorem says_const (b : Bool) (hsame : (Formula.const b).Same φ) :
    Says frag ctx pos φ (Sql.ofText (if b then "1=1" else "0=1")) := by
  refine .of_operand [.const b] rfl ?_ ((isOperand_const b).of_same hsame)
  cases b <;> decide

theorem Says.negated (h : Says frag ctx .enclosed φ s) :
    Says frag ctx pos (.not φ) (negation "NOT" s) := by
  unfold negation
  rcases h with ⟨hblank, hφ⟩ | ⟨hword, ts, rfl, hwhole⟩
  · rw [if_pos hblank]
    refine says_const false fun v => ?_
    simp [eval, hφ v, Truth.not, Truth.ofBool]
  · rw [if_pos rfl] at hwhole
    rw [hword, if_neg (by simp), ← spelled_enclosed]
    exact .of_operand _ rfl rfl hwhole.enclosed.negated

theorem says_leaf {leaf : Expr} (hpos : expr frag ctx pos leaf = expr frag ctx .condition leaf)
    (hwords : HasWords frag ctx (.atom (leaf, out))) :
    Yields (expr frag ctx pos leaf) out fun s _ => Says frag ctx pos (.atom (leaf, out)) s := by
  intro s out' hrun
  have htext : leafText frag ctx (leaf, out) = s := by
    rw [hpos] at hrun
    simp only [leafText, hrun]
  have hblank := hwords (leaf, out) List.mem_cons_self
  refine .of_operand [.atom (leaf, out)] ?_ (htext ▸ hblank) (isOperand_atom _)
  simp only [spelled, List.flatMap_cons, List.flatMap_nil, List.append_nil, sql, htext]

-- The conditions of a set: those with text, in their order, and whether one had none.
structure Gathered (frag : FragmentRenderer) (ctx : Context)
    (φs : List (Formula (Expr × Output))) (p : List Sql × Bool)
    (parts : List (List (Symbol (Expr × Output)) × Formula (Expr × Output))) : Prop where
  texts : p.1 = parts.map fun q => spelled (leafText frag ctx) q.1
  words : ∀ s ∈ p.1, s.isBlank = false
  operands : ∀ q ∈ parts, IsOperand q.1 q.2
  all : (Formula.all φs).Same (Formula.all (parts.map (·.2)))
  complete : p.2 = false → φs = parts.map (·.2)
  vacuous : p.2 = true → φs ≠ [] ∧ ∀ v, (Formula.any φs).eval v = .yes

theorem gathered_conditions {es : List Expr}
    (h : ∀ e ∈ es, ∀ out, HasWords frag ctx (e.formula frag ctx out) →
      Yields (expr frag ctx .condition e) out fun s _ =>
        Says frag ctx .condition (e.formula frag ctx out) s)
    (hwords : ∀ φ ∈ Expr.formulas frag ctx out es, HasWords frag ctx φ) :
    Yields (conditions frag ctx es) out fun p _ =>
      ∃ parts, Gathered frag ctx (Expr.formulas frag ctx out es) p parts := by
  induction es generalizing out with
  | nil =>
    simp only [conditions, yields_pure]
    exact ⟨[], rfl, by simp, by simp, fun _ => rfl, fun _ => rfl, by simp⟩
  | cons e es ih =>
    obtain ⟨he, hes⟩ := List.forall_mem_cons.mp h
    simp only [conditions, yields_bind, yields_pure]
    intro s out₁ hrun p out₂ hrest
    have hafter : after (expr frag ctx .condition e) out = out₁ := by simp only [after, hrun]
    simp only [Expr.formulas, hafter] at hwords ⊢
    obtain ⟨hhead, htail⟩ := List.forall_mem_cons.mp hwords
    obtain ⟨parts, hg⟩ := ih hes htail p out₂ hrest
    rcases he out hhead s out₁ hrun with ⟨hblank, htrue⟩ | ⟨hword, ts, hts, hsays⟩
    · -- A condition without text holds: a conjunction can do without it, a disjunction holds.
      rw [if_pos hblank]
      refine ⟨parts, hg.texts, hg.words, hg.operands, fun v => ?_, by simp, fun _ => ?_⟩
      · simp only [Formula.all, eval, htrue v, Truth.yes_and]
        exact hg.all v
      · refine ⟨by simp, fun v => ?_⟩
        simp only [Formula.any, eval, htrue v, Truth.yes_or]
    · rw [hword, if_neg (by simp)]
      refine ⟨(ts, e.formula frag ctx out) :: parts, ?_, ?_, ?_, fun v => ?_, fun hp => ?_,
        fun hp => ?_⟩
      · simp only [List.map_cons, hts, hg.texts]
      · exact List.forall_mem_cons.mpr ⟨hword, hg.words⟩
      · exact List.forall_mem_cons.mpr ⟨by simpa using hsays, hg.operands⟩
      · simp only [List.map_cons, Formula.all, eval, hg.all v]
      · rw [List.map_cons, hg.complete hp]
      · refine ⟨by simp, fun v => ?_⟩
        simp only [Formula.any, eval, (hg.vacuous hp).2 v, Truth.or_yes]

section Sets

variable {φs : List (Formula (Expr × Output))} {ss : List Sql} {vacuous : Bool}
  {parts : List (List (Symbol (Expr × Output)) × Formula (Expr × Output))} {kind : SetKind}
  (hg : Gathered frag ctx φs (ss, vacuous) parts) (hkind : (vacuous && kind == .or) = false)
include hg hkind

theorem Gathered.same (hne : parts ≠ []) :
    (if kind == .or then Formula.any (parts.map (·.2)) else Formula.all (parts.map (·.2))).Same
      (ofSet kind φs) := by
  intro v
  cases hor : kind == .or with
  | true =>
    obtain rfl : φs = parts.map (·.2) := hg.complete (by simpa [hor] using hkind)
    simp [ofSet, hor, hne]
  | false =>
    have hkind : kind ≠ .or := by simpa using hor
    exact (hg.all v).symm.trans (same_ofSet_and hkind φs v)

theorem Gathered.holds (hss : ss = []) (v : Expr × Output → Truth) :
    (ofSet kind φs).eval v = .yes := by
  obtain rfl : parts = [] := by simpa [hss] using hg.texts.symm
  cases hor : kind == .or with
  | true =>
    obtain rfl : φs = [] := hg.complete (by simpa [hor] using hkind)
    rfl
  | false =>
    have hne : kind ≠ .or := by simpa using hor
    rw [← same_ofSet_and hne φs v, hg.all v]
    rfl

theorem Gathered.single {s : Sql} (hss : ss = [s]) : Says frag ctx pos (ofSet kind φs) s := by
  obtain ⟨q, rfl, hq⟩ : ∃ q, parts = [q] ∧ spelled (leafText frag ctx) q.1 = s := by
    obtain ⟨q, rest, rfl, hq, hrest⟩ := List.map_eq_cons_iff.mp (hg.texts.symm.trans hss)
    exact ⟨q, by simpa using hrest, hq⟩
  have hword : s.isBlank = false := hg.words s (by simp [hss])
  refine .of_operand q.1 hq hword ((hg.operands q List.mem_cons_self).of_same fun v => ?_)
  rw [← hg.same hkind (by simp) v]
  split
  · exact (eval_any_singleton v q.2).symm
  · exact (eval_all_singleton v q.2).symm

theorem Gathered.joined (hss : ss ≠ []) :
    ∃ ts, spelled (leafText frag ctx) ts = joinConditions kind ss ∧
      IsWhole ts (ofSet kind φs) := by
  have hne : parts ≠ [] := by
    rintro rfl
    exact hss hg.texts
  have hsame := hg.same hkind hne
  have htexts : ss = (parts.map (·.1)).map (spelled (leafText frag ctx)) := by
    rw [List.map_map]
    exact hg.texts
  unfold joinConditions
  cases hor : kind == .or with
  | true =>
    refine ⟨separated .or (parts.map (·.1)), ?_, fun ls => ?_⟩
    · rw [htexts]
      exact spelled_separated _ _ " OR " rfl _
    · obtain ⟨l, hl, hread⟩ := read_disjunction hne hg.operands [] ls
      rw [hor, if_pos rfl] at hsame
      exact ⟨l, fun v => (hl v).trans (hsame v), hread⟩
  | false =>
    refine ⟨separated .and (parts.map (·.1)), ?_, fun ls => ?_⟩
    · rw [htexts]
      exact spelled_separated _ _ " AND " rfl _
    · obtain ⟨l, hl, hread⟩ := read_conjunction hne hg.operands [] ls
      rw [hor, if_neg (by simp)] at hsame
      exact ⟨l, fun v => (hl v).trans (hsame v), hread⟩

end Sets

theorem isBlank_joinConditions (kind : SetKind) {ss : List Sql} (hne : ss ≠ [])
    (hss : ∀ s ∈ ss, s.isBlank = false) : (joinConditions kind ss).isBlank = false := by
  unfold joinConditions
  cases ss with
  | nil => exact absurd rfl hne
  | cons s rest =>
    have hs := hss s List.mem_cons_self
    cases rest with
    | nil => exact hs
    | cons r rest =>
      change Sql.isBlank (s ++ .text _ :: Sql.joined _ (r :: rest)) = false
      rw [Sql.isBlank, List.all_append]
      exact Bool.and_eq_false_imp.mpr fun h => absurd (h.symm.trans hs) (by simp)

theorem says_combined {kind : SetKind} {items : List Expr}
    (h : ∀ e ∈ items, ∀ out, HasWords frag ctx (e.formula frag ctx out) →
      Yields (expr frag ctx .condition e) out fun s _ =>
        Says frag ctx .condition (e.formula frag ctx out) s)
    (hwords : HasWords frag ctx (ofSet kind (Expr.formulas frag ctx out items))) :
    Yields (combined pos kind (conditions frag ctx items)) out fun s _ =>
      Says frag ctx pos (ofSet kind (Expr.formulas frag ctx out items)) s := by
  simp only [combined, yields_bind, yields_paramCount]
  refine (gathered_conditions h fun φ hφ a ha => hwords a (mem_atoms_ofSet hφ ha)).mono ?_
  rintro ⟨ss, vacuous⟩ out' ⟨parts, hg⟩
  simp only
  split
  · -- A disjunct without text holds, and so does the disjunction.
    next hvacuous =>
    obtain ⟨hv, hor⟩ := Bool.and_eq_true_iff.mp hvacuous
    obtain ⟨hne, hyes⟩ := hg.vacuous hv
    simp only [yields_bind, yields_release, yields_pure]
    refine .inl ⟨rfl, fun v => ?_⟩
    simpa [ofSet, hne, hor] using hyes v
  · next hkind =>
    rw [Bool.not_eq_true] at hkind
    split
    · rw [yields_pure]
      exact .inl ⟨rfl, hg.holds hkind rfl⟩
    · rw [yields_pure]
      exact hg.single hkind rfl
    · next hempty _ =>
      rw [yields_pure]
      obtain ⟨ts, hts, hwhole⟩ := hg.joined hkind hempty
      have hword := isBlank_joinConditions kind hempty hg.words
      split
      · next hpos =>
        have hpos : pos = .enclosed := by simpa using hpos
        exact .inr ⟨hword, ts, hts, by rw [if_pos hpos]; exact hwhole⟩
      · rw [← hts, ← spelled_enclosed]
        exact .of_operand _ rfl rfl hwhole.enclosed

theorem Says.of_condition (h : Says frag ctx .condition φ s) : Says frag ctx pos φ s := by
  rcases h with hblank | ⟨hword, ts, hts, hoperand⟩
  · exact .inl hblank
  · exact .of_operand ts hts hword (by simpa using hoperand)

theorem says_membership {op : LogicOp} {l r : Expr}
    (hop : op.positive = .isIn) (hmembers : lacksMembers frag ctx out l r = true) :
    Yields (expr frag ctx pos (.compare op l r)) out fun s _ =>
      Says frag ctx pos (.const op.isNegated) s := by
  have hequal : (op.positive == .equal) = false := by rw [hop]; decide
  have hin : (op.positive == .isIn) = true := by rw [hop]; decide
  simp only [expr, hequal, hin, Bool.false_and, Bool.false_eq_true, if_false, if_true, yields_ite,
    yields_unsupported, implies_true, true_and, membership, yields_bind, yields_paramCount]
  intro _ left out₁ hl right out₂ hr
  have hblank : right.isBlank = true := by
    simpa only [lacksMembers, after, hl, hr] using hmembers
  refine ⟨fun _ => ?_, fun h => absurd hblank h⟩
  simp only [yields_release, yields_pure]
  cases op.isNegated with
  | true => exact .inl ⟨rfl, fun _ => rfl⟩
  | false => exact says_const false fun _ => rfl

theorem says_expr {g : Engine} (hctx : ctx.dialect = g.dialect) (e : Expr) {pos : Position}
    (hpos : pos ≠ .operand) (out : Output) (hwords : HasWords frag ctx (e.formula frag ctx out)) :
    Yields (expr frag ctx pos e) out fun s _ => Says frag ctx pos (e.formula frag ctx out) s := by
  induction e generalizing pos out with
  | value v const =>
    have hcondition : ∀ p : Position, p ≠ .operand →
        expr frag ctx p (.value v const) = condition ctx v const := by
      intro p hp
      simp [expr, hp]
    have hleaf : expr frag ctx pos (.value v const) =
        expr frag ctx .condition (.value v const) := by
      rw [hcondition pos hpos, hcondition .condition (by simp)]
    cases v with
    | null =>
      rw [hcondition pos hpos]
      exact yields_pure.mpr (.inl ⟨rfl, fun _ => rfl⟩)
    | bool b =>
      cases const with
      | true =>
        rw [hcondition pos hpos]
        cases b with
        | true => exact yields_pure.mpr (says_const true fun _ => rfl)
        | false => exact yields_pure.mpr (says_const false fun _ => rfl)
      | false => exact says_leaf hleaf hwords
    | _ => exact says_leaf hleaf hwords
  | property owner name | call name args ih =>
    refine says_leaf ?_ hwords
    simp [expr, standing, hpos]
  | unary op x ih =>
    simp only [Expr.formula] at hwords ⊢
    split at hwords
    · next hnot =>
      have hkeyword : ctx.dialect.unaryKeyword .not = some "NOT" := by
        rw [hctx]
        cases g <;> rfl
      simp only [expr, hnot, if_true, negated, hkeyword, yields_bind, yields_pure]
      exact (ih (by simp) out hwords).mono fun s _ hs => hs.negated
    · next hnot =>
      split at hwords
      · next hidentity =>
        simp only [expr, hnot, hidentity, if_true, if_false, beq_iff_eq, hpos]
        exact (ih (by simp) out hwords).mono fun s _ hs => hs.of_condition
      · next hidentity =>
        simp only [hnot, hidentity, Bool.false_eq_true, if_false]
        refine says_leaf ?_ hwords
        simp only [expr, hnot, hidentity, Bool.false_eq_true, if_false]
  | compare op l r _ _ =>
    simp only [Expr.formula] at hwords ⊢
    split at hwords
    · next hmembers =>
      obtain ⟨hop, hlacks⟩ := Bool.and_eq_true_iff.mp hmembers
      rw [if_pos hmembers]
      exact says_membership (by simpa using hop) hlacks
    · next hmembers =>
      rw [if_neg hmembers]
      exact says_leaf rfl hwords
  | set kind items ih =>
    simp only [Expr.formula] at hwords ⊢
    split at hwords
    · next hlogical =>
      simp only [expr, hlogical, if_true]
      exact says_combined (fun e he out hout => ih e he (by simp) out hout) hwords
    · next hlogical =>
      rw [if_neg hlogical]
      refine says_leaf ?_ hwords
      simp only [expr, hlogical, Bool.false_eq_true, if_false]
  | _ => exact says_leaf rfl hwords

end Meaning

-- The text of a condition is empty only where the condition holds for every row; otherwise it is
-- read, with its leaves as atoms, as a formula that says what the condition says.
theorem condition_keeps_meaning (g : Engine) (frag : FragmentRenderer) (ctx : Context)
    (hctx : ctx.dialect = g.dialect) (e : Expr) (out out' : Output) (s : Sql)
    (hrun : Render.expr frag ctx .condition e out = .ok (s, out'))
    (hwords : ∀ leaf ∈ (e.formula frag ctx out).atoms,
      g.dialect.text (Render.leafText frag ctx leaf) ≠ "") :
    (g.dialect.text s = "" → ∀ v, (e.formula frag ctx out).eval v = .yes) ∧
    (g.dialect.text s ≠ "" → ∃ ts φ, Symbol.spelled (Render.leafText frag ctx) ts = s ∧
      Symbol.parse ts = some φ ∧ ∀ v, φ.eval v = (e.formula frag ctx out).eval v) := by
  have hleaves : HasWords frag ctx (e.formula frag ctx out) := by
    intro leaf hleaf
    have htext := hwords leaf hleaf
    rw [ne_eq, g.text_eq_empty_iff] at htext
    simpa using htext
  have hsays := says_expr hctx e (by simp) out hleaves s out' hrun
  rw [ne_eq, g.text_eq_empty_iff]
  rcases hsays with ⟨hblank, hyes⟩ | ⟨hword, ts, hts, hoperand⟩
  · exact ⟨fun _ => hyes, fun h => absurd hblank h⟩
  · refine ⟨fun h => ?_, fun _ => ?_⟩
    · rw [hword] at h
      cases h
    · rw [if_neg (by simp)] at hoperand
      obtain ⟨φ, hparse, hsame⟩ := hoperand.isWhole.parse
      exact ⟨ts, φ, hts, hparse, hsame⟩

-- A test without members is dropped, and the negated set keeps its parentheses.
theorem condition_keeps_meaning_nested :
    ∃ (frag : FragmentRenderer) (ctx : Context) (e : Expr) (out : Output) (s : Sql),
      ctx.dialect = (Engine.postgres '/').dialect ∧
      Render.expr frag ctx .condition e {} = .ok (s, out) ∧
      ctx.dialect.text s = "(NOT (\"a\" OR \"b\") AND (\"c\" OR 0=1))" ∧
      ∃ ts φ, Symbol.spelled (Render.leafText frag ctx) ts = s ∧ Symbol.parse ts = some φ ∧
        ∀ v, φ.eval v = (e.formula frag ctx {}).eval v := by
  let g : Engine := .postgres '/'
  let resolver : Resolver :=
    ⟨fun _ => .ok "t", fun _ name => .ok ⟨name, "", false⟩, fun _ _ => .error (.noFunction "")⟩
  let frag : FragmentRenderer := fun _ _ _ => Render.fail (.noFunction "")
  let ctx : Context := ⟨g.dialect, resolver, { object := "Row", table := "t" }, [], 0⟩
  let a : Expr := .property "" "a"
  let b : Expr := .property "" "b"
  let c : Expr := .property "" "c"
  let e : Expr := .set .and [.unary .not (.set .or [a, b]),
    .compare .notIn c (.value (.items []) false),
    .unary .identity (.set .or [c, .value (.bool false) true])]
  obtain ⟨s, out, hrun, htext⟩ : ∃ s out, Render.expr frag ctx .condition e {} = .ok (s, out) ∧
      g.dialect.text s = "(NOT (\"a\" OR \"b\") AND (\"c\" OR 0=1))" := by
    refine ⟨_, _, rfl, ?_⟩
    decide +kernel
  have hwords : ∀ leaf ∈ (e.formula frag ctx {}).atoms,
      g.dialect.text (Render.leafText frag ctx leaf) ≠ "" := by
    have hatoms : (e.formula frag ctx {}).atoms = [(a, {}), (b, {}), (c, {})] := rfl
    have ha : g.dialect.text (Render.leafText frag ctx (a, {})) = "\"a\"" := by decide +kernel
    have hb : g.dialect.text (Render.leafText frag ctx (b, {})) = "\"b\"" := by decide +kernel
    have hc : g.dialect.text (Render.leafText frag ctx (c, {})) = "\"c\"" := by decide +kernel
    rw [hatoms]
    simp [ha, hb, hc]
  have hmeaning := (condition_keeps_meaning g frag ctx rfl e {} out s hrun hwords).2
  exact ⟨frag, ctx, e, out, s, rfl, hrun, htext, hmeaning (by rw [htext]; decide)⟩

end QueryTree
