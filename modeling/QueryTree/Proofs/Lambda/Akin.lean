import QueryTree.Lambda.Eval
import QueryTree.Proofs.Expr.Form
import QueryTree.Proofs.Sql.Outcome

namespace QueryTree

section Both

variable {ε α β γ δ : Type} {R : α → β → Prop} {S : γ → δ → Prop} {x : Except ε α} {y : Except ε β}

-- What two computations give is related, if both give something.
def Both (R : α → β → Prop) (x : Except ε α) (y : Except ε β) : Prop :=
  ∀ a b, x = .ok a → y = .ok b → R a b

namespace Both

theorem ok {a : α} {b : β} (h : R a b) : Both R (.ok a : Except ε α) (.ok b : Except ε β) := by
  intro a' b' ha hb
  cases ha
  cases hb
  exact h

theorem error_left {e : ε} : Both R (.error e) y := by
  intro a b ha
  cases ha

theorem error_right {e : ε} : Both R x (.error e) := by
  intro a b _ hb
  cases hb

theorem bind {f : α → Except ε γ} {g : β → Except ε δ} (h : Both R x y)
    (hfg : ∀ a b, R a b → Both S (f a) (g b)) : Both S (x >>= f) (y >>= g) := by
  intro c d hc hd
  obtain ⟨a, ha, hc⟩ := Compilation.bind_ok hc
  obtain ⟨b, hb, hd⟩ := Compilation.bind_ok hd
  exact hfg a b (h a b ha hb) c d hc hd

theorem map {f : α → γ} {g : β → δ} (h : Both R x y) (hfg : ∀ a b, R a b → S (f a) (g b)) :
    Both S (x.map f) (y.map g) := by
  cases x with
  | error e => exact error_left
  | ok a =>
    cases y with
    | error e => exact error_right
    | ok b => exact ok (hfg a b (h a b rfl rfl))

theorem same {R : α → α → Prop} (h : ∀ a, R a a) : Both R x x := by
  intro a b ha hb
  cases ha.symm.trans hb
  exact h a

end Both
end Both

-- Functions of one type that give results of one form for arguments of one form.
structure HostFunction.Akin (f g : HostFunction) : Prop where
  params : f.params = g.params
  variadic : f.variadic = g.variadic
  results : f.results = g.results
  run : ∀ {args args' : List Operand} {a b : Operand}, List.Forall₂ Operand.Akin args args' →
    f.run args = .ok (some a) → g.run args' = .ok (some b) → a.Akin b

-- A method is uniform when the form of its results is told by the forms of receiver and arguments.
def Method.IsUniform (m : Method) : Prop :=
  ∀ v w : Value, v.Akin w → (m.boundTo v).Akin (m.boundTo w)

inductive Host.Akin : Host → Host → Prop
  | value {v w : Value} (h : v.Akin w) : Akin (.value v) (.value w)
  | expr {d e : Expr} (h : d.form = e.form) : Akin (.expr d) (.expr e)
  | func {f g : HostFunction} (h : f.Akin g) : Akin (.func f) (.func g)

namespace Host

variable {world : World}

theorem Akin.ty? {g h : Host} (hgh : Akin g h) : g.ty? = h.ty? := by
  cases hgh with
  | value h => exact h.ty?
  | @expr d e h =>
    have hkind : d.kindName = e.kindName := by
      rw [← Expr.kindName_form, h, Expr.kindName_form]
    simp only [Host.ty?, exprTy, hkind]
  | func h => simp only [Host.ty?, HostFunction.ty, h.params, h.variadic, h.results]

theorem Akin.ofOperand {a b : Operand} (h : Operand.Akin a b) :
    Akin (ofOperand a) (ofOperand b) := by
  cases h with
  | value h => exact .value h
  | expr h => exact .expr h

theorem Akin.assign {g h : Host} (hgh : Akin g h) (world : World) (t : Ty) :
    Both Operand.Akin (g.assign world t) (h.assign world t) := by
  cases hgh with
  | @value v w hvw =>
    simp only [Host.assign]
    split
    case h_2 => exact Both.error_left
    case h_1 a ha =>
      split
      case h_2 => exact Both.error_right
      case h_1 b hb => exact Both.ok (.value (hvw.assign? ha hb))
  | expr he =>
    simp only [Host.assign]
    split
    · exact Both.ok (.expr he)
    · exact Both.error_left
  | func => exact Both.error_left

section Members

theorem mem_methodOf? {t : Option Ty} {name : String} {onPointer : Bool} {m : Method}
    (h : world.methodOf? t name onPointer = some m) : m ∈ world.methods := by
  unfold World.methodOf? at h
  split at h
  · exact List.mem_of_find?_eq_some h
  · cases h

theorem rel_map_method {o : Option Method} {F G : Method → HostFunction}
    (h : ∀ m, o = some m → (F m).Akin (G m)) :
    Option.Rel HostFunction.Akin (o.map F) (o.map G) := by
  cases o with
  | none => exact .none
  | some m => exact .some (h m rfl)

theorem unbound_akin (m : Method) : m.unbound.Akin m.unbound where
  params := rfl
  variadic := rfl
  results := rfl
  run := by
    intro args args' a b _ ha
    cases ha

theorem method?_simple (world : World) {v : Value} (h : v.isSimple = true) (name : String) :
    (∃ t, v = .nilPointer t) ∨
      method? world v name = (world.methodOf? v.ty? name false).map (·.boundTo v) := by
  cases v with
  | nilPointer t => exact .inl ⟨t, rfl⟩
  | pointer => cases h
  | _ => exact .inr rfl

theorem eq_of_simple_nilPointer {t : Ty} {w : Value} (hw : w.isSimple = true)
    (ht : (Value.nilPointer t).ty? = w.ty?) : w = .nilPointer t := by
  cases w with
  | nilPointer u =>
    cases ht
    rfl
  | pointer | node => cases hw
  | _ => cases ht

variable (huniform : ∀ m ∈ world.methods, m.IsUniform)

include huniform

theorem method?_akin {v w : Value} (h : v.Akin w) (name : String) :
    Option.Rel HostFunction.Akin (method? world v name) (method? world w name) := by
  have hbound : ∀ {v w : Value} {t : Option Ty} {onPointer : Bool}, v.Akin w →
      Option.Rel HostFunction.Akin ((world.methodOf? t name onPointer).map (·.boundTo v))
        ((world.methodOf? t name onPointer).map (·.boundTo w)) :=
    fun hvw => rel_map_method fun m hm => huniform m (mem_methodOf? hm) _ _ hvw
  have hself : ∀ v, Option.Rel HostFunction.Akin (method? world v name) (method? world v name) := by
    intro v
    unfold method?
    split
    · exact hbound (.refl _)
    · exact rel_map_method fun m _ => unbound_akin m
    · exact hbound (.refl _)
  cases h with
  | refl => exact hself v
  | simple hv hw ht =>
    obtain ⟨t, rfl⟩ | hmv := method?_simple world hv name
    · rw [eq_of_simple_nilPointer hw ht]
      exact hself _
    · obtain ⟨t, rfl⟩ | hmw := method?_simple world hw name
      · rw [eq_of_simple_nilPointer hv ht.symm]
        exact hself _
      · rw [hmv, hmw, ← ht]
        exact hbound (.simple hv hw ht)
  | named type h => exact hbound (.named type h)
  | pointer h =>
    simp only [method?, ← h.ty?]
    exact hbound h

omit huniform

theorem behind_akin {v w : Value} (h : v.Akin w) : Both Value.Akin (behind v) (behind w) := by
  have hsimple : ∀ {v : Value}, v.isSimple = true → ∀ a, behind v = .ok a → a = v := by
    intro v hv a ha
    cases v with
    | pointer => cases hv
    | nilPointer => cases ha
    | _ =>
      cases ha
      rfl
  induction h with
  | refl v => exact Both.same .refl
  | @simple v w hv hw ht =>
    intro a b ha hb
    cases hsimple hv a ha
    cases hsimple hw b hb
    exact .simple hv hw ht
  | named type h => exact Both.ok (.named type h)
  | pointer _ ih => exact ih

-- Only records and maps have members, and they are alike only when they are the same.
theorem memberOf_akin {v w : Value} (h : v.Akin w) (name : String) :
    Both Value.Akin (memberOf v name) (memberOf w name) := by
  cases h with
  | refl => exact Both.same .refl
  | simple hv =>
    cases v with
    | record | map => cases hv
    | _ => exact Both.error_left
  | named | pointer => exact Both.error_left

end Members

section Expressions

theorem textFunction_akin (s t : String) : (textFunction s).Akin (textFunction t) where
  params := rfl
  variadic := rfl
  results := rfl
  run := by
    intro args args' a b _ ha hb
    cases ha
    cases hb
    exact .value (.simple rfl rfl rfl)

theorem exprFunction_akin {params : List Ty} {variadic : Bool} {f g : List Operand → Option Expr}
    (h : ∀ {args args' d e}, List.Forall₂ Operand.Akin args args' → f args = some d →
      g args' = some e → d.form = e.form) :
    (exprFunction params variadic f).Akin (exprFunction params variadic g) where
  params := rfl
  variadic := rfl
  results := rfl
  run := by
    intro args args' a b hargs ha hb
    simp only [exprFunction] at ha hb
    split at ha
    case h_2 => cases ha
    case h_1 d hd =>
      split at hb
      case h_2 => cases hb
      case h_1 e he =>
        cases ha
        cases hb
        exact .expr (h hargs hd he)

theorem exprFunction1_akin {f g : Operand → Expr}
    (h : ∀ {a b : Operand}, a.Akin b → (f a).form = (g b).form) :
    (exprFunction1 f).Akin (exprFunction1 g) := by
  refine exprFunction_akin fun hargs hd he => ?_
  cases hargs with
  | nil => cases hd
  | cons ha hrest =>
    cases hrest with
    | nil =>
      cases hd
      cases he
      exact h ha
    | cons => cases hd

theorem compareWith_akin (op : LogicOp) {d e : Expr} (h : d.form = e.form) :
    (exprFunction1 (Expr.compareWith op d)).Akin (exprFunction1 (Expr.compareWith op e)) := by
  refine exprFunction1_akin fun hab => ?_
  simp only [Expr.compareWith, Expr.form_compare, h, hab.toExpr]

theorem propertyMethod?_akin (p : Expr) (name : String) :
    Option.Rel HostFunction.Akin (propertyMethod? p name) (propertyMethod? p name) := by
  have hcompute : ∀ op, (exprFunction1 (Expr.computeWith op (.expr p))).Akin
      (exprFunction1 (Expr.computeWith op (.expr p))) := by
    intro op
    refine exprFunction1_akin fun hab => ?_
    simp only [Expr.computeWith, Expr.form_compute, hab.toExpr]
  unfold propertyMethod?
  split
  case h_1 | h_2 =>
    refine .some (exprFunction_akin fun hargs hd he => ?_)
    cases hd
    cases he
    simp only [Expr.isIn, Expr.notIn, Expr.form_compare, Expr.form_members hargs]
  case h_3 | h_4 =>
    refine .some (exprFunction_akin fun _ hd he => ?_)
    cases hd
    cases he
    rfl
  case h_5 =>
    refine .some (exprFunction_akin fun hargs hd he => ?_)
    cases hargs with
    | nil => cases hd
    | cons ha hrest =>
      cases hrest with
      | nil => cases hd
      | cons hb hrest =>
        cases hrest with
        | nil =>
          cases hd
          cases he
          simp [Expr.between, Expr.and, Expr.compareWith, ha.toExpr, hb.toExpr]
        | cons => cases hd
  case h_6 | h_7 | h_8 => exact .some (hcompute _)
  case h_9 => exact .none

theorem exprMethod?_akin {d e : Expr} (h : d.form = e.form) (name : String) :
    Option.Rel HostFunction.Akin (exprMethod? d name) (exprMethod? e name) := by
  have hcomparable : d.isComparable = e.isComparable := by
    rw [← Expr.isComparable_form, h, Expr.isComparable_form]
  unfold exprMethod?
  rw [hcomparable]
  split
  case isTrue => exact .some (textFunction_akin _ _)
  case isFalse =>
    split
    case h_1 op _ =>
      split
      · exact .some (compareWith_akin op h)
      · exact .none
    case h_2 =>
      split
      case h_1 owner n =>
        rw [Expr.property_of_form h]
        dsimp only
        split
        · exact .some (textFunction_akin _ _)
        · split
          · exact .some (compareWith_akin _ rfl)
          · exact propertyMethod?_akin _ name
      case h_2 hd =>
        split
        case h_1 owner n => exact absurd (Expr.property_of_form h.symm) (hd owner n)
        case h_2 => exact .none

end Expressions

theorem member_value_ok {v : Value} {name : String} {r : Host}
    (h : (Host.value v).member world name = .ok r) :
    (∃ f, method? world v name = some f ∧ r = .func f) ∨
      method? world v name = none ∧
        ∃ u a, behind v = .ok u ∧ memberOf u name = .ok a ∧ r = .value a := by
  unfold Host.member at h
  split at h
  case h_1 => cases h
  case h_2 u _ huv =>
    cases huv
    split at h
    case h_1 f hf =>
      cases h
      exact .inl ⟨f, hf, rfl⟩
    case h_2 hnone =>
      split at h
      case h_1 => cases h
      case h_2 u hu =>
        cases ha : memberOf u name with
        | error e =>
          rw [ha] at h
          cases h
        | ok a =>
          rw [ha] at h
          cases h
          exact .inr ⟨hnone, u, a, hu, ha, rfl⟩
  case h_3 => contradiction
  case h_4 => contradiction

theorem member_expr_ok {e : Expr} {name : String} {r : Host}
    (h : (Host.expr e).member world name = .ok r) :
    (∃ f, exprMethod? e name = some f ∧ r = .func f) ∨
      exprMethod? e name = none ∧ ∃ s, r = .value (.text s) := by
  simp only [Host.member] at h
  split at h
  case h_1 f hf =>
    cases h
    exact .inl ⟨f, hf, rfl⟩
  case h_2 owner n hf =>
    cases h
    exact .inr ⟨hf, owner, rfl⟩
  case h_3 owner n hf =>
    cases h
    exact .inr ⟨hf, n, rfl⟩
  case h_4 => cases h

-- A member of a host value, or its method, has the form of that of another one of its form.
theorem Akin.member (huniform : ∀ m ∈ world.methods, m.IsUniform) {g h : Host} (hgh : Akin g h)
    (name : String) : Both Akin (g.member world name) (h.member world name) := by
  intro r r' hr hr'
  cases hgh with
  | func => cases hr
  | @value v w h =>
    have hmethods := method?_akin huniform h name
    obtain ⟨f, hf, rfl⟩ | ⟨hf, u, a, hu, ha, rfl⟩ := member_value_ok hr <;>
      obtain ⟨g, hg, rfl⟩ | ⟨hg, u', b, hu', hb, rfl⟩ := member_value_ok hr' <;>
      rw [hf, hg] at hmethods
    · cases hmethods with
      | some h => exact .func h
    · cases hmethods
    · cases hmethods
    · have hbehind := behind_akin h u u' hu hu'
      exact .value (memberOf_akin hbehind name a b ha hb)
  | @expr d e h =>
    have hmethods := exprMethod?_akin h name
    obtain ⟨f, hf, rfl⟩ | ⟨hf, s, rfl⟩ := member_expr_ok hr <;>
      obtain ⟨g, hg, rfl⟩ | ⟨hg, t, rfl⟩ := member_expr_ok hr' <;>
      rw [hf, hg] at hmethods
    · cases hmethods with
      | some h => exact .func h
    · cases hmethods
    · cases hmethods
    · exact .value (.simple rfl rfl rfl)

end Host
end QueryTree
