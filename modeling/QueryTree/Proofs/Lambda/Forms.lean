import QueryTree.Proofs.Lambda.Agreement

namespace QueryTree.Lambda

-- Conversions that give expressions of one form, if both give one.
abbrev OneForm (x y : Except Error Expr) : Prop := Both (fun d e => d.form = e.form) x y

theorem both_of_alike {ε κ α β : Type} {type : ε → κ} {R : α → β → Prop} {w x : Except ε α}
    {y z : Except ε β} (hwx : Alike type w x) (hyz : Alike type y z) (h : Both R x y) :
    Both R w z := by
  obtain ⟨a, rfl, rfl⟩ | ⟨d, d', rfl, rfl, -⟩ := hwx.cases
  · obtain ⟨b, rfl, rfl⟩ | ⟨e, e', rfl, rfl, -⟩ := hyz.cases
    · exact h
    · exact Both.error_right
  · exact Both.error_left

section Handlers

theorem HandlerTable.mem_of_find? {α : Type} {table : HandlerTable α} {t : Option Ty}
    {name : String} {handler : α} (h : table.find? t name = some handler) :
    handler ∈ table.typed.map (·.2.2) ∨ handler ∈ table.named.map (·.2) := by
  obtain h | ⟨-, h⟩ := Option.or_eq_some_iff.mp h
  · obtain ⟨u, -, h⟩ := Option.bind_eq_some_iff.mp h
    obtain ⟨entry, hentry, rfl⟩ := Option.map_eq_some_iff.mp h
    exact .inl (List.mem_map_of_mem (List.mem_of_find?_eq_some hentry))
  · obtain ⟨p, hp, rfl⟩ := Scope.mem_of_lookup h
    exact .inr (List.mem_map_of_mem hp)

theorem comparison_uniform (op : LogicOp) : IsUniformHandler (Handlers.comparison op) := by
  intro r r' args args' hr hargs
  obtain _ | ⟨a, _ | _⟩ := args
  case cons.nil =>
    obtain _ | ⟨a', _ | _⟩ := args'
    case cons.nil =>
      obtain ⟨ha, -⟩ := List.cons.inj hargs
      exact Both.ok (by rw [Expr.form_compare, Expr.form_compare, hr, ha])
    all_goals exact Both.error_right
  all_goals exact Both.error_left

theorem standard_uniform {t : Option Ty} {name : String} {handler : MethodHandler}
    (h : Handlers.standard.methods.find? t name = some handler) : IsUniformHandler handler := by
  obtain h | h := HandlerTable.mem_of_find? h
  · simp only [Handlers.standard, List.map_cons, List.map_nil, List.mem_cons, List.not_mem_nil,
      or_false] at h
    obtain rfl | rfl | rfl | rfl := h
    case inr.inr.inr => exact fun r r' _ _ hr _ => Both.ok hr
    all_goals exact comparison_uniform _
  · cases h

theorem Converter.IsUniform.method? {c : Converter} (hc : c.IsUniform) {t : Option Ty}
    {name : String} {handler : MethodHandler} (h : c.handlers.method? t name = some handler) :
    IsUniformHandler handler := by
  obtain h | ⟨-, h⟩ := Option.or_eq_some_iff.mp h
  · exact hc.handlers t name handler h
  · exact standard_uniform h

end Handlers

namespace Scope

variable {sc : Scope} {env : List (String × Host)}

section Static

variable (henv : SameTypes sc.env env)

include henv

theorem depends_rebind (n : Node) : (sc.rebind env).depends n = sc.depends n :=
  ((sc.rebind env).depends_erased n).symm.trans (depends_recast henv.typedAlike n)

theorem isCompareCall_rebind (n : Node) :
    (sc.rebind env).isCompareCall n = sc.isCompareCall n :=
  (@isCompareCall_recast (sc.rebind env) _ (fun _ => rfl) n).symm.trans
    (isCompareCall_recast henv.typedAlike n)

theorem fits_form (huniform : sc.toConverter.IsUniform) : Link.form.Fits sc.toConverter env where
  types := henv.typedAlike
  unary _ _ := rfl
  compare _ _ _ := rfl
  compute _ _ _ := rfl
  call := Expr.form_call
  aggregate := Expr.form_aggregate
  join := Expr.form_join
  related := Expr.form_related
  isLogic := Expr.congr_of_form (fun _ _ _ _ => rfl) fun e _ => by cases e <;> rfl
  isStringy sc n _ _ := by
    have htext v const : sc.isStringy n (.value v const) = (v.ty? == some .text) := by
      cases v <;> rfl
    refine Expr.congr_of_form (fun v w const ht => ?_) fun e he => ?_
    · rw [htext, htext, ht]
    · cases e with
      | value v const => exact absurd rfl (he v const)
      | _ => rfl
  isPredicate sc n _ _ := by
    have hbool v const : sc.isPredicate n (.value v const) = (v.ty? == some .bool) := by
      cases v <;> rfl
    refine Expr.congr_of_form (fun v w const ht => ?_) fun e he => ?_
    · rw [hbool, hbool, ht]
    · cases e with
      | value v const => exact absurd rfl (he v const)
      | _ => rfl
  receiverType sc n _ _ := by
    refine Expr.congr_of_form (fun v w const ht => ?_) fun e he => ?_
    · simp only [receiverType, Value.isNull_eq, ht]
    · cases e with
      | value v const => exact absurd rfl (he v const)
      | _ => rfl
  handlers hm r r' args args' hr hargs :=
    Link.form_iff.mpr (huniform.method? hm r r' args args' hr hargs)

end Static

section Closed

variable {n : Node}

theorem evalResult_ok {r : Result} (h : sc.evalResult n = .ok r) : sc.eval false n = .ok r := by
  unfold evalResult at h
  split at h
  · cases h
    assumption
  · cases h

theorem fold_ok {e : Expr} (h : sc.fold n = .ok e) :
    ∃ r, sc.eval false n = .ok r ∧ (r.value = .expr e ∨ ∃ v, r.value = .value v ∧
      e = .value v (v.isNull || r.constant && v.isPrimitive)) := by
  obtain ⟨r, hr, h⟩ := Compilation.bind_ok h
  refine ⟨r, evalResult_ok hr, ?_⟩
  split at h
  case h_1 d hd =>
    cases h
    exact .inl hd
  case h_2 hv =>
    cases h
    exact .inr ⟨.null, hv, rfl⟩
  case h_3 v hnull hv =>
    cases h
    refine .inr ⟨v, hv, ?_⟩
    have hv : v.isNull = false := by
      cases v with
      | null => exact absurd rfl hnull
      | _ => rfl
    rw [hv, Bool.false_or]
  case h_4 => cases h

theorem oneForm_fold (h : Both Result.Akin (sc.eval false n) ((sc.rebind env).eval false n)) :
    OneForm (sc.fold n) ((sc.rebind env).fold n) := by
  intro d e hd he
  obtain ⟨r, hr, hd⟩ := fold_ok hd
  obtain ⟨s, hs, he⟩ := fold_ok he
  have hrs := h r s hr hs
  have hvalue := hrs.value
  obtain hd | ⟨v, hv, rfl⟩ := hd <;> obtain he | ⟨w, hw, rfl⟩ := he
  · rw [hd, he] at hvalue
    cases hvalue with
    | expr h => exact h
  · rw [hd, hw] at hvalue
    cases hvalue
  · rw [hv, he] at hvalue
    cases hvalue
  · rw [hv, hw] at hvalue
    cases hvalue with
    | value hvw =>
      cases hc : r.constant with
      | true =>
        have hsame := hrs.same hc
        rw [hv, hw] at hsame
        cases hsame
        rw [← hrs.constant, hc]
      | false =>
        rw [← hrs.constant, hc, Bool.false_and, Bool.false_and, Bool.or_false, Bool.or_false,
          ← Operand.toExpr_value, ← Operand.toExpr_value]
        exact (Operand.Akin.value hvw).toExpr

theorem eval_enclosed {enclosed : Bool} {r : Result} (h : sc.eval enclosed n = .ok r)
    (enclosed' : Bool) : sc.eval enclosed' n = .ok r := by
  cases n with
  | composite s type items =>
    obtain _ | t := type
    case none => cases h
    cases t with
    | arrayType => exact h
    | _ => cases h
  | call s fn args =>
    rw [eval.eq_def] at h ⊢
    exact h
  | pair | lambda | arrayType | other => cases h
  | _ => exact h

theorem convert_closed (hclosed : sc.depends n = false) (hparen : ∀ s x, n ≠ .paren s x) :
    sc.convert n = sc.fold n := by
  cases n with
  | paren s x => exact absurd rfl (hparen s x)
  | ident s name =>
    have hparam : sc.isParam name = false := hclosed
    simp [convert, hparam]
  | star s x =>
    have hx : sc.depends x = false := hclosed
    simp [convert, hx]
  | _ =>
    rw [convert.eq_def]
    simp [hclosed]

theorem eval_of_convert {e : Expr} (hclosed : sc.depends n = false) (h : sc.convert n = .ok e) :
    ∃ r, sc.eval false n = .ok r := by
  induction n using Node.unparen.induct with
  | case1 s x ih =>
    rw [convert] at h
    obtain ⟨r, hr⟩ := ih hclosed h
    exact ⟨r, eval_enclosed hr true⟩
  | case2 n hparen =>
    rw [convert_closed hclosed hparen] at h
    obtain ⟨r, hr, -⟩ := fold_ok h
    exact ⟨r, hr⟩

def isZeroNumber (h : Host) : Bool := (constant? h).any (·.1.isZero)

theorem isZero_of_depends {b : Bool} (hdepends : sc.depends n = true) (h : sc.isZero n = .ok b) :
    b = false := by
  rw [isZero, if_pos hdepends] at h
  cases h
  rfl

theorem isZero_of_eval {b : Bool} {r : Result} (hclosed : sc.depends n = false)
    (hr : sc.eval false n = .ok r) (h : sc.isZero n = .ok b) : b = isZeroNumber r.value := by
  rw [isZero, if_neg (by simp [hclosed]), hr] at h
  cases h
  rfl

theorem eval_of_isZero (h : sc.isZero n = .ok true) : ∃ r, sc.eval false n = .ok r := by
  unfold isZero at h
  split at h
  · cases h
  · split at h
    · cases h
    · cases h
    · exact ⟨_, ‹_›⟩

end Closed

end Scope

-- Calls of a method or function that compares two values.
def Node.isOrderCall : Node → Bool
  | .paren _ x => x.isOrderCall
  | .call _ (.selector _ _ name) _ => name == "Compare"
  | _ => false

namespace Scope

variable {sc : Scope} {env : List (String × Host)}

theorem isOrderCall_of_isCompareCall {n : Node} (h : sc.isCompareCall n = true) :
    n.isOrderCall = true := by
  induction n using isCompareCall.induct with
  | case1 _ x ih => exact ih h
  | case2 | case3 => rfl
  | case4 => simp [isCompareCall] at h

-- Both evaluations find zero, or neither does.
def ZerosAgree (sc : Scope) (env : List (String × Host)) (n : Node) : Prop :=
  Both (fun r s => isZeroNumber r.value = isZeroNumber s.value) (sc.eval false n)
    ((sc.rebind env).eval false n)

-- The conditions under which the form of a conversion does not turn on the values of variables.
-- What is picked has one form, and what a compare call is compared with is zero with the one
-- variables when it is with the others.
structure Settled (sc : Scope) (env : List (String × Host)) (n : Node) : Prop where
  picks : sc.PicksAgree env n
  zeros : ∀ s op x y, Node.infixed s op x y ∈ n.nodes →
    (x.isOrderCall = true → sc.ZerosAgree env y) ∧ (y.isOrderCall = true → sc.ZerosAgree env x)

theorem Settled.within {n m : Node} (h : sc.Settled env n) (hm : m ∈ n.nodes) :
    sc.Settled env m where
  picks := fun x hx => h.picks x (Node.nodes_trans hm x hx)
  zeros := fun s op x y hxy => h.zeros s op x y (Node.nodes_trans hm _ hxy)

theorem Settled.reframe {n : Node} (h : sc.Settled env n) (frames : List Frame) :
    (sc.reframe frames).Settled env n := by
  have heval {R : Result → Result → Prop} (m : Node) :
      Both R (sc.eval false m) ((sc.rebind env).eval false m) →
        Both R ((sc.reframe frames).eval false m) (((sc.reframe frames).rebind env).eval false m) :=
    both_of_alike (sc.alike_reframe frames m false)
      ((sc.rebind env).alike_reframe frames m false).symm
  refine ⟨fun m hm hpick => heval m (h.picks m hm hpick), fun s op x y hxy => ?_⟩
  obtain ⟨hx, hy⟩ := h.zeros s op x y hxy
  exact ⟨fun hcall => heval y (hx hcall), fun hcall => heval x (hy hcall)⟩

abbrev KeepsForm (sc : Scope) (env : List (String × Host)) (n : Node) : Prop :=
  OneForm (sc.convert n) ((sc.rebind env).convert n)

section Comparisons

variable {s : Span} {op : InfixOp} {o : LogicOp} {x y : Node}

theorem eval_right {e : Expr} (ho : comparison? op = some o)
    (hdepends : sc.depends (.infixed s op x y) = true) (hclosed : sc.depends y = false)
    (h : sc.convert (.infixed s op x y) = .ok e) : ∃ r, sc.eval false y = .ok r := by
  have hx : sc.depends x = true := by simpa [depends, hclosed] using hdepends
  obtain ⟨yzero, hyzero, ⟨hcall, -⟩ | ⟨-, xzero, hxzero, h⟩⟩ := comparison_ok ho hdepends h
  · obtain ⟨-, rfl⟩ := Bool.and_eq_true_iff.mp hcall
    exact eval_of_isZero hyzero
  · cases isZero_of_depends hx hxzero
    obtain ⟨hcall, -⟩ | ⟨-, h⟩ := h
    · simp at hcall
    · obtain ⟨l, -, h⟩ := Compilation.bind_ok h
      obtain ⟨r, hr, -⟩ := Compilation.bind_ok h
      exact eval_of_convert hclosed hr

theorem eval_left {e : Expr} (ho : comparison? op = some o)
    (hdepends : sc.depends (.infixed s op x y) = true) (hclosed : sc.depends x = false)
    (h : sc.convert (.infixed s op x y) = .ok e) : ∃ r, sc.eval false x = .ok r := by
  have hy : sc.depends y = true := by simpa [depends, hclosed] using hdepends
  obtain ⟨yzero, hyzero, h⟩ := comparison_ok ho hdepends h
  cases isZero_of_depends hy hyzero
  obtain ⟨hcall, -⟩ | ⟨-, xzero, hxzero, h⟩ := h
  · simp at hcall
  · obtain ⟨hcall, -⟩ | ⟨-, h⟩ := h
    · obtain ⟨-, rfl⟩ := Bool.and_eq_true_iff.mp hcall
      exact eval_of_isZero hxzero
    · obtain ⟨l, hl, -⟩ := Compilation.bind_ok h
      exact eval_of_convert hclosed hl

theorem compareCall_agrees {n m : Node} {b b' : Bool} (henv : SameTypes sc.env env)
    (hzeros : n.isOrderCall = true → sc.ZerosAgree env m)
    (heval : sc.depends m = false → ∃ r, sc.eval false m = .ok r)
    (heval' : sc.depends m = false → ∃ r, (sc.rebind env).eval false m = .ok r)
    (h : sc.isZero m = .ok b) (h' : (sc.rebind env).isZero m = .ok b') :
    (sc.isCompareCall n && b) = ((sc.rebind env).isCompareCall n && b') := by
  rw [isCompareCall_rebind henv]
  cases hcall : sc.isCompareCall n with
  | false => rfl
  | true =>
    have hdepends' := depends_rebind henv m
    cases hdepends : sc.depends m with
    | true =>
      rw [isZero_of_depends hdepends h, isZero_of_depends (hdepends'.trans hdepends) h']
    | false =>
      obtain ⟨r, hr⟩ := heval hdepends
      obtain ⟨s, hs⟩ := heval' hdepends
      have hagree := hzeros (isOrderCall_of_isCompareCall hcall) r s hr hs
      rw [isZero_of_eval hdepends hr h, isZero_of_eval (hdepends'.trans hdepends) hs h', hagree]

theorem oneForm_comparison (henv : SameTypes sc.env env) (ho : comparison? op = some o)
    (hdepends : sc.depends (.infixed s op x y) = true)
    (hzeros : (x.isOrderCall = true → sc.ZerosAgree env y) ∧
      (y.isOrderCall = true → sc.ZerosAgree env x))
    (hx : sc.KeepsForm env x)
    (hy : sc.KeepsForm env y)
    (hxorder : ∀ o, OneForm (sc.comparands o x) ((sc.rebind env).comparands o x))
    (hyorder : ∀ o, OneForm (sc.comparands o y) ((sc.rebind env).comparands o y)) :
    sc.KeepsForm env (.infixed s op x y) := by
  have hdepends' : (sc.rebind env).depends (.infixed s op x y) = true := by
    rw [depends_rebind henv, hdepends]
  have hcompared : OneForm (compared o (sc.convert x) (sc.convert y))
      (compared o ((sc.rebind env).convert x) ((sc.rebind env).convert y)) :=
    hx.bind fun l l' hl => hy.bind fun r r' hr => Both.ok (by simp [hl, hr])
  intro d e hd he
  have hyeval := fun h => eval_right ho hdepends h hd
  have hyeval' := fun h => eval_right ho hdepends' h he
  have hxeval := fun h => eval_left ho hdepends h hd
  have hxeval' := fun h => eval_left ho hdepends' h he
  rw [depends_rebind henv] at hyeval' hxeval'
  obtain ⟨yzero, hyzero, hd⟩ := comparison_ok ho hdepends hd
  obtain ⟨yzero', hyzero', he⟩ := comparison_ok ho hdepends' he
  have hycall := compareCall_agrees henv hzeros.1 hyeval hyeval' hyzero hyzero'
  obtain ⟨hcall, hd⟩ | ⟨hcall, xzero, hxzero, hd⟩ := hd <;>
    obtain ⟨hcall', he⟩ | ⟨hcall', xzero', hxzero', he⟩ := he <;>
    rw [hcall, hcall'] at hycall
  · exact hxorder o d e hd he
  · cases hycall
  · cases hycall
  · have hxcall := compareCall_agrees henv hzeros.2 hxeval hxeval' hxzero hxzero'
    obtain ⟨hcall, hd⟩ | ⟨hcall, hd⟩ := hd <;> obtain ⟨hcall', he⟩ | ⟨hcall', he⟩ := he <;>
      rw [hcall, hcall'] at hxcall
    · exact hyorder _ d e hd he
    · cases hxcall
    · cases hxcall
    · exact hcompared d e hd he

end Comparisons

section Conversion

theorem keepsForm_iff {n : Node} : sc.KeepsForm env n ↔ Link.form.Converts sc env n := by
  have halike := convertsAlike n (sc.rebind env)
  refine ⟨fun h => Link.form_iff.mpr (both_of_alike (.refl _) halike h), fun h => ?_⟩
  exact both_of_alike (.refl _) halike.symm (Link.form_iff.mp h)

variable (henv : SameTypes sc.env env) (huniform : sc.toConverter.IsUniform)

include henv huniform

theorem Settled.settles {n : Node} (hn : sc.Settled env n) : Link.form.Settles sc env n where
  folds m hm frames := by
    have henv' : SameTypes (sc.reframe frames).env env := henv
    have huniform' : (sc.reframe frames).toConverter.IsUniform := huniform
    have hpicks := ((hn.within hm).reframe frames).picks
    have hfold := oneForm_fold (both_eval huniform' henv' m hpicks false)
    exact Link.form_iff.mpr (both_of_alike (.refl _) (agree_fold _ m) hfold)
  compares s op x y o hm ho frames hdepends hx hy := by
    have henv' : SameTypes (sc.reframe frames).env env := henv
    have hk := fits_form henv' huniform
    have hzeros := ((hn.within hm).reframe frames).zeros s op x y (Node.mem_nodes_self _)
    refine keepsForm_iff.mp (oneForm_comparison henv' ho hdepends hzeros
      (keepsForm_iff.mpr (hx x x.mem_nodes_self)) (keepsForm_iff.mpr (hy y y.mem_nodes_self))
      (fun o => ?_) fun o => ?_)
    · exact both_of_alike (.refl _) (agree_comparands _ o x).symm
        (Link.form_iff.mp (links_comparands hk hx o))
    · exact both_of_alike (.refl _) (agree_comparands _ o y).symm
        (Link.form_iff.mp (links_comparands hk hy o))

theorem oneForm_convert {n : Node} (hn : sc.Settled env n) :
    sc.KeepsForm env n :=
  keepsForm_iff.mpr (converts (fits_form henv huniform) (hn.settles henv huniform) sc.frames)

end Conversion

end Scope
end QueryTree.Lambda
