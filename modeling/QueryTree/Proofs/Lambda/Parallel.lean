import QueryTree.Proofs.Lambda.Erasure
import QueryTree.Proofs.Lambda.Rebinding

namespace QueryTree.Lambda

-- How two conversions are compared: whether they fail together, with errors of one type, and what
-- of their expressions is the same.
structure Link where
  strict : Prop
  view : Expr → Expr

namespace Link

variable {k : Link} {α β γ δ : Type} {R : α → β → Prop} {S : γ → δ → Prop}
  {x : Except Error α} {y : Except Error β}

def Rel (k : Link) (R : α → β → Prop) : Except Error α → Except Error β → Prop
  | .ok a, .ok b => R a b
  | .error e, .error e' => k.strict → e.type = e'.type
  | _, _ => ¬k.strict

theorem Rel.refl (x : Except Error α) : k.Rel Eq x x := by
  cases x with
  | ok a => exact rfl
  | error e => exact fun _ => rfl

theorem Rel.pure {a : α} {b : β} (h : R a b) : k.Rel R (Pure.pure a) (Pure.pure b) := h

theorem Rel.imp {S : α → β → Prop} (h : k.Rel R x y) (hRS : ∀ a b, R a b → S a b) :
    k.Rel S x y := by
  cases x <;> cases y <;> first | exact h | exact hRS _ _ h

theorem Rel.bind {f : α → Except Error γ} {g : β → Except Error δ} (h : k.Rel R x y)
    (hfg : ∀ a b, R a b → k.Rel S (f a) (g b)) : k.Rel S (x >>= f) (y >>= g) := by
  cases x with
  | ok a =>
    cases y with
    | ok b => exact hfg a b h
    | error e =>
      change k.Rel S (f a) (.error e)
      cases f a with
      | ok c => exact h
      | error e' => exact fun hstrict => absurd hstrict h
  | error e =>
    cases y with
    | ok b =>
      change k.Rel S (.error e) (g b)
      cases g b with
      | ok c => exact h
      | error e' => exact fun hstrict => absurd hstrict h
    | error e' => exact h

theorem Rel.bind_eq {f : α → Except Error γ} {g : α → Except Error δ} {y : Except Error α}
    (h : k.Rel Eq x y) (hfg : ∀ a, k.Rel S (f a) (g a)) : k.Rel S (x >>= f) (y >>= g) :=
  h.bind fun a _ hab => hab ▸ hfg a

theorem Rel.mapM {f : α → Except Error γ} {f' : β → Except Error γ} {g : γ → δ} {l : List α}
    {l' : List β} (h : List.Forall₂ (fun a b => k.Rel (g · = g ·) (f a) (f' b)) l l') :
    k.Rel (·.map g = ·.map g) (l.mapM f) (l'.mapM f') := by
  induction h with
  | nil => exact rfl
  | cons hab _ ih =>
    simp only [List.mapM_cons]
    refine hab.bind fun c d hcd => ih.bind fun cs ds hcs => ?_
    exact congrArg₂ List.cons hcd hcs

-- The two links in use: the same expression or an error of the same type, and an expression of the
-- same form where both give one.
def equal : Link := ⟨True, id⟩

def form : Link := ⟨False, Expr.form⟩

theorem equal_iff {y : Except Error α} : equal.Rel Eq x y ↔ Alike Error.type x y := by
  cases x <;> cases y <;> simp [equal, Rel, Alike, Except.mapError]

theorem form_iff : form.Rel R x y ↔ Both R x y := by
  cases x <;> cases y <;> simp [form, Rel, Both]

abbrev Links (k : Link) (x y : Except Error Expr) : Prop := k.Rel (k.view · = k.view ·) x y

end Link

-- The same names bound to values of the same types.
def TypedAlike (env env' : List (String × Host)) : Prop :=
  ∀ name, (env'.lookup name).map Host.ty? = (env.lookup name).map Host.ty?

theorem SameTypes.typedAlike {env env' : List (String × Host)} (h : SameTypes env env') :
    TypedAlike env env' := by
  intro name
  have hname := h name
  revert hname
  cases env.lookup name <;> cases env'.lookup name <;> intro hname <;> cases hname
  case none.none.none => rfl
  case some.some.some h => exact congrArg some h.ty?.symm

namespace Scope

-- The scope with other variables and without its source.
def recast (sc : Scope) (env : List (String × Host)) : Scope := (sc.rebind env).erased

variable {sc : Scope} {env : List (String × Host)}

section Static

variable (henv : TypedAlike sc.env env)

include henv

theorem isPackage_recast (name : String) : (sc.recast env).isPackage name = sc.isPackage name := by
  have h := congrArg Option.isSome (henv name)
  rw [Option.isSome_map, Option.isSome_map] at h
  exact congrArg (!sc.isParam name && !·) h

theorem isQueryCall_recast (n : Node) :
    (sc.recast env).isQueryCall n.erased = sc.isQueryCall n := by
  cases n with
  | selector s x name =>
    cases x with
    | ident t pkg => exact congrArg (pkg == queryPackage && ·) (isPackage_recast henv pkg)
    | _ => rfl
  | _ => rfl

omit henv in
theorem anyDepends_recast {ns : List Node}
    (h : ∀ n ∈ ns, (sc.recast env).depends n.erased = sc.depends n) :
    (sc.recast env).anyDepends (Node.erasedAll ns) = sc.anyDepends ns := by
  induction ns with
  | nil => rfl
  | cons n ns ih =>
    obtain ⟨hn, hns⟩ := List.forall_mem_cons.mp h
    exact congrArg₂ or hn (ih hns)

omit henv in
theorem optionDepends_recast {o : Option Node}
    (h : ∀ n ∈ o.toList, (sc.recast env).depends n.erased = sc.depends n) :
    (sc.recast env).optionDepends (Node.erasedOption o) = sc.optionDepends o := by
  cases o with
  | none => rfl
  | some n => exact h n List.mem_cons_self

theorem depends_recast (n : Node) : (sc.recast env).depends n.erased = sc.depends n := by
  induction n using Node.ofParts with
  | step n ih =>
    cases n with
    | ident | literal | lambda => rfl
    | selector _ x _ | prefixed _ _ x | star _ x | paren _ x => exact ih x List.mem_cons_self
    | call _ fn args =>
      obtain ⟨hfn, hargs⟩ := List.forall_mem_cons.mp ih
      rw [Node.erased, depends, depends, isQueryCall_recast henv, hfn, anyDepends_recast hargs]
    | infixed _ _ x y | index _ x y =>
      exact congrArg₂ or (ih x List.mem_cons_self)
        (ih y (List.mem_cons_of_mem _ List.mem_cons_self))
    | pair _ k v =>
      have hk := ih k List.mem_cons_self
      have hv := ih v (List.mem_cons_of_mem _ List.mem_cons_self)
      cases k with
      | ident => exact hv
      | _ => exact congrArg₂ or hk hv
    | composite _ type items =>
      obtain ⟨htype, hitems⟩ := List.forall_mem_append.mp ih
      exact congrArg₂ or (optionDepends_recast htype) (anyDepends_recast hitems)
    | arrayType _ size elem =>
      obtain ⟨hsize, helem⟩ := List.forall_mem_append.mp ih
      exact congrArg₂ or (optionDepends_recast hsize) (helem elem List.mem_cons_self)
    | other _ _ parts => exact anyDepends_recast ih

omit henv in
theorem rowChain?_recast (sc : Scope) (env : List (String × Host)) (n : Node) :
    (sc.recast env).rowChain? n.erased = sc.rowChain? n := by
  unfold rowChain?
  rw [chain_erased]
  rfl

omit henv in
theorem chainType_recast (row : Option Ty) (names : List String) :
    (sc.recast env).chainType row names = sc.chainType row names := by
  induction names generalizing row with
  | nil => rfl
  | cons name rest ih =>
    simp only [chainType, ih]
    rfl

theorem staticType_recast (n : Node) : (sc.recast env).staticType n.erased = sc.staticType n := by
  induction n using Node.ofParts with
  | step n ih =>
    cases n with
    | paren _ x => exact ih x List.mem_cons_self
    | ident _ name =>
      simp only [Node.erased, staticType]
      split
      · rfl
      · have hty := congrArg (·.bind id) (henv name)
        simp only [Option.bind_map] at hty
        exact hty
    | star _ x => exact congrArg (Option.map Ty.indirect) (ih x List.mem_cons_self)
    | prefixed _ op x => simp only [Node.erased, staticType, ih x List.mem_cons_self]
    | infixed _ op x y =>
      simp only [Node.erased, staticType, ih x List.mem_cons_self,
        ih y (List.mem_cons_of_mem _ List.mem_cons_self)]
    | call _ fn args =>
      cases fn with
      | selector _ x name =>
        cases x with
        | ident _ pkg => simp only [Node.erased, staticType, isPackage_recast henv]
        | _ => rfl
      | _ => rfl
    | selector s x name =>
      have hchain := rowChain?_recast sc env (.selector s x name)
      simp only [Node.erased] at hchain ⊢
      simp only [staticType, hchain, chainType_recast]
    | _ => rfl

theorem isStringy_recast (n : Node) (e : Expr) :
    (sc.recast env).isStringy n.erased e = sc.isStringy n e := by
  unfold isStringy
  rw [staticType_recast henv]
  rfl

theorem isPredicate_recast (n : Node) (e : Expr) :
    (sc.recast env).isPredicate n.erased e = sc.isPredicate n e := by
  unfold isPredicate
  rw [staticType_recast henv]
  rfl

theorem receiverType_recast (n : Node) (e : Expr) :
    (sc.recast env).receiverType n.erased e = sc.receiverType n e := by
  unfold receiverType
  rw [staticType_recast henv]

theorem isCompareCall_recast (n : Node) :
    (sc.recast env).isCompareCall n.erased = sc.isCompareCall n := by
  induction n using Node.unparen.induct with
  | case1 s x ih => exact ih
  | case2 n hparen =>
    cases n with
    | paren s x => exact absurd rfl (hparen s x)
    | call s fn args =>
      cases fn with
      | selector t x name =>
        by_cases hname : name = "Compare"
        · subst hname
          cases x <;>
            simp [Node.erased, isCompareCall, Node.length_erasedAll, isPackage_recast henv]
        · cases x <;> simp [Node.erased, isCompareCall, hname]
      | _ => rfl
    | _ => rfl

theorem package?_recast (n : Node) : (sc.recast env).package? n.erased = sc.package? n := by
  cases n <;> simp [Node.erased, package?, isPackage_recast henv]

theorem isContainsFunc_recast (n : Node) :
    (sc.recast env).isContainsFunc n.erased = sc.isContainsFunc n := by
  cases n with
  | selector s x name =>
    cases x with
    | ident t pkg =>
      by_cases hname : pkg = "slices" ∧ name = "ContainsFunc"
      · obtain ⟨rfl, rfl⟩ := hname
        exact isPackage_recast henv "slices"
      · simp_all [Node.erased, isContainsFunc]
    | _ => rfl
  | _ => rfl

end Static
end Scope

-- A link that the conversions of a converter with some and with other variables keep: its view of
-- an expression is made of the views of the parts, and tells what a conversion asks of a part.
structure Link.Fits (k : Link) (c : Converter) (env : List (String × Host)) : Prop where
  types : TypedAlike c.env env
  unary : ∀ op x, k.view (.unary op x) = .unary op (k.view x)
  compare : ∀ op l r, k.view (.compare op l r) = .compare op (k.view l) (k.view r)
  compute : ∀ op l r, k.view (.compute op l r) = .compute op (k.view l) (k.view r)
  call : ∀ name args, k.view (.call name args) = .call name (args.map k.view)
  aggregate : ∀ name arg distinct,
    k.view (.aggregate name arg distinct) = .aggregate name (arg.map k.view) distinct
  join : ∀ kind items, k.view (.join kind items) = .join kind (items.map k.view)
  related : ∀ relation label inner tableArgs, k.view (.related relation label inner tableArgs) =
    .related relation label (inner.map k.view) tableArgs
  isLogic : ∀ {d e}, k.view d = k.view e → d.isLogic = e.isLogic
  isStringy : ∀ (sc : Scope) n {d e}, k.view d = k.view e → sc.isStringy n d = sc.isStringy n e
  isPredicate : ∀ (sc : Scope) n {d e}, k.view d = k.view e →
    sc.isPredicate n d = sc.isPredicate n e
  receiverType : ∀ (sc : Scope) n {d e}, k.view d = k.view e →
    sc.receiverType n d = sc.receiverType n e
  handlers : ∀ {t name handler}, c.handlers.method? t name = some handler →
    ∀ {r r' : Expr} {args args' : List Expr}, k.view r = k.view r' →
      args.map k.view = args'.map k.view → k.Links (handler r args) (handler r' args')

namespace Scope

variable {k : Link} {sc : Scope} {env : List (String × Host)} {α β : Type} {R : α → β → Prop}

section Parts

variable {sc' : Scope} {n n' x y : Node} {left right left' right' : Except Error Expr}
  {args args' : List (Except Error Expr)}

theorem rel_unsupported {reason reason' : String} :
    k.Rel R (sc.unsupported n reason) (sc'.unsupported n' reason') :=
  fun _ => rfl

theorem rel_lambdaFault (param : Option String) (statements : Nat) :
    k.Rel R (sc.lambdaFault n param statements) (sc'.lambdaFault n' param statements) := by
  unfold lambdaFault
  split
  · exact rel_unsupported
  · split <;> exact rel_unsupported

theorem rel_checked {R : Expr → Expr → Prop} (h : k.Rel R left left') :
    k.Rel R (sc.checked n left) (sc'.checked n' left') := by
  cases left <;> cases left' <;> first | exact h | exact rel_unsupported

theorem links_asLogic {c : Converter} (hk : k.Fits c env) (h : k.Links left left') :
    k.Links (sc.asLogic n left) (sc'.asLogic n' left') := by
  refine h.bind fun d e hde => ?_
  rw [hk.isLogic hde]
  split
  · exact hde
  · exact rel_unsupported

variable (hk : k.Fits sc.toConverter env)

include hk

theorem links_junction (kind : SetKind) {x' y' : Node} (hl : k.Links left left')
    (hr : k.Links right right') :
    k.Links (sc.junction kind x y left right) (sc'.junction kind x' y' left' right') := by
  refine (links_asLogic hk hl).bind fun l l' hl =>
    (links_asLogic hk hr).bind fun r r' hr => .pure ?_
  simp only [hk.join, List.map_cons, List.map_nil, hl, hr]

theorem links_compared (op : LogicOp) (hl : k.Links left left') (hr : k.Links right right') :
    k.Links (compared op left right) (compared op left' right') := by
  refine hl.bind fun l l' hl => hr.bind fun r r' hr => .pure ?_
  rw [hk.compare, hk.compare, hl, hr]

theorem links_computed (op : InfixOp) (hl : k.Links left left') (hr : k.Links right right') :
    k.Links (sc.computed n op x y left right)
      ((sc.recast env).computed n' op x.erased y.erased left' right') := by
  refine hl.bind fun l l' hl => hr.bind fun r r' hr => ?_
  have hcompute o : k.view (.compute o l r) = k.view (.compute o l' r') := by
    rw [hk.compute, hk.compute, hl, hr]
  simp only [isPredicate_recast hk.types, isStringy_recast hk.types, hk.isPredicate sc x hl,
    hk.isPredicate sc y hr, hk.isStringy sc x hl, hk.isStringy sc y hr]
  split
  · exact links_junction hk _ hl hr
  · split
    · exact hcompute _
    · split
      · exact hcompute _
      · exact rel_unsupported

theorem links_func {name : String} {es es' : List Expr} (h : es.map k.view = es'.map k.view) :
    k.Links (sc.checked n (Expr.func name es)) (sc'.checked n' (Expr.func name es')) := by
  refine rel_checked ((Link.Rel.refl _).bind_eq fun _ => .pure ?_)
  rw [hk.call, hk.call, h]

theorem links_databaseCall (name : String) (arity : Option Nat)
    (h : List.Forall₂ k.Links args args') :
    k.Links (sc.databaseCall n name arity args) (sc'.databaseCall n' name arity args') := by
  have hcall : k.Links (do sc.checked n (Expr.func name (← args.mapM id)))
      (do sc'.checked n' (Expr.func name (← args'.mapM id))) :=
    (Link.Rel.mapM h).bind fun _ _ hes => links_func hk hes
  unfold databaseCall
  cases arity with
  | none => exact hcall
  | some count =>
    rw [h.length_eq]
    dsimp only
    split
    · exact rel_unsupported
    · exact hcall

theorem links_pattern (op : LogicOp) (h : List.Forall₂ k.Links args args') :
    k.Links (sc.pattern n op args) (sc'.pattern n' op args') := by
  obtain _ | ⟨hx, _ | ⟨hy, _ | _⟩⟩ := h
  case cons.cons.nil => exact links_compared hk op hx hy
  all_goals exact rel_unsupported

theorem links_membership (nodes : List Node) (h : List.Forall₂ k.Links args args') :
    k.Links (sc.membership n nodes args)
      ((sc.recast env).membership n' (Node.erasedAll nodes) args') := by
  obtain _ | ⟨list, _ | ⟨item, _ | _⟩⟩ := nodes
  case cons.cons.nil =>
    obtain _ | ⟨hx, _ | ⟨hy, _ | _⟩⟩ := h
    case cons.cons.nil =>
      simp only [Node.erasedAll, membership, depends_recast hk.types]
      split
      · exact rel_unsupported
      · exact links_compared hk .isIn hy hx
    all_goals exact rel_unsupported
  all_goals exact rel_unsupported

theorem links_aggregated (name : String) (distinct : Bool)
    {arg arg' : Option (Except Error Expr)} (h : Option.Rel k.Links arg arg') :
    k.Links (sc.aggregated n name distinct arg) (sc'.aggregated n' name distinct arg') := by
  have hmake {o o' : Option Expr} (ho : o.map k.view = o'.map k.view) :
      k.Links (sc.checked n (Expr.aggregated name o distinct))
        (sc'.checked n' (Expr.aggregated name o' distinct)) := by
    refine rel_checked ((Link.Rel.refl _).bind_eq fun _ => .pure ?_)
    rw [hk.aggregate, hk.aggregate, ho]
  cases h with
  | none => exact hmake rfl
  | some h => exact h.bind fun e e' he => hmake (congrArg some he)

theorem links_queryCall (name : String) (h : List.Forall₂ k.Links args args') :
    k.Links (sc.queryCall n name args) (sc'.queryCall n' name args') := by
  unfold queryCall
  cases aggregate? name with
  | none =>
    dsimp only
    split
    · exact links_pattern hk .like h
    · exact rel_unsupported
  | some p =>
    obtain _ | ⟨hx, _ | _⟩ := h
    · dsimp only
      split
      · exact links_aggregated hk _ _ .none
      · exact rel_unsupported
    · exact links_aggregated hk _ _ (.some hx)
    · exact rel_unsupported

theorem links_packageCall (pkg name : String) (nodes : List Node)
    (h : List.Forall₂ k.Links args args') :
    k.Links (sc.packageCall n pkg name nodes args)
      ((sc.recast env).packageCall n' pkg name (Node.erasedAll nodes) args') := by
  unfold packageCall
  split
  case h_1 | h_2 | h_3 => exact links_pattern hk _ h
  case h_4 | h_5 | h_6 | h_7 => exact links_databaseCall hk _ _ h
  case h_8 => exact links_membership hk nodes h
  case h_9 =>
    split
    · exact links_queryCall hk name h
    · split
      · exact rel_unsupported
      · exact links_databaseCall hk _ _ h

theorem links_methodCall {fn fn' : Node} (name : String) (hl : k.Links left left')
    (h : List.Forall₂ k.Links args args') :
    k.Links (sc.methodCall fn x name left args)
      ((sc.recast env).methodCall fn' x.erased name left' args') := by
  refine hl.bind fun r r' hr => (Link.Rel.mapM h).bind fun es es' hes => ?_
  have hhandlers : (sc.recast env).handlers = sc.handlers := rfl
  simp only [receiverType_recast hk.types, ← hk.receiverType sc x hr, hhandlers]
  cases hm : sc.handlers.method? (sc.receiverType x r) name with
  | some handler => exact hk.handlers hm hr hes
  | none => exact links_func hk (congrArg₂ List.cons hr hes)

theorem links_existing {relation label : String} {d e : Expr} (h : k.view d = k.view e) :
    k.Links (Expr.existing relation label (some d) [])
      (Expr.existing relation label (some e) []) := by
  have hmake : k.view (.related relation label (some d) []) =
      k.view (.related relation label (some e) []) := by
    simp only [hk.related, Option.map_some, h]
  unfold Expr.existing
  refine (Link.Rel.refl _).bind_eq fun _ => ?_
  split
  · exact hmake
  · exact (Link.Rel.refl _).bind_eq fun _ => hmake

end Parts

section Members

variable {n n' : Node}

theorem rel_columnMembers (e : Expr) (leaf : Option Ty) (names : List String) :
    k.Rel Eq (sc.columnMembers n e leaf names)
      ((sc.recast env).columnMembers n' e leaf names) := by
  induction names generalizing e leaf with
  | nil => exact .refl _
  | cons name rest ih =>
    have hhandlers : (sc.recast env).handlers = sc.handlers := rfl
    simp only [columnMembers, hhandlers]
    split
    · exact rel_unsupported
    · next h _ => exact (Link.Rel.refl (h e)).bind_eq fun e => ih e none

theorem rel_rowMembers (depth : Nat) (frame : Frame) (row : Option Ty)
    (path names : List String) :
    k.Rel Eq (sc.rowMembers n depth frame row path names)
      ((sc.recast env).rowMembers n' depth frame row path names) := by
  induction names generalizing row path with
  | nil => exact rel_checked (.refl _)
  | cons name rest ih =>
    have hhandlers : (sc.recast env).handlers = sc.handlers := rfl
    have hworld : (sc.recast env).world = sc.world := rfl
    simp only [rowMembers, hhandlers, hworld]
    split
    · exact (rel_checked (.refl _)).bind_eq fun _ => .refl _
    · split
      · exact .refl _
      · split
        · exact (rel_checked (.refl _)).bind_eq fun e => rel_columnMembers e _ rest
        · exact ih _ _

theorem rel_selection (n : Node) :
    k.Rel Eq (sc.selection n) ((sc.recast env).selection n.erased) := by
  unfold selection
  rw [rowChain?_recast]
  split
  · exact rel_unsupported
  · exact rel_rowMembers _ _ _ _ _

theorem rel_relation (n : Node) :
    k.Rel Eq (sc.relation n) ((sc.recast env).relation n.erased) := by
  unfold relation
  rw [Node.unparen_erased]
  cases n.unparen with
  | selector s x name =>
    have hchain := rowChain?_recast sc env (.selector s x name)
    have hworld : (sc.recast env).world = sc.world := rfl
    rw [Node.erased] at hchain ⊢
    simp only [hchain, hworld]
    split
    · split
      · exact rel_unsupported
      · split
        · exact .refl _
        · split <;> exact .refl _
    · exact rel_unsupported
  | _ => exact rel_unsupported

end Members

end Scope

abbrev Link.Converts (k : Link) (sc : Scope) (env : List (String × Host)) (n : Node) : Prop :=
  k.Links (sc.convert n) ((sc.recast env).convert n.erased)

-- What is to be shown of a node in the places where values count: what is evaluated, and what a
-- compare call is compared with.
structure Link.Settles (k : Link) (sc : Scope) (env : List (String × Host)) (n : Node) : Prop where
  folds : ∀ m ∈ n.nodes, ∀ frames,
    k.Links ((sc.reframe frames).fold m) (((sc.reframe frames).recast env).fold m.erased)
  compares : ∀ s op x y o, Node.infixed s op x y ∈ n.nodes → Scope.comparison? op = some o →
    ∀ frames, (sc.reframe frames).depends (.infixed s op x y) = true →
      (∀ m ∈ x.nodes, k.Converts (sc.reframe frames) env m) →
      (∀ m ∈ y.nodes, k.Converts (sc.reframe frames) env m) →
      k.Converts (sc.reframe frames) env (.infixed s op x y)

theorem Link.Settles.within {k : Link} {sc : Scope} {env : List (String × Host)} {n m : Node}
    (h : k.Settles sc env n) (hm : m ∈ n.nodes) : k.Settles sc env m where
  folds := fun x hx => h.folds x (Node.nodes_trans hm x hx)
  compares := fun s op x y o hxy => h.compares s op x y o (Node.nodes_trans hm _ hxy)

namespace Scope

variable {k : Link} {sc : Scope} {env : List (String × Host)}

section Conversion

variable {n : Node}

theorem links_convertEach {items : List Node}
    (h : ∀ a ∈ items, ∀ m ∈ a.nodes, k.Converts sc env m) :
    List.Forall₂ k.Links (sc.convertEach items)
      ((sc.recast env).convertEach (Node.erasedAll items)) := by
  induction items with
  | nil => exact .nil
  | cons a rest ih =>
    obtain ⟨ha, hrest⟩ := List.forall_mem_cons.mp h
    cases a with
    | pair s key v =>
      have hv : v ∈ (Node.pair s key v).nodes :=
        Node.part_mem_nodes (List.mem_cons_of_mem _ List.mem_cons_self)
      exact .cons (ha v hv) (ih hrest)
    | _ => exact .cons (ha _ (Node.mem_nodes_self _)) (ih hrest)

variable (hk : k.Fits sc.toConverter env)

include hk

theorem links_comparands (h : ∀ m ∈ n.nodes, k.Converts sc env m) (o : LogicOp) :
    k.Links (sc.comparands o n) ((sc.recast env).comparands o n.erased) := by
  induction n using Node.unparen.induct with
  | case1 s x ih => exact ih fun m hm => h m (Node.nodes_subset List.mem_cons_self m hm)
  | case2 n hparen =>
    cases n with
    | paren s x => exact absurd rfl (hparen s x)
    | call s fn args =>
      have hargs : ∀ a ∈ args, k.Converts sc env a := fun a ha =>
        h a (Node.part_mem_nodes (List.mem_cons_of_mem _ ha))
      cases fn with
      | selector t x name =>
        have hx : k.Converts sc env x :=
          h x (Node.nodes_subset List.mem_cons_self x
            (Node.part_mem_nodes List.mem_cons_self))
        obtain _ | ⟨a, _ | ⟨b, _ | ⟨c, rest⟩⟩⟩ := args
        · exact rel_unsupported
        · exact links_compared hk o hx (hargs a List.mem_cons_self)
        · exact links_compared hk o (hargs a List.mem_cons_self)
            (hargs b (List.mem_cons_of_mem _ List.mem_cons_self))
        · exact rel_unsupported
      | _ => exact rel_unsupported
    | _ => exact rel_unsupported

theorem rel_convertBody (h : ∀ m ∈ n.nodes, ∀ frames, k.Converts (sc.reframe frames) env m)
    (whole whole' : Node) (row : Option Ty) :
    k.Rel (fun p q => p.1 = q.1 ∧ k.view p.2 = k.view q.2) (sc.convertBody whole row n)
      ((sc.recast env).convertBody whole' row n.erased) := by
  induction n using Node.unparen.induct with
  | case1 s x ih => exact ih fun m hm => h m (Node.nodes_subset List.mem_cons_self m hm)
  | case2 n hparen =>
    cases n with
    | paren s x => exact absurd rfl (hparen s x)
    | lambda s param statements result =>
      rw [Node.erased, convertBody.eq_def sc, convertBody.eq_def (sc.recast env)]
      obtain _ | p := param
      case none => exact rel_lambdaFault _ _
      obtain _ | body := result
      case none => exact rel_lambdaFault _ _
      have hbody : body ∈ (Node.lambda s (some p) statements (some body)).nodes :=
        Node.part_mem_nodes List.mem_cons_self
      dsimp only [Node.erasedOption]
      split
      · have hconvert := h body hbody (⟨p, row⟩ :: sc.frames)
        exact (links_asLogic hk hconvert).bind fun _ _ h => ⟨rfl, h⟩
      · exact rel_lambdaFault _ _
    | _ => exact rel_unsupported

theorem converts_call {fn : Node} {args : List Node} (hfn : ∀ m ∈ fn.nodes, k.Converts sc env m)
    (hargs : ∀ a ∈ args, ∀ m ∈ a.nodes, ∀ frames, k.Converts (sc.reframe frames) env m) (s : Span)
    (hfold : k.Links (sc.fold (.call s fn args))
      ((sc.recast env).fold (Node.call s fn args).erased)) :
    k.Converts sc env (.call s fn args) := by
  have hdepends := depends_recast hk.types (.call s fn args)
  have heach : List.Forall₂ k.Links (sc.convertEach args)
      ((sc.recast env).convertEach (Node.erasedAll args)) :=
    links_convertEach fun a ha m hm => hargs a ha m hm sc.frames
  unfold Link.Converts
  rw [Node.erased] at hdepends hfold ⊢
  rw [convert.eq_def sc, convert.eq_def (sc.recast env)]
  simp only [hdepends, isContainsFunc_recast hk.types]
  split
  case isFalse => exact hfold
  case isTrue =>
    split
    · obtain _ | ⟨rel, _ | ⟨body, _ | _⟩⟩ := args
      case cons.cons.nil =>
        have hbody := hargs body (List.mem_cons_of_mem _ List.mem_cons_self)
        refine (rel_relation rel).bind_eq fun p => ?_
        refine (rel_convertBody hk hbody _ _ p.2).bind fun p q hpq => ?_
        obtain ⟨label, d⟩ := p
        obtain ⟨label', e⟩ := q
        obtain ⟨rfl, hview⟩ := hpq
        exact rel_checked (links_existing hk hview)
      all_goals exact rel_unsupported
    · cases fn with
      | ident t name =>
        have hparam : (sc.recast env).isParam name = sc.isParam name := rfl
        simp only [Node.erased, hparam, Node.length_erasedAll]
        split
        · exact rel_unsupported
        · split
          · exact links_databaseCall hk _ _ heach
          · cases (if args.length == 1 then basicType? name else none) with
            | none => exact links_databaseCall hk _ _ heach
            | some t =>
              revert heach
              generalize sc.convertEach args = xs
              generalize (sc.recast env).convertEach (Node.erasedAll args) = ys
              intro heach
              obtain _ | ⟨hx, _ | ⟨hy, hrest⟩⟩ := heach
              · exact links_databaseCall hk _ _ .nil
              · exact hx
              · exact links_databaseCall hk _ _ (.cons hx (.cons hy hrest))
      | selector t x name =>
        simp only [Node.erased, package?_recast hk.types]
        cases sc.package? x with
        | some pkg => exact links_packageCall hk pkg name args heach
        | none =>
          have hx := hfn x (Node.part_mem_nodes List.mem_cons_self)
          exact links_methodCall hk name hx heach
      | _ => exact rel_unsupported

theorem converts_step (hn : k.Settles sc env n)
    (ih : ∀ m ∈ n.inner, ∀ frames, k.Converts (sc.reframe frames) env m) :
    k.Converts sc env n := by
  have hpart : ∀ x ∈ n.parts, ∀ m ∈ x.nodes, k.Converts sc env m :=
    fun x hx m hm => ih m (Node.inner_of_part hx hm) sc.frames
  have hself : ∀ x ∈ n.parts, k.Converts sc env x :=
    fun x hx => hpart x hx x x.mem_nodes_self
  have hdepends := depends_recast hk.types n
  have hfold : k.Links (sc.fold n) ((sc.recast env).fold n.erased) :=
    hn.folds n n.mem_nodes_self sc.frames
  cases n with
  | paren s x => exact hself x List.mem_cons_self
  | call s fn args =>
    exact converts_call hk (hpart fn List.mem_cons_self)
      (fun a ha m hm => ih m (Node.inner_of_part (List.mem_cons_of_mem _ ha) hm)) s hfold
  | infixed s op x y =>
    have hx := hpart x List.mem_cons_self
    have hy := hpart y (List.mem_cons_of_mem _ List.mem_cons_self)
    have hleft := hx x x.mem_nodes_self
    have hright := hy y y.mem_nodes_self
    have hcompares := fun o ho => hn.compares s op x y o (Node.mem_nodes_self _) ho sc.frames
    unfold Link.Converts
    cases hsc : sc.depends (.infixed s op x y) with
    | false =>
      rw [hsc] at hdepends
      rw [Node.erased] at hdepends hfold ⊢
      rw [convert.eq_def sc, convert.eq_def (sc.recast env)]
      simp only [hsc, hdepends, Bool.false_eq_true, if_false]
      exact hfold
    | true =>
      cases ho : comparison? op with
      | some o => exact hcompares o ho hsc hx hy
      | none =>
        rw [hsc] at hdepends
        rw [Node.erased] at hdepends ⊢
        rw [convert.eq_def sc, convert.eq_def (sc.recast env)]
        simp only [hsc, hdepends, if_true, ho]
        cases op with
        | both | either => exact links_junction hk _ hleft hright
        | _ => exact links_computed hk _ hleft hright
  | selector s x name =>
    have hselection : k.Links (sc.selection (.selector s x name))
        ((sc.recast env).selection (Node.selector s x name).erased) :=
      (rel_selection _).imp fun _ _ h => congrArg k.view h
    unfold Link.Converts
    rw [Node.erased] at hdepends hselection hfold ⊢
    rw [convert, convert, hdepends]
    split
    · exact hselection
    · exact hfold
  | star s x =>
    unfold Link.Converts
    rw [Node.erased, convert, convert, depends_recast hk.types]
    split
    · exact hself x List.mem_cons_self
    · exact hfold
  | prefixed s op x =>
    have hx := hself x List.mem_cons_self
    have hunary o {d e : Expr} (h : k.view d = k.view e) :
        k.view (.unary o d) = k.view (.unary o e) := by
      rw [hk.unary, hk.unary, h]
    unfold Link.Converts
    rw [Node.erased] at hdepends hfold ⊢
    rw [convert.eq_def sc, convert.eq_def (sc.recast env)]
    simp only [hdepends]
    split
    · cases op with
      | not => exact (links_asLogic hk hx).bind fun _ _ h => hunary _ h
      | minus | complement => exact hx.bind fun _ _ h => hunary _ h
      | plus => exact hx
      | _ => exact rel_unsupported
    · exact hfold
  | composite s type items =>
    obtain ⟨-, hitems⟩ := List.forall_mem_append.mp hpart
    unfold Link.Converts
    rw [Node.erased] at hdepends hfold ⊢
    rw [convert, convert, hdepends]
    split
    · refine (Link.Rel.mapM (links_convertEach hitems)).bind fun ds es h => .pure ?_
      rw [hk.join, hk.join, h]
    · exact hfold
  | ident s name =>
    have hparam : (sc.recast env).isParam name = sc.isParam name := rfl
    unfold Link.Converts
    rw [Node.erased, convert, convert, hparam]
    split
    · exact rel_unsupported
    · exact hfold
  | _ =>
    unfold Link.Converts
    rw [Node.erased] at hdepends hfold ⊢
    rw [convert.eq_def sc, convert.eq_def (sc.recast env)]
    simp only [hdepends]
    split
    · exact rel_unsupported
    · exact hfold

-- The induction is on what stands inside a node, since compare calls and functions convert nodes
-- that are no parts of their own.
theorem converts (hn : k.Settles sc env n) (frames : List Frame) :
    k.Converts (sc.reframe frames) env n := by
  induction n using Node.ofInner generalizing frames with
  | step n ih =>
    have hk' : k.Fits (sc.reframe frames).toConverter env := hk
    have hn' : k.Settles (sc.reframe frames) env n := ⟨hn.folds, hn.compares⟩
    exact converts_step hk' hn' fun m hm => ih m hm (hn.within (Node.nodes_of_inner hm))

end Conversion

end Scope

end QueryTree.Lambda
