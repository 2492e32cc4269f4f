import QueryTree.Lambda.Convert
import QueryTree.Proofs.Lambda.Syntax

namespace QueryTree

-- The type of an error, and the general failures that it counts as. What it says is left out.
def Error.type (e : Error) : Nat × List ErrorClass := (e.ctorIdx, e.classes)

-- Whether an evaluation broke off. Its other errors are of one type.
def EvalError.isAborted : EvalError → Bool
  | .aborted _ => true
  | _ => false

section Alike

variable {ε κ α β : Type} {type : ε → κ} {x y z : Except ε α}

-- Both computations give the same, or both fail with errors of one type.
def Alike (type : ε → κ) (x y : Except ε α) : Prop := x.mapError type = y.mapError type

namespace Alike

theorem refl (x : Except ε α) : Alike type x x := rfl

theorem symm (h : Alike type x y) : Alike type y x := Eq.symm h

theorem trans (h : Alike type x y) (h' : Alike type y z) : Alike type x z := Eq.trans h h'

theorem error {e e' : ε} (h : type e = type e') :
    Alike type (.error e : Except ε α) (.error e') :=
  congrArg Except.error h

theorem cases (h : Alike type x y) :
    (∃ a, x = .ok a ∧ y = .ok a) ∨
      ∃ e e', x = .error e ∧ y = .error e' ∧ type e = type e' := by
  cases x <;> cases y
  case error.error e e' => exact .inr ⟨e, e', rfl, rfl, Except.error.inj h⟩
  case ok.ok a b => exact .inl ⟨a, rfl, congrArg Except.ok (Except.ok.inj h).symm⟩
  all_goals cases h

theorem bind {f g : α → Except ε β} (h : Alike type x y) (hfg : ∀ a, Alike type (f a) (g a)) :
    Alike type (x >>= f) (y >>= g) := by
  obtain ⟨a, rfl, rfl⟩ | ⟨e, e', rfl, rfl, he⟩ := h.cases
  · exact hfg a
  · exact error he

end Alike
end Alike

namespace Lambda

namespace Node

mutual

def erased : Node → Node
  | .ident _ n => .ident default n
  | .literal _ v => .literal default v
  | .selector _ x n => .selector default x.erased n
  | .call _ fn args => .call default fn.erased (erasedAll args)
  | .prefixed _ op x => .prefixed default op x.erased
  | .infixed _ op x y => .infixed default op x.erased y.erased
  | .star _ x => .star default x.erased
  | .index _ x key => .index default x.erased key.erased
  | .composite _ type items => .composite default (erasedOption type) (erasedAll items)
  | .pair _ key value => .pair default key.erased value.erased
  | .lambda _ param statements result => .lambda default param statements (erasedOption result)
  | .paren _ x => .paren default x.erased
  | .arrayType _ size elem => .arrayType default (erasedOption size) elem.erased
  | .other _ kind parts => .other default kind (erasedAll parts)

def erasedAll : List Node → List Node
  | [] => []
  | n :: ns => n.erased :: erasedAll ns

def erasedOption : Option Node → Option Node
  | none => none
  | some n => some n.erased

end

theorem length_erasedAll (ns : List Node) : (erasedAll ns).length = ns.length := by
  induction ns with
  | nil => rfl
  | cons n ns ih => rw [erasedAll, List.length_cons, List.length_cons, ih]

theorem unparen_erased (n : Node) : n.erased.unparen = n.unparen.erased := by
  induction n using unparen.induct with
  | case1 s x ih => exact ih
  | case2 n hparen =>
    cases n with
    | paren s x => exact absurd rfl (hparen s x)
    | _ => rfl

end Node

namespace Scope

def erased (sc : Scope) : Scope := { sc with source := [] }

def reframe (sc : Scope) (frames : List Frame) : Scope := { sc with frames }

-- The scope of the same variables at no place of a source, inside other queries.
abbrev moved (sc : Scope) (frames : List Frame) : Scope := (sc.reframe frames).erased

variable (sc : Scope) {frames : List Frame}

section Static

theorem chain_erased (n : Node) : chain n.erased = chain n := by
  induction n using chain.induct with
  | case1 => rfl
  | case2 s x name ih => rw [Node.erased, chain, chain, ih]
  | case3 s x ih | case4 s x ih => exact ih
  | case5 n => cases n <;> first | rfl | simp_all

theorem specialCall?_erased (fn : Node) : specialCall? fn.erased = specialCall? fn := by
  cases fn with
  | ident s name => by_cases hname : name = "len" <;> simp [Node.erased, specialCall?, hname]
  | selector s x name =>
    cases x with
    | ident t pkg =>
      by_cases hname : pkg = "cmp" ∧ name = "Or"
      · obtain ⟨rfl, rfl⟩ := hname
        rfl
      · simp_all [Node.erased, specialCall?]
    | _ => rfl
  | _ => rfl

theorem packageMember?_moved (x : Node) (name : String) :
    (sc.moved frames).packageMember? x.erased name = sc.packageMember? x name := by
  cases x <;> rfl

end Static

section Evaluation

variable {sc}

abbrev AlikeEval {α : Type} (x y : Except EvalError α) : Prop := Alike EvalError.isAborted x y

def EvalsAlike (sc : Scope) (frames : List Frame) (n : Node) : Prop :=
  ∀ enclosed, AlikeEval (sc.eval enclosed n) ((sc.moved frames).eval enclosed n.erased)

theorem alike_toValue (v : Literal) (text text' : String) :
    AlikeEval (v.toValue text) (v.toValue text') := by
  cases v with
  | int n =>
    simp only [Literal.toValue]
    split
    · exact .refl _
    · exact .error rfl
  | imaginary => exact .error rfl
  | _ => exact .refl _

theorem alike_asFunction (fn fn' : Node) (count : Nat) (h : Host) :
    AlikeEval (sc.asFunction fn count h) ((sc.moved frames).asFunction fn' count h) := by
  cases h with
  | func f =>
    unfold asFunction
    dsimp only
    split
    · exact .refl _
    · exact .error rfl
  | _ => exact .error rfl

theorem alike_assignArg (fn fn' : Node) (f : HostFunction) (i : Nat) (h : Host) :
    AlikeEval (sc.assignArg fn f i h) ((sc.moved frames).assignArg fn' f i h) := by
  have hworld : (sc.moved frames).world = sc.world := rfl
  unfold assignArg
  rw [hworld]
  cases h.assign sc.world (f.paramAt i) with
  | ok a => exact .refl _
  | error e => exact .error rfl

theorem alike_finish (fn fn' : Node) (f : HostFunction) (args : List Operand) :
    AlikeEval (sc.finish fn f args) ((sc.moved frames).finish fn' f args) := by
  refine (Alike.refl (f.run args)).bind fun out => ?_
  cases out with
  | some out => exact .refl _
  | none => exact .error rfl

theorem alike_evalFirst {args : List Node} (h : ∀ a ∈ args, sc.EvalsAlike frames a)
    (last : Result) :
    AlikeEval (sc.evalFirst last args)
      ((sc.moved frames).evalFirst last (Node.erasedAll args)) := by
  induction args generalizing last with
  | nil => exact .refl _
  | cons a rest ih =>
    obtain ⟨ha, hrest⟩ := List.forall_mem_cons.mp h
    refine (ha false).bind fun r => ?_
    split
    · exact ih hrest r
    · exact .refl _

theorem alike_evalArgs {args : List Node} (h : ∀ a ∈ args, sc.EvalsAlike frames a) (fn fn' : Node)
    (f : HostFunction) (i : Nat) :
    AlikeEval (sc.evalArgs fn f i args)
      ((sc.moved frames).evalArgs fn' f i (Node.erasedAll args)) := by
  induction args generalizing i with
  | nil => exact .refl _
  | cons a rest ih =>
    obtain ⟨ha, hrest⟩ := List.forall_mem_cons.mp h
    exact (ha false).bind fun r => (alike_assignArg fn fn' f i r.value).bind fun v =>
      (ih hrest (i + 1)).bind fun _ => .refl _

theorem alike_evalItems {items : List Node} (h : ∀ a ∈ items, sc.EvalsAlike frames a)
    (whole whole' : Node) (ty : Ty) :
    AlikeEval (sc.evalItems whole ty items)
      ((sc.moved frames).evalItems whole' ty (Node.erasedAll items)) := by
  induction items with
  | nil => exact .refl _
  | cons a rest ih =>
    obtain ⟨ha, hrest⟩ := List.forall_mem_cons.mp h
    cases a with
    | pair s k v => exact .error rfl
    | _ =>
      exact (ha false).bind fun r => (Alike.refl (r.value.assign sc.world ty)).bind fun v =>
        (Alike.refl (plainItem v)).bind fun v => (ih hrest).bind fun _ => .refl _

theorem alike_evalCall {fn : Node} {args : List Node} (hfn : sc.EvalsAlike frames fn)
    (hargs : ∀ a ∈ args, sc.EvalsAlike frames a) (s : Span) :
    sc.EvalsAlike frames (.call s fn args) := by
  intro enclosed
  rw [Node.erased, eval.eq_def sc, eval.eq_def (sc.moved frames)]
  dsimp only
  rw [specialCall?_erased]
  cases specialCall? fn with
  | none =>
    refine (hfn false).bind fun r => ?_
    rw [Node.length_erasedAll]
    exact (alike_asFunction fn fn.erased args.length r.value).bind fun f =>
      (alike_evalArgs hargs fn fn.erased f 0).bind fun as => alike_finish fn fn.erased f as
  | some call =>
    cases call with
    | firstNonZero => exact alike_evalFirst hargs _
    | length | conversion t =>
      obtain _ | ⟨a, _ | ⟨b, rest⟩⟩ := args
      · exact .refl _
      · exact (hargs a List.mem_cons_self false).bind fun r => .refl _
      · exact .refl _

theorem evalsAlike (sc : Scope) (frames : List Frame) (n : Node) : sc.EvalsAlike frames n := by
  induction n using Node.ofParts with
  | step n ih =>
  cases n with
  | paren s x => exact fun _ => ih x List.mem_cons_self true
  | call s fn args =>
    obtain ⟨hfn, hargs⟩ := List.forall_mem_cons.mp ih
    exact alike_evalCall hfn hargs s
  | literal s v => exact fun _ => (alike_toValue v _ _).bind fun _ => .refl _
  | ident s name => exact fun _ => .refl _
  | selector s x name =>
    intro enclosed
    rw [Node.erased, eval, eval, packageMember?_moved]
    cases sc.packageMember? x name with
    | some h => exact .refl _
    | none => exact (ih x List.mem_cons_self false).bind fun r => .refl _
  | prefixed s op x | star s x =>
    exact fun _ => (ih x List.mem_cons_self false).bind fun r => .refl _
  | infixed s op x y =>
    have hy := ih y (List.mem_cons_of_mem _ List.mem_cons_self) false
    refine fun _ => (ih x List.mem_cons_self false).bind fun l => ?_
    split
    · exact .refl _
    · exact hy.bind fun r => .refl _
  | index s x key =>
    have hkey := ih key (List.mem_cons_of_mem _ List.mem_cons_self) false
    exact fun _ => (ih x List.mem_cons_self false).bind fun base => hkey.bind fun k => .refl _
  | composite s type items =>
    obtain ⟨-, hitems⟩ := List.forall_mem_append.mp ih
    obtain _ | type := type
    case none => exact fun _ => .error rfl
    cases type with
    | arrayType t size elem =>
      intro enclosed
      have htype : itemType elem.erased = itemType elem := by
        cases elem <;> rfl
      rw [Node.erased, Node.erasedOption, Node.erased, eval, eval, htype]
      exact (alike_evalItems hitems _ _ _).bind fun _ => .refl _
    | _ => exact fun _ => .error rfl
  | _ => exact fun _ => .error rfl

theorem alike_erased (sc : Scope) (n : Node) (enclosed : Bool) :
    AlikeEval (sc.eval enclosed n) (sc.erased.eval enclosed n.erased) :=
  sc.evalsAlike sc.frames n enclosed

-- The queries around a node tell nothing of what it evaluates to.
theorem alike_reframe (sc : Scope) (frames : List Frame) (n : Node) (enclosed : Bool) :
    AlikeEval ((sc.reframe frames).eval enclosed n) (sc.eval enclosed n) :=
  ((sc.reframe frames).evalsAlike frames n enclosed).trans (sc.evalsAlike frames n enclosed).symm

end Evaluation

end Scope
end Lambda
end QueryTree
