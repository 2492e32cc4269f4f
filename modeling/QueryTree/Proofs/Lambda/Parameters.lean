import QueryTree.Lambda.Query
import QueryTree.Proofs.Lambda.Forms

namespace QueryTree.Lambda

namespace Scope

variable {sc : Scope} {env : List (String × Host)}

abbrev OneQueryForm (x y : Except Error Query) : Prop := Both (fun q r => q.form = r.form) x y

-- The numbers of rows to skip and to take are the same in both conversions.
def CountsAgree (sc : Scope) (env : List (String × Host)) (n : Node) : Prop :=
  ∀ s t x name args, Node.call s (.selector t x name) args ∈ n.nodes →
    name = "Skip" ∨ name = "Take" →
      ∀ a ∈ args, Both Eq (sc.rowCount a) ((sc.rebind env).rowCount a)

theorem CountsAgree.within {n m : Node} (h : sc.CountsAgree env n) (hm : m ∈ n.nodes) :
    sc.CountsAgree env m :=
  fun s t x name args hx => h s t x name args (Node.nodes_trans hm _ hx)

theorem both_query (huniform : sc.toConverter.IsUniform) (henv : SameTypes sc.env env)
    (root : String) {n : Node} (hn : sc.Settled env n) (hcounts : sc.CountsAgree env n) :
    OneQueryForm (sc.query root n) ((sc.rebind env).query root n) := by
  have hk := fits_form henv huniform
  have hinside : Link.form.ConvertsInside sc env n := fun m hm =>
    converts hk ((hn.settles henv huniform).within hm)
  have hrows : Link.form.CountsRows sc env n := fun s t x name args hm hname a ha =>
    Link.form_iff.mpr (both_of_alike (.refl _) (agree_rowCount _ a)
      (hcounts s t x name args hm hname a ha))
  exact both_of_alike (.refl _) (agree_query_erased _ root n).symm
    (Link.form_iff.mp (rel_query hk root hinside hrows))

end Scope

namespace Converter

def rebind (c : Converter) (env : List (String × Host)) : Converter := { c with env }

-- The scope of a source outside of all its functions.
def outside (c : Converter) (source : String) : Scope :=
  { c with source := source.toList, frames := [] }

theorem read_outside {c : Converter} {source param : String} {sc : Scope} {n : Node}
    (h : c.read source param = .ok (sc, n)) :
    sc = (c.outside source).reframe sc.frames ∧
      ∃ m, Node.read? source.toList = some m ∧ n ∈ m.nodes := by
  unfold read at h
  simp only at h
  split at h
  case h_1 => cases h
  case h_2 m hm =>
    have hnode := m.unparen_mem_nodes
    split at h
    case h_1 s p body hlambda =>
      cases h
      rw [hlambda] at hnode
      refine ⟨rfl, m, hm, ?_⟩
      exact Node.nodes_trans hnode n (Node.part_mem_nodes List.mem_cons_self)
    case h_2 =>
      unfold Scope.lambdaFault at h
      split_ifs at h <;> cases h
    case h_3 =>
      cases h
      exact ⟨rfl, m, hm, hnode⟩

theorem read_rebind (c : Converter) (source param : String) (env : List (String × Host)) :
    (c.rebind env).read source param =
      (c.read source param).map fun p => (p.1.rebind env, p.2) := by
  unfold read
  dsimp only
  split
  case h_1 => rfl
  case h_2 m hm =>
    split
    case h_1 => rfl
    case h_2 =>
      unfold Scope.lambdaFault
      split_ifs <;> rfl
    case h_3 => rfl

variable {c : Converter} {env : List (String × Host)} {source param : String}

theorem both_read :
    Both (fun p q => q = (p.1.rebind env, p.2) ∧ p.1 = (c.outside source).reframe p.1.frames ∧
        ∃ m, Node.read? source.toList = some m ∧ p.2 ∈ m.nodes)
      (c.read source param) ((c.rebind env).read source param) := by
  rw [read_rebind]
  intro p q hp hq
  rw [hp] at hq
  cases hq
  exact ⟨rfl, read_outside hp⟩

-- The choices that a conversion makes by values are the same with both sets of variables.
def Settled (c : Converter) (env : List (String × Host)) (source : String) : Prop :=
  ∀ m, Node.read? source.toList = some m → (c.outside source).Settled env m

-- So are the numbers of rows to skip and to take.
def CountsAgree (c : Converter) (env : List (String × Host)) (source : String) : Prop :=
  ∀ m, Node.read? source.toList = some m → (c.outside source).CountsAgree env m

section Conversions

variable (hc : c.IsUniform) (henv : SameTypes c.env env) (hsettled : c.Settled env source)

include hc henv hsettled

theorem oneForm_expression :
    OneForm (c.expression source) ((c.rebind env).expression source) := by
  refine both_read.bind fun p q hpq => ?_
  obtain ⟨rfl, hsc, m, hm, hn⟩ := hpq
  dsimp only
  rw [hsc]
  exact Scope.oneForm_convert henv hc (((hsettled m hm).within hn).reframe p.1.frames)

theorem oneForm_predicate :
    OneForm (c.predicate source) ((c.rebind env).predicate source) := by
  refine (oneForm_expression hc henv hsettled).bind fun d e h => ?_
  split
  · split
    · exact Both.ok h
    · exact Both.error_right
  · exact Both.error_left

theorem oneForm_query (hcounts : c.CountsAgree env source) :
    Scope.OneQueryForm (c.query source) ((c.rebind env).query source) := by
  have hobject : (c.rebind env).object = c.object := rfl
  unfold query
  rw [hobject]
  dsimp only
  split
  · exact Both.error_left
  · refine both_read.bind fun p q hpq => ?_
    obtain ⟨rfl, hsc, m, hm, hn⟩ := hpq
    dsimp only
    rw [hsc]
    exact Scope.both_query hc henv _ ((hsettled m hm).within hn) ((hcounts m hm).within hn)

end Conversions

end Converter

-- With no functions and handlers but those that every lambda may use, a converter is uniform.
theorem Converter.isUniform_of_plain {c : Converter} (hfuncs : c.funcs = [])
    (hmethods : ∀ m ∈ c.world.methods, m ∈ methods) (hhandlers : c.handlers = {}) :
    c.IsUniform where
  funcs := by simp [hfuncs]
  methods m hm := methods_uniform m (hmethods m hm)
  handlers t name handler h := by
    rw [hhandlers] at h
    obtain h | h := HandlerTable.mem_of_find? h <;> cases h

theorem sameTypes_of_forall₂ {env env' : List (String × Host)}
    (h : List.Forall₂ (fun p q => p.1 = q.1 ∧ p.2.Akin q.2) env env') : SameTypes env env' := by
  intro name
  induction h with
  | nil => exact .none
  | @cons p q _ _ hpq _ ih =>
    obtain ⟨k, g⟩ := p
    obtain ⟨k', g'⟩ := q
    obtain ⟨hk, hg⟩ := hpq
    cases hk
    simp only [List.lookup_cons]
    cases name == k with
    | true => exact .some hg
    | false => exact ih

section Checks

def agree {ε α β : Type} (test : α → β → Bool) : Except ε α → Except ε β → Bool
  | .ok a, .ok b => test a b
  | _, _ => true

theorem both_of_agree {ε α β : Type} {test : α → β → Bool} {R : α → β → Prop} {x : Except ε α}
    {y : Except ε β} (h : agree test x y = true) (htest : ∀ a b, test a b = true → R a b) :
    Both R x y := by
  rintro a b rfl rfl
  exact htest a b h

def Result.isSameForm (r s : Result) : Bool :=
  r.constant == s.constant &&
    match r.value, s.value with
    | .value v, .value w => v.isSimple && w.isSimple && v.ty? == w.ty?
    | _, _ => false

theorem Result.sameForm_of_isSameForm (r s : Result) (h : r.isSameForm s = true) :
    r.SameForm s := by
  obtain ⟨g, c⟩ := r
  obtain ⟨g', c'⟩ := s
  obtain ⟨hc, hvalue⟩ := Bool.and_eq_true_iff.mp h
  refine ⟨by simpa using hc, ?_⟩
  cases g with
  | expr | func => cases hvalue
  | value v =>
    cases g' with
    | expr | func => cases hvalue
    | value w =>
      obtain ⟨hsimple, ht⟩ := Bool.and_eq_true_iff.mp hvalue
      obtain ⟨hv, hw⟩ := Bool.and_eq_true_iff.mp hsimple
      exact .value (.simple hv hw (Value.type_of_beq ht))

namespace Scope

def zerosMatch (sc : Scope) (env : List (String × Host)) (n : Node) : Bool :=
  agree (fun r s : Result => isZeroNumber r.value == isZeroNumber s.value) (sc.eval false n)
    ((sc.rebind env).eval false n)

-- Whether the choices by values that a node makes itself come out the same.
def settlesAt (sc : Scope) (env : List (String × Host)) (m : Node) : Bool :=
  (!m.isPick || agree Result.isSameForm (sc.eval false m) ((sc.rebind env).eval false m)) &&
    match m with
    | .infixed _ _ x y =>
      (!x.isOrderCall || sc.zerosMatch env y) && (!y.isOrderCall || sc.zerosMatch env x)
    | _ => true

theorem settled_of_settlesAt {sc : Scope} {env : List (String × Host)} {n : Node}
    (h : n.nodes.all (sc.settlesAt env) = true) : sc.Settled env n := by
  have hzeros : ∀ m, sc.zerosMatch env m = true → sc.ZerosAgree env m :=
    fun m hm => both_of_agree hm fun r s hrs => by simpa using hrs
  have hnode := List.all_eq_true.mp h
  refine { picks := fun m hm hpick => ?_, zeros := fun s op x y hm => ?_ }
  · obtain ⟨hm, -⟩ := Bool.and_eq_true_iff.mp (hnode m hm)
    rw [hpick, Bool.not_true, Bool.false_or] at hm
    exact both_of_agree hm Result.sameForm_of_isSameForm
  · obtain ⟨-, hm⟩ := Bool.and_eq_true_iff.mp (hnode _ hm)
    obtain ⟨hy, hx⟩ := Bool.and_eq_true_iff.mp hm
    refine ⟨fun hcall => hzeros y ?_, fun hcall => hzeros x ?_⟩
    · simpa [hcall] using hy
    · simpa [hcall] using hx

-- Whether a node that skips or takes rows does so for the same number of them.
def countsMatchAt (sc : Scope) (env : List (String × Host)) : Node → Bool
  | .call _ (.selector _ _ name) args =>
    !(name == "Skip" || name == "Take") || args.all fun a =>
      agree (· == ·) (sc.rowCount a) ((sc.rebind env).rowCount a)
  | _ => true

theorem countsAgree_of_countsMatchAt {sc : Scope} {env : List (String × Host)} {n : Node}
    (h : n.nodes.all (sc.countsMatchAt env) = true) : sc.CountsAgree env n := by
  intro s t x name args hm hname a ha
  have hcall := List.all_eq_true.mp h _ hm
  have hcounted : (name == "Skip" || name == "Take") = true := by simpa using hname
  rw [countsMatchAt, hcounted, Bool.not_true, Bool.false_or] at hcall
  exact both_of_agree (List.all_eq_true.mp hcall a ha) fun m n hmn => by simpa using hmn

end Scope

namespace Converter

def settles (c : Converter) (env : List (String × Host)) (source : String) : Bool :=
  (Node.read? source.toList).all fun m => m.nodes.all ((c.outside source).settlesAt env)

def countsMatch (c : Converter) (env : List (String × Host)) (source : String) : Bool :=
  (Node.read? source.toList).all fun m => m.nodes.all ((c.outside source).countsMatchAt env)

theorem settled_of_settles {c : Converter} {env : List (String × Host)} {source : String}
    (h : c.settles env source = true) : c.Settled env source := by
  intro m hm
  rw [settles, hm] at h
  exact Scope.settled_of_settlesAt h

theorem countsAgree_of_countsMatch {c : Converter} {env : List (String × Host)} {source : String}
    (h : c.countsMatch env source = true) : c.CountsAgree env source := by
  intro m hm
  rw [countsMatch, hm] at h
  exact Scope.countsAgree_of_countsMatchAt h

end Converter

end Checks

-- The values of variables only become parameters. For all converters, for all sources and for all
-- variables of the same names and types, two conversions give trees of one form, as long as they
-- make the same choices.
theorem variables_become_parameters (c : Converter) (env : List (String × Host)) (source : String)
    (hc : c.IsUniform) (henv : SameTypes c.env env) (hsettled : c.Settled env source) :
    OneForm (c.expression source) ((c.rebind env).expression source) ∧
      OneForm (c.predicate source) ((c.rebind env).predicate source) ∧
      (c.CountsAgree env source →
        Scope.OneQueryForm (c.query source) ((c.rebind env).query source)) :=
  ⟨Converter.oneForm_expression hc henv hsettled, Converter.oneForm_predicate hc henv hsettled,
    Converter.oneForm_query hc henv hsettled⟩

def ofVariables (n : Int) (s : String) (flag : Bool) : Converter where
  row := some (.record [⟨"Age", .int .int, some "age", false⟩, ⟨"Name", .text, none, false⟩])
  object := "Member"
  env := [("n", .value (.int .int n)), ("s", .value (.text s)), ("flag", .value (.bool flag))]
  world := plainWorld default

theorem isUniform_ofVariables (n : Int) (s : String) (flag : Bool) :
    (ofVariables n s flag).IsUniform :=
  Converter.isUniform_of_plain rfl (fun _ h => h) rfl

theorem sameTypes_ofVariables (n n' : Int) (s s' : String) (flag flag' : Bool) :
    SameTypes (ofVariables n s flag).env (ofVariables n' s' flag').env :=
  sameTypes_of_forall₂ <|
    .cons ⟨rfl, .value (.simple rfl rfl rfl)⟩ <|
    .cons ⟨rfl, .value (.simple rfl rfl rfl)⟩ <|
    .cons ⟨rfl, .value (.simple rfl rfl rfl)⟩ .nil

-- The tests of a picked number, of a folded text and of a truth value.
def memberPredicate : String :=
  "func(m Member) bool \x7b return cmp.Compare(m.Age, cmp.Or(n, 5) * 2) > 0 && " ++
    "(flag || m.Name == strings.ToUpper(s)) \x7d"

def memberQuery : String := "q.Where(" ++ memberPredicate ++ ").Take(len([]int\x7bn, n\x7d))"

theorem exists_of_toOption {ε α β : Type} {x : Except ε α} {f : α → β} {b : β}
    (h : x.toOption.map f = some b) : ∃ a, x = .ok a ∧ f a = b := by
  cases x with
  | error e => cases h
  | ok a => exact ⟨a, rfl, Option.some.inj h⟩

theorem variables_become_parameters_members :
    (ofVariables 3 "b" true).IsUniform ∧
      SameTypes (ofVariables 3 "b" true).env (ofVariables 4 "x" false).env ∧
      (ofVariables 3 "b" true).Settled (ofVariables 4 "x" false).env memberPredicate ∧
      (ofVariables 3 "b" true).Settled (ofVariables 4 "x" false).env memberQuery ∧
      (ofVariables 3 "b" true).CountsAgree (ofVariables 4 "x" false).env memberQuery ∧
      (∃ d e, (ofVariables 3 "b" true).predicate memberPredicate = .ok d ∧
        (ofVariables 4 "x" false).predicate memberPredicate = .ok e ∧
        d.display = "((age > @6) AND (@true OR (Name = @\"B\")))" ∧
        e.display = "((age > @8) AND (@false OR (Name = @\"X\")))" ∧ d.form = e.form) ∧
      ∃ q r, (ofVariables 3 "b" true).query memberQuery = .ok q ∧
        (ofVariables 4 "x" false).query memberQuery = .ok r ∧
        Expr.displayQuery q =
          "From(Member).Where(((age > @6) AND (@true OR (Name = @\"B\")))).Section(0, 2)" ∧
        Expr.displayQuery r =
          "From(Member).Where(((age > @8) AND (@false OR (Name = @\"X\")))).Section(0, 2)" ∧
        q.form = r.form := by
  have hc := isUniform_ofVariables 3 "b" true
  have henv := sameTypes_ofVariables 3 4 "b" "x" true false
  -- The kernel reads each source once, as all that is asked of it is asked together.
  obtain ⟨hsettles, hd, he⟩ :
      (ofVariables 3 "b" true).settles (ofVariables 4 "x" false).env memberPredicate = true ∧
        ((ofVariables 3 "b" true).predicate memberPredicate).toOption.map Expr.display =
          some "((age > @6) AND (@true OR (Name = @\"B\")))" ∧
        ((ofVariables 4 "x" false).predicate memberPredicate).toOption.map Expr.display =
          some "((age > @8) AND (@false OR (Name = @\"X\")))" := by
    decide +kernel
  obtain ⟨hsettles', hmatch, hq, hr⟩ :
      (ofVariables 3 "b" true).settles (ofVariables 4 "x" false).env memberQuery = true ∧
        (ofVariables 3 "b" true).countsMatch (ofVariables 4 "x" false).env memberQuery = true ∧
        ((ofVariables 3 "b" true).query memberQuery).toOption.map Expr.displayQuery =
          some "From(Member).Where(((age > @6) AND (@true OR (Name = @\"B\")))).Section(0, 2)" ∧
        ((ofVariables 4 "x" false).query memberQuery).toOption.map Expr.displayQuery =
          some "From(Member).Where(((age > @8) AND (@false OR (Name = @\"X\")))).Section(0, 2)" :=
    by decide +kernel
  have hsettled := Converter.settled_of_settles hsettles
  have hquery := Converter.settled_of_settles hsettles'
  have hcounts := Converter.countsAgree_of_countsMatch hmatch
  obtain ⟨d, hd, hdtext⟩ := exists_of_toOption hd
  obtain ⟨e, he, hetext⟩ := exists_of_toOption he
  obtain ⟨q, hq, hqtext⟩ := exists_of_toOption hq
  obtain ⟨r, hr, hrtext⟩ := exists_of_toOption hr
  have hexpr := (variables_become_parameters _ _ memberPredicate hc henv hsettled).2.1
  have hform := (variables_become_parameters _ _ memberQuery hc henv hquery).2.2 hcounts
  exact ⟨hc, henv, hsettled, hquery, hcounts,
    ⟨d, e, hd, he, hdtext, hetext, hexpr d e hd he⟩,
    ⟨q, r, hq, hr, hqtext, hrtext, hform q r hq hr⟩⟩

theorem not_oneForm {x y : Except Error Expr} {s t : String}
    (hx : x.toOption.map (fun e => e.form.display) = some s)
    (hy : y.toOption.map (fun e => e.form.display) = some t) (hne : s ≠ t) : ¬OneForm x y := by
  intro h
  obtain ⟨d, hd, rfl⟩ := exists_of_toOption hx
  obtain ⟨e, he, rfl⟩ := exists_of_toOption hy
  exact hne (congrArg Expr.display (h d e hd he))

-- A picked variable becomes a parameter, but the constant that is picked in place of a zero stays
-- one. By the variable that a compare call is compared with, the call stays or not, and what is at
-- an index of a list of anything may be null.
theorem choices_change_form :
    (ofVariables 0 "b" true).IsUniform ∧
      SameTypes (ofVariables 0 "b" true).env (ofVariables 1 "b" true).env ∧
      ((ofVariables 0 "b" true).expression "cmp.Or(n, 5)").toOption.map Expr.display = some "5" ∧
      ((ofVariables 1 "b" true).expression "cmp.Or(n, 5)").toOption.map Expr.display =
        some "@1" ∧
      ∀ source ∈ ["cmp.Or(n, 5)", "x.Age.Compare(7) == n", "[]any\x7bnil, 5\x7d[n]"],
        ¬OneForm ((ofVariables 0 "b" true).expression source)
          ((ofVariables 1 "b" true).expression source) := by
  refine ⟨isUniform_ofVariables 0 "b" true, sameTypes_ofVariables 0 1 "b" "b" true true,
    by decide +kernel, by decide +kernel, ?_⟩
  simp only [List.forall_mem_cons, List.not_mem_nil, IsEmpty.forall_iff, implies_true, and_true]
  refine ⟨?_, ?_, ?_⟩
  · exact not_oneForm (s := "5") (t := "@<nil>") (by decide +kernel) (by decide +kernel) (by decide)
  · exact not_oneForm (s := "(age = 7)") (t := "(Compare(age, 7) = @<nil>)") (by decide +kernel)
      (by decide +kernel) (by decide)
  · exact not_oneForm (s := "NULL") (t := "@<nil>") (by decide +kernel) (by decide +kernel)
      (by decide)

end QueryTree.Lambda
