import QueryTree.Lambda.Query
import QueryTree.Proofs.Lambda.Agreement
import QueryTree.Proofs.Query.Legal
import QueryTree.Proofs.Sql.Outcome

namespace QueryTree.Lambda

namespace Node

-- A call of the stage `name` with `args` on the query `x`, in either notation. The package itself is
-- no query to call a stage on.
inductive Spells (x : Node) (name : String) (args : List Node) : Node → Prop
  | method (s t : Span) (hx : ∀ u, x ≠ .ident u queryPackage) :
    Spells x name args (.call s (.selector t x name) args)
  | function (s t u : Span) :
    Spells x name args (.call s (.selector t (.ident u queryPackage) name) (x :: args))

-- Chains that differ in the notation of some of their stages, wherever their parts stand.
inductive Respelled : Node → Node → Prop
  | same {n n' : Node} (h : n.erased = n'.erased) : Respelled n n'
  | paren {x x' : Node} (s s' : Span) (h : Respelled x x') : Respelled (.paren s x) (.paren s' x')
  | stage {x x' n n' : Node} {name : String} {args args' : List Node} (hn : Spells x name args n)
    (hn' : Spells x' name args' n') (hargs : erasedAll args = erasedAll args')
    (h : Respelled x x') : Respelled n n'

-- The chain `n` goes through the call or query `m`.
inductive Along : Node → Node → Prop
  | refl (n : Node) : Along n n
  | paren {x m : Node} (s : Span) (h : Along x m) : Along (.paren s x) m
  | stage {x n m : Node} {name : String} {args : List Node} (hn : Spells x name args n)
    (h : Along x m) : Along n m

-- The name of the query in a source, and the chain of stages on it: a function of the query gives
-- both, any other source is a chain on the default name.
def rooted? (n : Node) : Option (String × Node) :=
  match n.unparen with
  | .lambda _ (some p) 1 (some body) => some (p, body)
  | .lambda .. => none
  | n => some (queryRoot, n)

end Node

open Node (Spells Respelled Along)

namespace Scope

variable {sc sc' : Scope} {root name : String} {n n' x : Node} {args : List Node}

theorem query_of_spells (hroot : root ≠ queryPackage) (h : Spells x name args n) :
    sc.query root n = sc.query root x >>= fun q => sc.stage q name n args := by
  cases h with
  | method s t hx =>
    refine query_method ?_ args
    cases x with
    | ident u m =>
      have hm : m ≠ queryPackage := fun hm => hx u (by rw [hm])
      simp [isQueryPackage, hm]
    | _ => rfl
  | function s t u => exact query_function (by simpa [isQueryPackage] using hroot.symm) x args

theorem agree_query (hroot : root ≠ queryPackage) (hsc : sc.erased = sc'.erased)
    (h : Respelled n n') : Agree (sc.query root n) (sc'.query root n') := by
  induction h with
  | same h =>
    refine (sc.agree_query_erased root _).trans ?_
    rw [hsc, h]
    exact (sc'.agree_query_erased root _).symm
  | paren s s' _ ih => exact ih
  | @stage x x' n n' name args args' hn hn' hargs _ ih =>
    rw [query_of_spells hroot hn, query_of_spells hroot hn']
    refine ih.bind fun q => (sc.agree_stage q name n n args).trans ?_
    rw [hsc, hargs]
    exact (sc'.agree_stage q name n' n args').symm

section Stages

variable {q q' : Query} {call : Node}

theorem staged_ok {allowed : Bool} {next : Unit → Except Error (Option Query)}
    (h : staged q name allowed next = .ok q') : next () = .ok (some q') := by
  unfold staged at h
  split at h
  · obtain ⟨r, hr, h⟩ := Compilation.bind_ok h
    obtain _ | r := r
    · cases h
    · cases h
      exact hr
  · cases h

theorem isInt64_of_rowCount {arg : Node} {count : Int} (h : sc.rowCount arg = .ok count) :
    Number.isInt64 count = true := by
  unfold rowCount at h
  split at h
  · cases h
  · obtain ⟨r, -, h⟩ := Compilation.bind_ok h
    split at h
    · split at h
      · cases h
        exact Window.isInt64_wrap64 _
      · cases h
    · cases h

theorem built_stage (hq : q.Built) (h : sc.stage q name call args = .ok q') : q'.Built := by
  unfold stage at h
  split at h
  case h_11 => cases h
  all_goals have h := staged_ok h
  case h_6 | h_7 =>
    obtain _ | ⟨arg, _ | ⟨_, _⟩⟩ := args
    case cons.nil =>
      obtain ⟨count, hcount, h⟩ := Compilation.bind_ok h
      first
      | exact .skip hq (isInt64_of_rowCount hcount) (Except.ok.inj h)
      | exact .take hq (isInt64_of_rowCount hcount) (Except.ok.inj h)
    all_goals cases h
  case h_10 =>
    obtain _ | ⟨arg, _ | ⟨_, _⟩⟩ := args
    case cons.nil =>
      obtain ⟨columns, -, h⟩ := Compilation.bind_ok h
      exact .select hq (Except.ok.inj h)
    all_goals cases h
  all_goals obtain ⟨parts, -, h⟩ := Compilation.bind_ok h
  case h_8 =>
    split at h
    · cases h
    · exact .groupBy hq (Except.ok.inj h)
  case h_1 => exact .restrict hq (Except.ok.inj h)
  case h_9 => exact .having hq (Except.ok.inj h)
  case h_2 | h_3 => exact .orderBy hq (Except.ok.inj h)
  case h_4 | h_5 => exact .thenBy hq (Except.ok.inj h)

theorem built_query (h : sc.query root n = .ok q) : q.Built := by
  fun_induction query sc root n generalizing q with
  | case1 s x ih => exact ih h
  | case2 s name hname =>
    obtain ⟨⟨⟩, -, h⟩ := Compilation.bind_ok h
    cases h
    exact .rows _
  | case3 | case4 | case7 => cases h
  | case5 | case6 =>
    rename_i ih
    obtain ⟨q₀, hsource, h⟩ := Compilation.bind_ok h
    exact built_stage (ih hsource) h

theorem stage_thenBy (hname : name = "ThenBy" ∨ name = "ThenByDescending")
    (h : sc.stage q name call args = .ok q') :
    ∃ src keys more, q = .order src keys ∧ sc.keysOf args = .ok more ∧
      q' = .order src (keys ++ more.map (⟨·, name == "ThenBy"⟩)) := by
  have hstaged : staged q name q.isOrdered (fun _ => do
      return q.thenBy? (← sc.sortKeys call args (name == "ThenBy"))) = .ok q' := by
    obtain rfl | rfl := hname <;> exact h
  obtain ⟨keys, hkeys, h⟩ := Compilation.bind_ok (staged_ok hstaged)
  unfold sortKeys at hkeys
  split at hkeys
  · cases hkeys
  · obtain ⟨more, hmore, hkeys⟩ := Compilation.bind_ok hkeys
    cases hkeys
    cases q with
    | order src ks =>
      cases h
      exact ⟨src, ks, more, rfl, hmore, rfl⟩
    | _ => cases h

theorem query_along (hroot : root ≠ queryPackage) (h : Along n n') (hn : sc.query root n = .ok q) :
    ∃ q', sc.query root n' = .ok q' := by
  induction h generalizing q with
  | refl n => exact ⟨q, hn⟩
  | paren s _ ih => exact ih hn
  | stage hspells _ ih =>
    rw [query_of_spells hroot hspells] at hn
    obtain ⟨q₀, hsource, -⟩ := Compilation.bind_ok hn
    exact ih hsource

theorem query_thenBy (hroot : root ≠ queryPackage) (hname : name = "ThenBy" ∨ name = "ThenByDescending")
    (hcall : Spells x name args n) (h : sc.query root n = .ok q) :
    ∃ src keys more, sc.query root x = .ok (.order src keys) ∧ sc.keysOf args = .ok more ∧
      q = .order src (keys ++ more.map (⟨·, name == "ThenBy"⟩)) := by
  rw [query_of_spells hroot hcall] at h
  obtain ⟨q₀, hsource, h⟩ := Compilation.bind_ok h
  obtain ⟨src, keys, more, rfl, hmore, rfl⟩ := stage_thenBy hname h
  exact ⟨src, keys, more, hsource, hmore, rfl⟩

end Stages

end Scope

namespace Converter

-- The scope in which the stages of a source are converted.
def stageScope (c : Converter) (source : String) : Scope :=
  { c with source := source.toList, frames := [] }

theorem query_eq {c : Converter} {source root : String} {chain : Node}
    (hobject : c.object.isEmpty = false)
    (h : (Node.read? source.toList).bind Node.rooted? = some (root, chain)) :
    c.query source = (c.stageScope source).query root chain := by
  obtain ⟨n, hread, hroot⟩ := Option.bind_eq_some_iff.mp h
  unfold Node.rooted? at hroot
  unfold query read
  simp only [hobject, hread, Bool.false_eq_true, if_false]
  generalize n.unparen = m at hroot ⊢
  cases m with
  | lambda s param statements result =>
    obtain _ | p := param
    · cases hroot
    · obtain _ | _ | k := statements
      case succ.zero =>
        obtain _ | body := result
        · cases hroot
        · cases hroot
          rfl
      all_goals cases hroot
  | _ =>
    cases hroot
    rfl

-- Sources that differ in the notation of some stages give the same query, or fail with errors of
-- one type. Every stage of a query that they give stands where it may, and the keys of a further
-- order come after those of the order directly before it.
theorem query_notations_agree (c : Converter) {source source' root : String} {chain chain' : Node}
    (hroot : root ≠ queryPackage)
    (h : (Node.read? source.toList).bind Node.rooted? = some (root, chain))
    (h' : (Node.read? source'.toList).bind Node.rooted? = some (root, chain'))
    (hspelled : Respelled chain chain') :
    ((∃ q, c.query source = .ok q ∧ c.query source' = .ok q) ∨
      ∃ e e', c.query source = .error e ∧ c.query source' = .error e' ∧ e.type = e'.type) ∧
    ∀ q, c.query source = .ok q → q.isLegal = true ∧
      ∀ call x name args, Along chain call → Spells x name args call →
        (name = "ThenBy" ∨ name = "ThenByDescending") →
        ∃ src keys more, (c.stageScope source).query root x = .ok (.order src keys) ∧
          (c.stageScope source).keysOf args = .ok more ∧
          (c.stageScope source).query root call =
            .ok (.order src (keys ++ more.map (⟨·, name == "ThenBy"⟩))) := by
  cases hobject : c.object.isEmpty with
  | true =>
    have hfail : ∀ source, ∃ e, c.query source = .error e ∧ e.type = (Error.unsupported "" "").type := by
      intro source
      simp only [query, hobject, if_true]
      exact ⟨_, rfl, rfl⟩
    obtain ⟨e, he, htype⟩ := hfail source
    obtain ⟨e', he', htype'⟩ := hfail source'
    refine ⟨.inr ⟨e, e', he, he', htype.trans htype'.symm⟩, fun q hq => ?_⟩
    cases hq.symm.trans he
  | false =>
    rw [query_eq hobject h, query_eq hobject h']
    have hscope : (c.stageScope source).erased = (c.stageScope source').erased := rfl
    refine ⟨(Scope.agree_query hroot hscope hspelled).cases, fun q hq => ⟨?_, ?_⟩⟩
    · exact Query.isLegal_of_built (Scope.built_query hq)
    · intro call x name args halong hcall hname
      obtain ⟨q', hq'⟩ := Scope.query_along hroot halong hq
      obtain ⟨src, keys, more, hsource, hmore, rfl⟩ := Scope.query_thenBy hroot hname hcall hq'
      exact ⟨src, keys, more, hsource, hmore, hq'⟩

end Converter

section Checks

namespace Node

-- Whether two nodes are the same names, numbers or functions over them.
def isAlike : Node → Node → Bool
  | .ident _ a, .ident _ b => a == b
  | .literal _ (.int m), .literal _ (.int n) => m == n
  | .selector _ x a, .selector _ y b => x.isAlike y && a == b
  | .lambda _ p m (some x), .lambda _ q n (some y) => p == q && m == n && x.isAlike y
  | _, _ => false

def allAlike : List Node → List Node → Bool
  | [], [] => true
  | m :: ms, n :: ns => m.isAlike n && allAlike ms ns
  | _, _ => false

-- The query that a stage is called on, its name and its arguments.
def stage? : Node → Option (Node × String × List Node)
  | .call _ (.selector _ (.ident s n) name) args =>
    if n = queryPackage then args.head?.map (·, name, args.tail)
    else some (.ident s n, name, args)
  | .call _ (.selector _ x name) args => some (x, name, args)
  | _ => none

-- Whether two chains of a number of stages differ in notation only.
def respells : Nat → Node → Node → Bool
  | 0, m, n => m.isAlike n
  | k + 1, m, n =>
    match m.stage?, n.stage? with
    | some (x, a, args), some (y, b, args') => a == b && allAlike args args' && respells k x y
    | _, _ => false

theorem erased_of_isAlike {m n : Node} (h : m.isAlike n = true) : m.erased = n.erased := by
  induction m, n using isAlike.induct with
  | case1 s a t b => simpa [isAlike, erased] using h
  | case2 s a t b => simpa [isAlike, erased] using h
  | case3 s x a t y b ih =>
    obtain ⟨hxy, hab⟩ := Bool.and_eq_true_iff.mp h
    rw [erased, erased, ih hxy, eq_of_beq hab]
  | case4 s p m x t q n y ih =>
    obtain ⟨hpm, hxy⟩ := Bool.and_eq_true_iff.mp h
    obtain ⟨hp, hm⟩ := Bool.and_eq_true_iff.mp hpm
    rw [erased, erased, erasedOption, erasedOption, ih hxy, eq_of_beq hp, eq_of_beq hm]
  | case5 => simp_all [isAlike]

theorem erasedAll_of_allAlike {ms ns : List Node} (h : allAlike ms ns = true) :
    erasedAll ms = erasedAll ns := by
  induction ms, ns using allAlike.induct with
  | case1 => rfl
  | case2 m ms n ns ih =>
    obtain ⟨hm, hms⟩ := Bool.and_eq_true_iff.mp h
    rw [erasedAll, erasedAll, erased_of_isAlike hm, ih hms]
  | case3 => simp_all [allAlike]

theorem spells_of_stage? {n x : Node} {name : String} {args : List Node}
    (h : n.stage? = some (x, name, args)) : Spells x name args n := by
  unfold stage? at h
  split at h
  · split at h
    · next hn =>
      subst hn
      obtain ⟨y, hy, heq⟩ := Option.map_eq_some_iff.mp h
      obtain ⟨rest, rfl⟩ := List.head?_eq_some_iff.mp hy
      cases heq
      exact .function _ _ _
    · next hn =>
      cases h
      exact .method _ _ fun u heq => hn (ident.inj heq).2
  · next hx =>
    cases h
    exact .method _ _ fun u heq => hx _ _ heq
  · cases h

theorem respelled_of_respells {k : Nat} {m n : Node} (h : respells k m n = true) :
    Respelled m n := by
  induction k generalizing m n with
  | zero => exact .same (erased_of_isAlike h)
  | succ k ih =>
    unfold respells at h
    split at h
    · next x a args y b args' hm hn =>
      obtain ⟨hstage, hxy⟩ := Bool.and_eq_true_iff.mp h
      obtain ⟨hab, hargs⟩ := Bool.and_eq_true_iff.mp hstage
      cases eq_of_beq hab
      exact .stage (spells_of_stage? hm) (spells_of_stage? hn) (erasedAll_of_allAlike hargs)
        (ih hxy)
    · cases h

end Node

end Checks

namespace Converter

def ofUsers : Converter where
  row := some (.record [⟨"Age", .int .int, some "age", false⟩, ⟨"Name", .text, none, false⟩])
  object := "User"

def byAge : String := "func(u User) any \x7b return u.Age \x7d"

def byName : String := "func(u User) any \x7b return u.Name \x7d"

def byMethods : String := "q.OrderBy(" ++ byAge ++ ").ThenBy(" ++ byName ++ ").Take(2)"

def byFunction : String := "query.ThenBy(q.OrderBy(" ++ byAge ++ "), " ++ byName ++ ").Take(2)"

-- The first two rows of an order by two keys, of which a function gives the second.
theorem query_notations_agree_paged :
    ∃ (chain chain' call x : Node) (args : List Node) (q src : Query) (keys : List (SortKey Expr))
      (more : List Expr),
      (Node.read? byMethods.toList).bind Node.rooted? = some ("q", chain) ∧
      (Node.read? byFunction.toList).bind Node.rooted? = some ("q", chain') ∧
      Respelled chain' chain ∧
      ofUsers.query byMethods = .ok q ∧ ofUsers.query byFunction = .ok q ∧
      Expr.displayQuery q = "From(User).OrderBy(age ASC, Name ASC).Section(0, 2)" ∧
      Along chain' call ∧ Spells x "ThenBy" args call ∧
      (ofUsers.stageScope byFunction).query "q" x = .ok (.order src keys) ∧
      (ofUsers.stageScope byFunction).keysOf args = .ok more ∧
      (ofUsers.stageScope byFunction).query "q" call =
        .ok (.order src (keys ++ more.map (⟨·, true⟩))) := by
  have hread : ((Node.read? byMethods.toList).bind Node.rooted?).bind (fun r =>
      ((Node.read? byFunction.toList).bind Node.rooted?).bind fun r' =>
        r'.2.stage?.bind fun paged => paged.1.stage?.map fun ordered =>
          (r.1, r'.1, Node.respells 3 r'.2 r.2, ordered.2.1)) = some ("q", "q", true, "ThenBy") := by
    decide +kernel
  have hquery : (ofUsers.query byMethods).toOption.map Expr.displayQuery =
      some "From(User).OrderBy(age ASC, Name ASC).Section(0, 2)" := by
    decide +kernel
  obtain ⟨⟨root, chain⟩, hchain, hread⟩ := Option.bind_eq_some_iff.mp hread
  obtain ⟨⟨root', chain'⟩, hchain', hread⟩ := Option.bind_eq_some_iff.mp hread
  obtain ⟨⟨call, take, counts⟩, htake, hread⟩ := Option.bind_eq_some_iff.mp hread
  obtain ⟨⟨x, name, args⟩, hthenBy, heq⟩ := Option.map_eq_some_iff.mp hread
  simp only [Prod.mk.injEq] at heq
  obtain ⟨rfl, rfl, hrespells, rfl⟩ := heq
  have hspelled := Node.respelled_of_respells hrespells
  have hthenBy := Node.spells_of_stage? hthenBy
  have halong : Along chain' call := .stage (Node.spells_of_stage? htake) (.refl call)
  obtain ⟨hagree, hstages⟩ :=
    query_notations_agree ofUsers (by decide) hchain' hchain hspelled
  obtain ⟨q, hq', hq⟩ | ⟨e, e', -, he, -⟩ := hagree
  · rw [hq] at hquery
    obtain ⟨src, keys, more, hx, hmore, hcall⟩ :=
      (hstages q hq').2 call x "ThenBy" args halong hthenBy (.inl rfl)
    exact ⟨chain, chain', call, x, args, q, src, keys, more, hchain, hchain', hspelled, hq, hq',
      Option.some.inj hquery, halong, hthenBy, hx, hmore, hcall⟩
  · rw [he] at hquery
    cases hquery

end Converter
end QueryTree.Lambda
