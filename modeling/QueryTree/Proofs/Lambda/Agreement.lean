import QueryTree.Proofs.Lambda.ParallelQuery

namespace QueryTree.Lambda

abbrev Agree {α : Type} (x y : Except Error α) : Prop := Alike Error.type x y

namespace Scope

variable {sc : Scope} {n : Node}

section Folding

theorem depends_erased (sc : Scope) (n : Node) : sc.erased.depends n.erased = sc.depends n :=
  depends_recast (fun _ => rfl) n

theorem type_evalFailure (e : EvalError) :
    (sc.evalFailure n e).type =
      if e.isAborted then (Error.aborted none).type
      else (Error.evaluation "" .lengthArity).type := by
  cases e <;> rfl

theorem agree_evalResult (sc : Scope) (n : Node) :
    Agree (sc.evalResult n) (sc.erased.evalResult n.erased) := by
  unfold evalResult
  obtain ⟨r, hr, hr'⟩ | ⟨e, e', he, he', htype⟩ := (sc.alike_erased n false).cases
  · rw [hr, hr']
    exact .refl _
  · rw [he, he']
    exact .error (by rw [type_evalFailure, type_evalFailure, htype])

theorem agree_fold (sc : Scope) (n : Node) : Agree (sc.fold n) (sc.erased.fold n.erased) := by
  refine (sc.agree_evalResult n).bind fun r => ?_
  split
  · exact .refl _
  · exact .refl _
  · exact .refl _
  · exact .error rfl

theorem agree_isZero (sc : Scope) (n : Node) :
    Agree (sc.isZero n) (sc.erased.isZero n.erased) := by
  unfold isZero
  rw [depends_erased]
  obtain ⟨r, hr, hr'⟩ | ⟨e, e', he, he', htype⟩ := (sc.alike_erased n false).cases
  · rw [hr, hr']
    exact .refl _
  · rw [he, he']
    split
    · exact .refl _
    · cases e <;> cases e' <;> first | exact .refl _ | exact .error rfl | cases htype

theorem agree_rowCount (sc : Scope) (arg : Node) :
    Agree (sc.rowCount arg) (sc.erased.rowCount arg.erased) := by
  unfold rowCount
  rw [depends_erased]
  split
  · exact .error rfl
  · refine (sc.agree_evalResult arg).bind fun r => ?_
    split
    · split
      · exact .refl _
      · exact .error rfl
    · exact .error rfl

end Folding

section Conversion

theorem fits_equal (sc : Scope) : Link.equal.Fits sc.toConverter sc.env where
  types _ := rfl
  unary _ _ := rfl
  compare _ _ _ := rfl
  compute _ _ _ := rfl
  call := by simp [Link.equal]
  aggregate := by simp [Link.equal]
  join := by simp [Link.equal]
  related := by simp [Link.equal]
  isLogic h := congrArg Expr.isLogic h
  isStringy sc n _ _ h := congrArg (sc.isStringy n) h
  isPredicate sc n _ _ h := congrArg (sc.isPredicate n) h
  receiverType sc n _ _ h := congrArg (sc.receiverType n) h
  handlers _ r r' args args' hr hargs := by
    obtain rfl : r = r' := hr
    obtain rfl : args = args' := by simpa [Link.equal] using hargs
    exact .refl _

def ConvertsAlike (n : Node) : Prop :=
  ∀ sc : Scope, Agree (sc.convert n) (sc.erased.convert n.erased)

theorem equal_comparison (sc : Scope) {s : Span} {op : InfixOp} {o : LogicOp} {x y : Node}
    (ho : comparison? op = some o) (hdepends : sc.depends (.infixed s op x y) = true)
    (hx : ∀ m ∈ x.nodes, Link.equal.Converts sc sc.env m)
    (hy : ∀ m ∈ y.nodes, Link.equal.Converts sc sc.env m) :
    Link.equal.Converts sc sc.env (.infixed s op x y) := by
  have hk := sc.fits_equal
  have hdepends' := (depends_recast hk.types (.infixed s op x y)).trans hdepends
  have hzero n := Link.equal_iff.mpr (sc.agree_isZero n)
  unfold Link.Converts
  rw [Node.erased] at hdepends' ⊢
  rw [convert.eq_def sc, convert.eq_def (sc.recast sc.env)]
  simp only [hdepends, hdepends', if_true, ho, isCompareCall_recast hk.types]
  refine (hzero y).bind_eq fun yzero => ?_
  split
  · exact links_comparands hk hx o
  · refine (hzero x).bind_eq fun xzero => ?_
    split
    · exact links_comparands hk hy _
    · exact links_compared hk o (hx x x.mem_nodes_self) (hy y y.mem_nodes_self)

theorem settles_equal (sc : Scope) (n : Node) : Link.equal.Settles sc sc.env n where
  folds m _ frames := Link.equal_iff.mpr ((sc.reframe frames).agree_fold m)
  compares _ _ _ _ _ _ ho frames := equal_comparison (sc.reframe frames) ho

theorem convertsAlike (n : Node) : ConvertsAlike n :=
  fun sc => Link.equal_iff.mp (converts sc.fits_equal (sc.settles_equal n) sc.frames)

theorem agree_comparands (sc : Scope) (o : LogicOp) (n : Node) :
    Agree (sc.comparands o n) (sc.erased.comparands o n.erased) :=
  Link.equal_iff.mp (links_comparands sc.fits_equal
    (fun m _ => Link.equal_iff.mpr (convertsAlike m sc)) o)

theorem convertsInside_equal (sc : Scope) (n : Node) : Link.equal.ConvertsInside sc sc.env n :=
  fun m _ frames => converts sc.fits_equal (sc.settles_equal m) frames

theorem mapParts_equal (q : Query) : q.mapParts Link.equal.view = q :=
  Query.mapParts_eq_self fun _ _ => rfl

theorem agree_of_links {x y : Except Error Query} (h : Link.equal.LinksQueries x y) : Agree x y :=
  Link.equal_iff.mp (h.imp fun q r hqr => by rwa [mapParts_equal, mapParts_equal] at hqr)

theorem agree_stage (sc : Scope) (q : Query) (name : String) (call call' : Node)
    (args : List Node) :
    Agree (sc.stage q name call args) (sc.erased.stage q name call' (Node.erasedAll args)) :=
  agree_of_links <| rel_stage sc.fits_equal rfl (fun a _ => sc.convertsInside_equal a)
    fun _ a _ => Link.equal_iff.mpr (sc.agree_rowCount a)

theorem agree_query_erased (sc : Scope) (root : String) (n : Node) :
    Agree (sc.query root n) (sc.erased.query root n.erased) :=
  agree_of_links <| rel_query sc.fits_equal root (sc.convertsInside_equal n)
    fun _ _ _ _ _ _ _ a _ => Link.equal_iff.mpr (sc.agree_rowCount a)

end Conversion

end Scope
end QueryTree.Lambda
