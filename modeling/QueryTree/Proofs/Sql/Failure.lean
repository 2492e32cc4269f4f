import QueryTree.Proofs.Codec.Transmission
import QueryTree.Proofs.Codec.Validity
import QueryTree.Proofs.Sql.Trait
import QueryTree.Schema.Basic

namespace QueryTree

open Text (isIdentifier)

namespace Error

mutual

-- The reasons for which expressions were refused, those of wrapped causes included.
def reasons : Error → List String
  | .unsupported _ reason => [reason]
  | .decodeCause _ cause | .within _ cause => cause.reasons
  | .several causes => reasonsOf causes
  | _ => []

def reasonsOf : List Error → List String
  | [] => []
  | e :: es => e.reasons ++ reasonsOf es

end

def malformedReasons : List String :=
  ["invalid unary operator", "invalid logic operator", "invalid value operator",
    "unknown set kind", "unknown node", "unknown query stage",
    "constant must be a boolean or number"]

-- Errors that say that an expression is malformed: a name that is no identifier, a stage where it
-- may not stand, an unknown operator or kind, or a constant that cannot be written.
def isMalformed (e : Error) : Bool :=
  e.classes.contains .invalidIdentifier || e.classes.contains .invalidPipeline ||
    e.reasons.any malformedReasons.contains

end Error

theorem SetKind.cases_of_isValid {kind : SetKind} (h : kind.isValid = true) :
    (kind.isLogical || kind == .list || kind == .concat) = true := by
  have table : ∀ x ∈ SetKind.table, (x.1.isLogical || x.1 == .list || x.1 == .concat) = true := by
    decide
  obtain ⟨name, hname⟩ := Option.isSome_iff_exists.mp h
  exact table (kind, name) (mem_of_lookup hname)

namespace Engine

theorem literal_error (g : Engine) {v : Value} {err : Error}
    (h : g.dialect.literal v = .error err) : err.isMalformed = false := by
  have hwrite : ∀ yes no, writeLiteral v yes no = .error err → err.isMalformed = false := by
    intro yes no hv
    unfold writeLiteral at hv
    split at hv
    · cases hv
    · cases hv
    · cases hv
    · cases hv
      rfl
  cases g <;> exact hwrite _ _ h

theorem paging_ok (g : Engine) (skip take : Int) (ordered : Bool) :
    ∃ s, g.dialect.paging skip take ordered = .ok s := by
  cases g <;> exact ⟨_, rfl⟩

end Engine

-- Errors that a resolver reports.
def Resolver.Reports (r : Resolver) (err : Error) : Prop :=
  (∃ object, r.table object = .error err) ∨
    (∃ object property, r.column object property = .error err) ∨
    ∃ object name, r.relation object name = .error err

namespace Render

variable {α β : Type} {P : Error → Prop} {r : Render α} {f : α → Render β}

def FailsWith (P : Error → Prop) (r : Render α) : Prop :=
  ∀ out err, r out = .error err → P err

theorem failsWith_pure (a : α) : FailsWith P (pure a) := fun _ _ h => nomatch h

theorem FailsWith.bind (h : FailsWith P r) (hf : ∀ a, FailsWith P (f a)) :
    FailsWith P (r >>= f) := by
  intro out err hr
  rw [run_bind] at hr
  cases hrun : r out with
  | error e =>
    simp only [hrun, Except.error.injEq] at hr
    exact hr ▸ h out e hrun
  | ok p =>
    simp only [hrun] at hr
    exact hf p.1 p.2 err hr

theorem FailsWith.then_pure (h : FailsWith P r) (g : α → β) :
    FailsWith P (r >>= fun a => pure (g a)) :=
  h.bind fun a => failsWith_pure (g a)

theorem failsWith_fail {err : Error} (h : P err) : FailsWith P (fail err : Render α) := by
  rintro out e ⟨⟩
  exact h

theorem failsWith_ofExcept {x : Except Error α} (h : ∀ err, x = .error err → P err) :
    FailsWith P (ofExcept x) := by
  cases x with
  | error e => exact failsWith_fail (h e rfl)
  | ok a => exact failsWith_pure a

theorem failsWith_get : FailsWith P (get : Render Output) := fun _ _ h => nomatch h

theorem failsWith_modify (g : Output → Output) : FailsWith P (modify g : Render Unit) :=
  fun _ _ h => nomatch h

theorem failsWith_paramCount : FailsWith P paramCount := failsWith_get.then_pure _

theorem failsWith_release (n : Nat) : FailsWith P (release n) := failsWith_modify _

theorem failsWith_nextTable : FailsWith P nextTable :=
  (failsWith_modify _).bind fun _ => failsWith_get.then_pure _

theorem failsWith_checkName {kind name : String} (hname : isIdentifier name = true) :
    FailsWith P (checkName kind name) := by
  rw [checkName, checkIdentifier_eq_ok hname]
  exact failsWith_pure ()

theorem failsWith_forM_checkName {kind : String} {names : List String}
    (h : ∀ s ∈ names, isIdentifier s = true) : FailsWith P (names.forM (checkName kind)) := by
  induction names with
  | nil => exact failsWith_pure ()
  | cons name names ih =>
    obtain ⟨hname, hnames⟩ := List.forall_mem_cons.mp h
    exact (failsWith_checkName hname).bind fun _ => ih hnames

-- What the errors of a rendering may be: anything but a malformed expression, and what the
-- resolver reports.
structure Tolerates (P : Error → Prop) (resolver : Resolver) : Prop where
  sound : ∀ err, err.isMalformed = false → P err
  reported : ∀ err, resolver.Reports err → P err

structure Within (g : Engine) (resolver : Resolver) (ctx : Context) : Prop where
  dialect : ctx.dialect = g.dialect
  resolver : ctx.resolver = resolver

section Nodes

variable {g : Engine} {resolver : Resolver} {ctx : Context} (hP : Tolerates P resolver)
  (hctx : Within g resolver ctx)
include hP

theorem failsWith_noFeature (ctx : Context) (what hint : String) :
    FailsWith P (noFeature ctx what hint : Render α) :=
  failsWith_fail (hP.sound _ rfl)

theorem failsWith_unsupported {expr reason : String}
    (h : Error.malformedReasons.contains reason = false) :
    FailsWith P (unsupported expr reason : Render α) := by
  refine failsWith_fail (hP.sound _ ?_)
  simp only [Error.isMalformed, Error.classes, Error.reasons, List.any_cons, List.any_nil, h]
  rfl

theorem failsWith_enter (hctx : Within g resolver ctx) {scope : Scope} {f : Context → Render β}
    (hf : ∀ inside, Within g resolver inside → FailsWith P (f inside)) :
    FailsWith P (enter ctx scope >>= f) := by
  unfold enter
  split
  · intro out err h
    exact failsWith_unsupported (α := β) hP (by decide) out err h
  · exact hf _ ⟨hctx.dialect, hctx.resolver⟩

include hctx

omit hP in
theorem failsWith_bindParam (v : Value) : FailsWith P (Render.bind ctx v) := by
  unfold Render.bind
  rw [hctx.dialect, g.convert_eq]
  exact failsWith_get.bind fun _ => (failsWith_modify _).then_pure _

omit hP in
theorem failsWith_bindItem (v : Value) : FailsWith P (bindItem ctx v) := by
  unfold bindItem
  split
  · exact failsWith_pure _
  · exact failsWith_bindParam hctx v

omit hP in
theorem failsWith_bindItems (vs : List Value) : FailsWith P (bindItems ctx vs) := by
  induction vs with
  | nil => exact failsWith_pure _
  | cons v vs ih => exact (failsWith_bindItem hctx v).bind fun _ => ih.then_pure _

theorem failsWith_dialectLiteral (v : Value) :
    FailsWith P (ofExcept (ctx.dialect.literal v)) := by
  refine failsWith_ofExcept fun err h => hP.sound err ?_
  rw [hctx.dialect] at h
  exact g.literal_error h

theorem failsWith_literal {v : Value} {const : Bool}
    (hv : const = true → v.isNull = true ∨ v.isPrimitive = true) :
    FailsWith P (literal ctx v const) := by
  unfold literal
  split
  · exact failsWith_pure _
  · next hnull =>
    split
    · next hconst =>
      rw [if_pos ((hv hconst).resolve_left hnull)]
      exact (failsWith_dialectLiteral hP hctx v).then_pure _
    · split
      · exact failsWith_pure _
      · exact (failsWith_bindItems hctx _).then_pure _
      · exact failsWith_bindParam hctx v

theorem failsWith_condition {v : Value} {const : Bool}
    (hv : const = true → v.isNull = true ∨ v.isPrimitive = true) :
    FailsWith P (condition ctx v const) := by
  unfold condition
  split
  · exact failsWith_pure _
  · exact failsWith_pure _
  · exact failsWith_pure _
  · exact (failsWith_literal hP hctx hv).then_pure _

theorem failsWith_resolvedColumn (object property : String) :
    FailsWith P (ofExcept (ctx.resolver.column object property)) := by
  refine failsWith_ofExcept fun err h => hP.reported err ?_
  rw [hctx.resolver] at h
  exact .inr (.inl ⟨object, property, h⟩)

theorem failsWith_column (owner name : String) : FailsWith P (column ctx owner name) := by
  obtain ⟨property, h⟩ | ⟨scope, -, property, h⟩ := column_cases ctx owner name
  · rw [h]
    unfold ownColumn
    split
    · exact failsWith_unsupported hP (by decide)
    · refine (failsWith_resolvedColumn hP hctx _ _).bind fun col => ?_
      split <;> exact failsWith_pure _
  · rw [h]
    unfold outerColumn
    split
    · exact failsWith_unsupported hP (by decide)
    · exact (failsWith_resolvedColumn hP hctx _ _).then_pure _

omit hP hctx in
theorem failsWith_standing (pos : Position) {value : Render Sql} (h : FailsWith P value) :
    FailsWith P (standing ctx pos value) :=
  h.then_pure _

omit hctx

theorem failsWith_negated {inner : Render Sql} (h : FailsWith P inner) :
    FailsWith P (negated ctx inner) := by
  unfold negated
  split
  · exact failsWith_noFeature hP ctx _ _
  · exact h.then_pure _

theorem failsWith_signed (op : UnaryOp) {inner : Render Sql} (h : FailsWith P inner) :
    FailsWith P (signed ctx op inner) := by
  unfold signed
  split
  · exact failsWith_noFeature hP ctx _ _
  · exact h.then_pure _

theorem failsWith_membership (op : LogicOp) (grouped : Bool) {left right : Render Sql}
    (hl : FailsWith P left) (hr : FailsWith P right) :
    FailsWith P (membership ctx op grouped left right) := by
  unfold membership
  refine failsWith_paramCount.bind fun mark => hl.bind fun l => hr.bind fun r => ?_
  split
  · exact (failsWith_release mark).then_pure _
  · split
    · exact failsWith_noFeature hP ctx _ _
    · exact failsWith_pure _

theorem failsWith_patternTest (hctx : Within g resolver ctx) (op : LogicOp)
    (known : Option String) {left right : Render Sql} (hl : FailsWith P left)
    (hr : FailsWith P right) : FailsWith P (patternTest ctx op known left right) := by
  have hpattern : FailsWith P (patternOf ctx op known right) := by
    unfold patternOf
    split
    · exact failsWith_bindParam hctx _
    · exact hr.then_pure _
  unfold patternTest
  dsimp only
  split
  · exact failsWith_noFeature hP ctx _ _
  · exact hl.bind fun _ => hpattern.then_pure _

theorem failsWith_comparison (op : LogicOp) {left right : Render Sql} (hl : FailsWith P left)
    (hr : FailsWith P right) : FailsWith P (comparison ctx op left right) := by
  unfold comparison
  split
  · exact failsWith_noFeature hP ctx _ _
  · exact hl.bind fun _ => hr.then_pure _

theorem failsWith_computation (op : ValueOp) {left right : Render Sql} (hl : FailsWith P left)
    (hr : FailsWith P right) : FailsWith P (computation ctx op left right) := by
  unfold computation
  refine hl.bind fun l => hr.bind fun r => ?_
  split
  · exact failsWith_pure _
  · split
    · exact failsWith_noFeature hP ctx _ _
    · exact failsWith_pure _

omit hP in
theorem failsWith_called {name : String} (hname : isIdentifier name = true)
    {args : Render (List Sql)} (h : FailsWith P args) : FailsWith P (called name args) :=
  (failsWith_checkName hname).bind fun _ => h.then_pure _

omit hP in
theorem failsWith_aggregation {name : String} (hname : isIdentifier name = true)
    (distinct : Bool) {arg : Render (Option Sql)} (h : FailsWith P arg) :
    FailsWith P (aggregation name distinct arg) :=
  (failsWith_checkName hname).bind fun _ => h.then_pure _

omit hP in
theorem failsWith_combined (pos : Position) (kind : SetKind)
    {conditions : Render (List Sql × Bool)} (h : FailsWith P conditions) :
    FailsWith P (combined pos kind conditions) := by
  unfold combined
  refine failsWith_paramCount.bind fun mark => h.bind fun (parts, vacuous) => ?_
  dsimp only
  split
  · exact (failsWith_release mark).then_pure _
  · split <;> exact failsWith_pure _

theorem failsWith_existence (hctx : Within g resolver ctx) (relation label : String)
    {tableArgs : List String} (hargs : ∀ s ∈ tableArgs, isIdentifier s = true)
    {inner : Context → Render Sql}
    (h : ∀ inside, Within g resolver inside → FailsWith P (inner inside)) :
    FailsWith P (existence ctx relation label tableArgs inner) := by
  have hjoin : FailsWith P (ofExcept (ctx.resolver.relation ctx.scope.object relation)) := by
    refine failsWith_ofExcept fun err herr => hP.reported err ?_
    rw [hctx.resolver] at herr
    exact .inr (.inr ⟨_, _, herr⟩)
  unfold existence
  refine hjoin.bind fun join => ?_
  split
  · exact failsWith_fail (hP.sound _ rfl)
  · refine (failsWith_forM_checkName hargs).bind fun _ => failsWith_nextTable.bind fun n => ?_
    exact failsWith_enter hP hctx fun inside hinside => (h inside hinside).then_pure _

theorem failsWith_subquery (hctx : Within g resolver ctx) (object : String)
    {body : Context → Render Sql}
    (h : ∀ inside, Within g resolver inside → FailsWith P (body inside)) :
    FailsWith P (subquery ctx object body) := by
  have htable : FailsWith P (ofExcept (ctx.resolver.table object)) := by
    refine failsWith_ofExcept fun err herr => hP.reported err ?_
    rw [hctx.resolver] at herr
    exact .inl ⟨object, herr⟩
  unfold subquery
  refine htable.bind fun table => failsWith_nextTable.bind fun n => ?_
  exact failsWith_enter hP hctx fun inside hinside => (h inside hinside).then_pure _

omit hP in
theorem failsWith_columnLabel {label : String} (hlabel : isLabel label = true) (s : Sql) :
    FailsWith P (labelled label s) := by
  unfold labelled
  split
  · exact failsWith_pure _
  · next hempty =>
    rw [isLabel, Bool.or_eq_true] at hlabel
    exact (failsWith_checkName (hlabel.resolve_left hempty)).then_pure _

-- No engine refuses a window but for the lack of an order.
theorem failsWith_paging (hctx : Within g resolver ctx) (w : Option Window) (ordered : Bool) :
    FailsWith P (paging ctx w ordered) := by
  unfold paging
  split
  · exact failsWith_pure _
  · split
    · split
      · exact failsWith_noFeature hP ctx _ _
      · next w _ _ =>
        obtain ⟨s, hs⟩ := g.paging_ok w.offset w.limit ordered
        rw [hctx.dialect, hs]
        exact failsWith_pure _
    · exact failsWith_pure _

theorem failsWith_assembled (hctx : Within g resolver ctx) (window : Option Window)
    {selection filters grouping groupFilters ordering : Render (List Sql)}
    (hs : FailsWith P selection) (hf : FailsWith P filters) (hg : FailsWith P grouping)
    (hh : FailsWith P groupFilters) (ho : FailsWith P ordering) :
    FailsWith P (assembled ctx window selection filters grouping groupFilters ordering) := by
  have hselected : FailsWith P (selected selection grouping) := by
    refine hs.bind fun columns => ?_
    split
    · exact hg.then_pure _
    · exact failsWith_pure _
  unfold assembled
  exact hselected.bind fun _ => hf.bind fun _ => hg.bind fun _ => hh.bind fun _ =>
    ho.bind fun _ => (failsWith_paging hP hctx window _).then_pure _

end Nodes

theorem isLabel_of_isProper {q : Query} (hq : q.isProper = true) :
    ∀ label ∈ q.labels, isLabel label = true := by
  induction q with
  | rows object => exact fun _ h => absurd h List.not_mem_nil
  | filter q p ih | having q p ih =>
    simp only [Query.isProper, Bool.and_eq_true] at hq
    exact ih hq.1.1
  | group q keys ih | order q keys ih =>
    simp only [Query.isProper, Bool.and_eq_true] at hq
    exact ih hq.1
  | window q offset limit ih =>
    simp only [Query.isProper, Bool.and_eq_true] at hq
    exact ih hq.1.1.1.1.1
  | select q columns ih =>
    simp only [Query.isProper, Bool.and_eq_true, List.all_eq_true] at hq
    exact List.forall_mem_append.mpr ⟨ih hq.1.1, List.forall_mem_map.mpr hq.2⟩

-- Failing with nothing but certain errors, as a trait of the renderings of valid nodes. What the
-- fragments among them fail with is given.
def failing (P : Error → Prop) (g : Engine) (resolver : Resolver) (frag : FragmentRenderer) :
    Trait where
  fits := Within g resolver
  covers e :=
    e.IsValidNode ∧ ∀ key arg, e = .fragment key arg → ∀ ctx, FailsWith P (frag ctx key arg)
  admits label := isLabel label = true
  text _ := FailsWith P
  texts _ := FailsWith P
  conditions _ := FailsWith P
  argument _ := FailsWith P
  query _ := FailsWith P

section Traits

variable {g : Engine} {resolver : Resolver} {frag : FragmentRenderer}

theorem closedLists_failing : (failing P g resolver frag).ClosedLists where
  nil := failsWith_pure _
  cons hr hrs := FailsWith.bind hr fun _ => FailsWith.then_pure hrs _
  single hr := FailsWith.then_pure hr _
  sortKey _ hr hrs := FailsWith.bind hr fun _ => FailsWith.then_pure hrs _
  labelled _ _ hlabel hr hrs := FailsWith.bind hr fun _ =>
    (failsWith_columnLabel hlabel _).bind fun _ => FailsWith.then_pure hrs _
  noConditions := failsWith_pure _
  consCondition hr hrs := FailsWith.bind hr fun _ => FailsWith.bind hrs fun _ => failsWith_pure _
  conjuncts hrs := FailsWith.then_pure hrs _
  clauseAfter he hp := FailsWith.bind hp fun _ => FailsWith.then_pure he _

theorem closedNodes_failing (hP : Tolerates P resolver) :
    (failing P g resolver frag).ClosedNodes frag where
  literal hctx hnode := failsWith_literal hP hctx hnode.1.2
  condition hctx hnode := failsWith_condition hP hctx hnode.1.2
  column owner name hctx := failsWith_column hP hctx owner name
  standing pos _ hr := failsWith_standing pos hr
  negated _ hr := failsWith_negated hP hr
  signed _ _ _ hr := failsWith_signed hP _ hr
  nullTest _ hr := FailsWith.then_pure hr _
  membership op grouped _ hl hr := failsWith_membership hP op grouped hl hr
  patternTest op known hctx hl hr := failsWith_patternTest hP hctx op known hl hr
  comparison op _ hl hr := failsWith_comparison hP op hl hr
  computation op _ hl hr := failsWith_computation hP op hl hr
  called hnode hrs := failsWith_called hnode.1 hrs
  noArgument := failsWith_pure _
  someArgument hr := FailsWith.then_pure hr _
  aggregation hnode hr := failsWith_aggregation hnode.1 _ hr
  combined pos kind hrs := failsWith_combined pos kind hrs
  listed hrs := FailsWith.then_pure hrs _
  concatenated _ hrs := FailsWith.then_pure hrs _
  blank := failsWith_pure _
  existence hctx hnode _ hbody := failsWith_existence hP hctx _ _ hnode.1.2.2.2 hbody
  refused := by
    -- The operators and the kind of a valid node are known ones.
    rintro ctx e reason ⟨hnode, -⟩ hrefused
    cases hrefused with
    | unary hop | compare hop | compute hop =>
      rw [Expr.IsValidNode, hop] at hnode
      cases hnode
    | set hlogical hlist hconcat =>
      have hkind := SetKind.cases_of_isValid hnode.1
      simp [hlogical, hlist, hconcat] at hkind
    | related => exact failsWith_unsupported hP (by decide)
  fragment hnode := hnode.2 _ _ rfl _
  labels hnode := isLabel_of_isProper hnode.1
  assembled window hctx hs hf hg hh ho := failsWith_assembled hP hctx window hs hf hg hh ho
  subquery object hctx hbody := failsWith_subquery hP hctx object hbody

theorem closed_failing (hP : Tolerates P resolver) : (failing P g resolver frag).Closed frag :=
  ⟨closedLists_failing, closedNodes_failing hP⟩

theorem covers_failing {e : Expr} (he : e.IsValid)
    (hfrag : ∀ key arg, .fragment key arg ∈ e.nodes → ∀ ctx, FailsWith P (frag ctx key arg)) :
    ∀ x ∈ e.nodes, (failing P g resolver frag).covers x := by
  intro x hx
  refine ⟨he x hx, ?_⟩
  rintro key arg rfl
  exact hfrag key arg hx

end Traits

-- Errors of a fragment are reported under its key.
theorem failsWith_fragment {resolver : Resolver} (hP : Tolerates P resolver)
    (sources : FragmentSources) (levels : Nat) (ctx : Context) (key : String) (arg : Value)
    (hkey : ∀ cause, P (.within ("fragment " ++ key) cause)) :
    FailsWith P (fragment sources levels ctx key arg) := by
  cases levels with
  | zero => exact failsWith_fail (hP.sound _ rfl)
  | succ levels =>
    unfold fragment
    split
    · refine failsWith_unsupported hP ?_
      have hheads : ∀ s ∈ Error.malformedReasons, s.toList.head? ≠ some 'n' := by decide
      rw [Bool.eq_false_iff, ne_eq, List.contains_iff_mem]
      intro hmem
      exact hheads _ hmem (by simp)
    · intro out err h
      unfold withStep at h
      split at h
      · cases h
      · cases h
        exact hP.sound _ rfl
      · cases h
        exact hkey _

end Render

theorem bind_error {α β : Type} {x : Except Error α} {f : α → Except Error β} {err : Error}
    (h : (x >>= f) = .error err) : x = .error err ∨ ∃ a, x = .ok a ∧ f a = .error err := by
  cases x with
  | error e =>
    cases h
    exact .inl rfl
  | ok a => exact .inr ⟨a, rfl, h⟩

namespace Schema

variable {s : Schema} {object name : String} {err : Error}

theorem isMalformed_of_table (h : s.table object = .error err) : err.isMalformed = false := by
  unfold table at h
  split at h
  · cases h
  · cases h
    rfl

theorem isMalformed_of_column (h : s.column object name = .error err) :
    err.isMalformed = false := by
  rcases bind_error h with htable | ⟨t, -, h⟩
  · exact isMalformed_of_table htable
  · split at h
    · cases h
    · cases h
      rfl

theorem isMalformed_of_relation (h : s.relation object name = .error err) :
    err.isMalformed = false := by
  unfold relation at h
  split at h
  · rcases bind_error h with htable | ⟨t, -, h⟩
    · exact isMalformed_of_table htable
    · cases h
  · cases h
    unfold Error.isMalformed Error.classes
    split <;> rfl

theorem isMalformed_of_reports (h : s.resolver.Reports err) : err.isMalformed = false := by
  rcases h with ⟨object, h⟩ | ⟨object, property, h⟩ | ⟨object, name, h⟩
  · exact isMalformed_of_table h
  · exact isMalformed_of_column h
  · exact isMalformed_of_relation h

end Schema

namespace Compilation

variable {c : Compilation} {e : Expr} {err : Error}

theorem reports_of_scope {r : Resolver} (h : c.scope r = .error err) : r.Reports err := by
  unfold scope at h
  split at h
  · cases h
  · rcases bind_error h with htable | ⟨t, -, h⟩
    · exact .inl ⟨_, htable⟩
    · cases h

theorem failsWith_render {P : Error → Prop} {g : Engine} {r : Resolver}
    (hP : Render.Tolerates P r) (he : e.IsValid)
    (hfrag : ∀ key arg, .fragment key arg ∈ e.nodes → ∀ cause,
      P (.within ("fragment " ++ key) cause)) (h : c.render r g.dialect e = .error err) :
    P err := by
  have hfrags : ∀ key arg, .fragment key arg ∈ e.nodes → ∀ ctx, Render.FailsWith P
      (Render.fragment c.sources Render.fragmentLevels ctx key arg) :=
    fun key arg hmem ctx => Render.failsWith_fragment hP _ _ ctx key arg (hfrag key arg hmem)
  unfold render at h
  rcases bind_error h with hscope | ⟨scope, -, h⟩
  · exact hP.reported err (reports_of_scope hscope)
  · cases e with
    | query q =>
      rcases bind_error h with htable | ⟨table, -, h⟩
      · exact hP.reported err (.inl ⟨_, htable⟩)
      · let scope : Scope := { object := q.object, table, label := c.label }
        have hctx : Render.Within g r ⟨g.dialect, r, scope, [], 0⟩ := ⟨rfl, rfl⟩
        exact (Render.closed_failing hP).statement hctx (Render.covers_failing he hfrags) _ err h
    | _ =>
      have hctx : Render.Within g r ⟨g.dialect, r, scope, [], 0⟩ := ⟨rfl, rfl⟩
      exact (Render.closed_failing hP).tree hctx (Render.covers_failing he hfrags) .condition _ err
        h

-- Why the compilation of a valid expression may report that something is malformed: the names that
-- were asked for, the resolver, or a fragment.
theorem malformed_cases {g : Engine} (hc : c.dialect = some g.dialect) (he : e.IsValid)
    (h : c.run (some e) = .error err) (hmalformed : err.isMalformed = true) :
    c.checkNames = .error err ∨ (∃ r, c.resolver = some r ∧ r.Reports err) ∨
      ∃ key arg cause, .fragment key arg ∈ e.nodes ∧ err = .within ("fragment " ++ key) cause := by
  rcases bind_error h with hnames | ⟨-, -, h⟩
  · exact .inl hnames
  · right
    simp only at h
    split at h
    · next r d hr hd =>
      obtain rfl : d = g.dialect := Option.some_inj.mp (hd.symm.trans hc)
      rcases bind_error h with hrender | ⟨⟨tokens, out⟩, -, h⟩
      · let P : Error → Prop := fun err => err.isMalformed = false ∨ r.Reports err ∨
          ∃ key arg cause, .fragment key arg ∈ e.nodes ∧
            err = .within ("fragment " ++ key) cause
        have hP : Render.Tolerates P r := ⟨fun _ h => .inl h, fun _ h => .inr (.inl h)⟩
        have hcases : P err := failsWith_render hP he
          (fun key arg hmem cause => .inr (.inr ⟨key, arg, cause, hmem, rfl⟩)) hrender
        rcases hcases with hsound | hreports | hfragment
        · rw [hmalformed] at hsound
          cases hsound
        · exact .inl ⟨r, hr, hreports⟩
        · exact .inr hfragment
      · simp only [bounded] at h
        split at h
        · cases h
          cases hmalformed
        · cases h
    · cases h
      cases hmalformed

end Compilation

-- Every decoded expression is valid. Whatever engine it is compiled for, the compilation reports
-- that something is malformed only of names in the request, through the resolver or from inside a
-- fragment; over a schema, without fragments and with valid names it never does.
theorem decoded_is_valid (text : String) (e : Expr) (h : Codec.decodeText text = .ok e) :
    e.IsValid ∧
      (∀ (g : Engine) (c : Compilation) (err : Error), c.dialect = some g.dialect →
        c.run (some e) = .error err → err.isMalformed = true →
        c.checkNames = .error err ∨ (∃ r, c.resolver = some r ∧ r.Reports err) ∨
          ∃ key arg cause, .fragment key arg ∈ e.nodes ∧
            err = .within ("fragment " ++ key) cause) ∧
      ∀ (g : Engine) (c : Compilation) (s : Schema) (err : Error), c.dialect = some g.dialect →
        c.resolver = some s.resolver → c.checkNames = .ok () → e.isStatic = true →
        c.run (some e) = .error err → err.isMalformed = false := by
  have he : e.IsValid := Codec.isValid_of_decodeText h
  refine ⟨he, fun g c err hc hrun => Compilation.malformed_cases hc he hrun, ?_⟩
  intro g c s err hc hs hnames hstatic hrun
  rw [Bool.eq_false_iff]
  intro hmalformed
  rcases Compilation.malformed_cases hc he hrun hmalformed with
    herr | ⟨r, hr, hreports⟩ | ⟨key, arg, cause, hmem, -⟩
  · rw [hnames] at herr
    cases herr
  · obtain rfl : r = s.resolver := Option.some_inj.mp (hr.symm.trans hs)
    rw [Schema.isMalformed_of_reports hreports] at hmalformed
    cases hmalformed
  · have hfragment := List.all_eq_true.mp hstatic _ hmem
    cases hfragment

-- An operator that no document names is reported as malformed.
example : ∃ err, (Compilation.run
    { resolver := some (Schema.ofTables []).resolver, dialect := some (Engine.sqlite '/').dialect }
    (some (.unary ⟨9⟩ .null))) = .error err ∧ err.isMalformed = true :=
  ⟨_, rfl, rfl⟩

-- A page of rows that meet a condition. The engine refuses it for lack of an order, not because
-- the document was malformed.
theorem decoded_is_valid_page :
    ∃ (tree : Expr) (text : String) (c : Compilation) (s : Schema) (err : Error),
      Codec.decodeText text = .ok tree ∧ tree.IsValid ∧
      c.dialect = some (Engine.mssql '/' true).dialect ∧ c.resolver = some s.resolver ∧
      c.checkNames = .ok () ∧ tree.isStatic = true ∧ c.run (some tree) = .error err ∧
      err.message = "mssql: paging without ORDER BY is not supported: add an OrderBy stage when " ++
        "using Skip or Take" ∧
      err.isMalformed = false := by
  let tree : Expr := .query (.window (.filter (.rows "User") (.set .or
    [.compare .greater (.property "" "id") (.value (.int .int64 18) true),
      .unary .not (.property "" "id")])) 20 10)
  let s : Schema := { tables := [⟨"users", ["id"]⟩], bindings := [("User", "users")] }
  let c : Compilation :=
    { resolver := some s.resolver, dialect := some (Engine.mssql '/' true).dialect }
  have hwell : tree.isWellFormed = true := by decide +kernel
  obtain ⟨text, -, hdecode⟩ := Codec.decodeText_encodeText hwell
  have hstatic : tree.normal.isStatic = true := by decide +kernel
  obtain ⟨err, hrun, hmessage⟩ : ∃ err, c.run (some tree.normal) = .error err ∧ err.message =
      "mssql: paging without ORDER BY is not supported: add an OrderBy stage when " ++
        "using Skip or Take" :=
    ⟨_, rfl, by decide +kernel⟩
  obtain ⟨hvalid, -, hsound⟩ := decoded_is_valid text tree.normal hdecode
  exact ⟨tree.normal, text, c, s, err, hdecode, hvalid, rfl, rfl, rfl, hstatic, hrun, hmessage,
    hsound (.mssql '/' true) c s err rfl rfl rfl hstatic hrun⟩

end QueryTree
