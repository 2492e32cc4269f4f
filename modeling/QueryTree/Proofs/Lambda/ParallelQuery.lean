import QueryTree.Lambda.Query
import QueryTree.Proofs.Lambda.Parallel

namespace QueryTree.Lambda

theorem Node.forall₂_erasedAll {P : Node → Node → Prop} {ns : List Node}
    (h : ∀ n ∈ ns, P n n.erased) : List.Forall₂ P ns (erasedAll ns) := by
  induction ns with
  | nil => exact .nil
  | cons n ns ih =>
    obtain ⟨hn, hns⟩ := List.forall_mem_cons.mp h
    exact .cons hn (ih hns)

namespace Link

def ConvertsInside (k : Link) (sc : Scope) (env : List (String × Host)) (n : Node) : Prop :=
  ∀ m ∈ n.nodes, ∀ frames, k.Converts (sc.reframe frames) env m

theorem ConvertsInside.within {k : Link} {sc : Scope} {env : List (String × Host)} {n m : Node}
    (h : k.ConvertsInside sc env n) (hm : m ∈ n.nodes) : k.ConvertsInside sc env m :=
  fun x hx => h x (Node.nodes_trans hm x hx)

-- The numbers of rows to skip and to take are the same in both conversions.
def CountsRows (k : Link) (sc : Scope) (env : List (String × Host)) (n : Node) : Prop :=
  ∀ s t x name args, Node.call s (.selector t x name) args ∈ n.nodes →
    name = "Skip" ∨ name = "Take" →
      ∀ a ∈ args, k.Rel Eq (sc.rowCount a) ((sc.recast env).rowCount a.erased)

theorem CountsRows.within {k : Link} {sc : Scope} {env : List (String × Host)} {n m : Node}
    (h : k.CountsRows sc env n) (hm : m ∈ n.nodes) : k.CountsRows sc env m :=
  fun s t x name args hx => h s t x name args (Node.nodes_trans hm _ hx)

abbrev LinksQueries (k : Link) (x y : Except Error Query) : Prop :=
  k.Rel (·.mapParts k.view = ·.mapParts k.view) x y

end Link

namespace Scope

variable {k : Link} {sc : Scope} {env : List (String × Host)}

section Selectors

theorem rel_bindRow {α β : Type} {R : α → β → Prop} {arg : Node}
    {f : Scope → Node → Except Error α} {f' : Scope → Node → Except Error β}
    (h : ∀ frames, ∀ body ∈ arg.nodes,
      k.Rel R (f (sc.reframe frames) body) (f' ((sc.reframe frames).recast env) body.erased)) :
    k.Rel R (sc.bindRow arg f) ((sc.recast env).bindRow arg.erased f') := by
  have harg := arg.unparen_mem_nodes
  unfold bindRow
  rw [Node.unparen_erased]
  cases hlambda : arg.unparen with
  | lambda s param statements result =>
    obtain _ | p := param
    · exact rel_lambdaFault _ _
    · obtain _ | _ | count := statements
      case succ.zero =>
        obtain _ | body := result
        · exact rel_lambdaFault _ _
        · rw [hlambda] at harg
          exact h (⟨p, sc.row⟩ :: sc.frames) body (Node.nodes_trans harg body
            (Node.part_mem_nodes List.mem_cons_self))
      all_goals exact rel_lambdaFault _ _
  | _ => exact rel_unsupported

section Body

variable {body : Node} (hbody : ∀ m ∈ body.nodes, k.Converts sc env m)

include hbody

theorem rel_keys : k.Rel (·.map k.view = ·.map k.view) (sc.keys body)
    ((sc.recast env).keys body.erased) := by
  have hnode := body.unparen_mem_nodes
  have hone : k.Rel (·.map k.view = ·.map k.view) (do return [← sc.convert body])
      (do return [← (sc.recast env).convert body.erased]) :=
    (hbody body body.mem_nodes_self).bind fun d e h => congrArg ([·]) h
  unfold keys
  rw [Node.unparen_erased]
  cases hitems : body.unparen with
  | composite s type items =>
    rw [hitems] at hnode
    refine Link.Rel.mapM (links_convertEach fun a ha m hm => hbody m ?_)
    exact Node.nodes_trans hnode m (Node.nodes_subset (List.mem_append_right _ ha) m hm)
  | _ => exact hone

omit hbody in
theorem rel_label (key : Node) : k.Rel Eq (sc.label key) ((sc.recast env).label key.erased) := by
  cases key with
  | ident s name => exact .refl _
  | literal s v => cases v <;> first | exact .refl _ | exact rel_unsupported
  | _ => exact rel_unsupported

theorem rel_column {item : Node} (hitem : ∀ m ∈ item.nodes, m ∈ body.nodes) :
    k.Rel (Query.mapColumn k.view · = Query.mapColumn k.view ·) (sc.column item)
      ((sc.recast env).column item.erased) := by
  cases item with
  | pair s key value =>
    have hvalue := hbody value (hitem value
      (Node.part_mem_nodes (List.mem_cons_of_mem _ List.mem_cons_self)))
    exact (rel_label key).bind_eq fun label => hvalue.bind fun d e h =>
      .pure (congrArg (Column.mk · label) h)
  | _ =>
    have hself := hbody _ (hitem _ (Node.mem_nodes_self _))
    exact hself.bind fun d e h => congrArg (Column.mk · "") h

theorem rel_columns :
    k.Rel (·.map (Query.mapColumn k.view) = ·.map (Query.mapColumn k.view))
      (sc.columns body) ((sc.recast env).columns body.erased) := by
  have hnode := body.unparen_mem_nodes
  have hone : k.Rel (·.map (Query.mapColumn k.view) = ·.map (Query.mapColumn k.view))
      (do return [⟨← sc.convert body, ""⟩])
      (do return [⟨← (sc.recast env).convert body.erased, ""⟩]) :=
    (hbody body body.mem_nodes_self).bind fun d e h => congrArg (fun x => [Column.mk x ""]) h
  unfold columns
  rw [Node.unparen_erased]
  cases hitems : body.unparen with
  | composite s type items =>
    rw [hitems] at hnode
    refine Link.Rel.mapM (Node.forall₂_erasedAll fun a ha => rel_column hbody fun m hm => ?_)
    exact Node.nodes_trans hnode m (Node.nodes_subset (List.mem_append_right _ ha) m hm)
  | _ => exact hone

end Body

variable {call call' : Node} {args : List Node} (hargs : ∀ a ∈ args, k.ConvertsInside sc env a)

include hargs

theorem links_rowPredicate (hk : k.Fits sc.toConverter env) :
    k.Links (sc.rowPredicate call args)
      ((sc.recast env).rowPredicate call' (Node.erasedAll args)) := by
  obtain _ | ⟨arg, _ | _⟩ := args
  case cons.nil =>
    simp only [rowPredicate, Node.erasedAll]
    refine rel_bindRow fun frames body hbody => ?_
    exact links_asLogic hk (hargs arg List.mem_cons_self body hbody frames)
  all_goals exact rel_unsupported

theorem rel_keysOf : k.Rel (·.map k.view = ·.map k.view) (sc.keysOf args)
    ((sc.recast env).keysOf (Node.erasedAll args)) := by
  have hkeys : k.Rel (·.map (List.map k.view) = ·.map (List.map k.view))
      (args.mapM fun arg => sc.bindRow arg keys)
      ((Node.erasedAll args).mapM fun arg => (sc.recast env).bindRow arg keys) :=
    Link.Rel.mapM <| Node.forall₂_erasedAll fun a ha => rel_bindRow fun frames body hbody =>
      rel_keys fun m hm => hargs a ha m (Node.nodes_trans hbody m hm) frames
  refine hkeys.bind fun dss ess h => .pure ?_
  rw [List.map_flatten, List.map_flatten, h]

theorem rel_sortKeys (ascending : Bool) :
    k.Rel (·.map (Query.mapKey k.view) = ·.map (Query.mapKey k.view))
      (sc.sortKeys call args ascending)
      ((sc.recast env).sortKeys call' (Node.erasedAll args) ascending) := by
  obtain _ | ⟨arg, rest⟩ := args
  · exact rel_unsupported
  · refine (rel_keysOf hargs).bind fun ds es h => .pure ?_
    have hkeys := congrArg (List.map (SortKey.mk · ascending)) h
    simpa [Query.mapKey, Function.comp_def] using hkeys

end Selectors

section Stages

variable {q q' : Query} {name : String} {call call' : Node} {args : List Node}

theorem rel_staged {allowed allowed' : Bool} {next next' : Unit → Except Error (Option Query)}
    (hallowed : allowed = allowed')
    (h : k.Rel (·.map (Query.mapParts k.view) = ·.map (Query.mapParts k.view)) (next ())
      (next' ())) :
    k.LinksQueries (staged q name allowed next) (staged q' name allowed' next') := by
  subst hallowed
  unfold staged
  split
  · refine h.bind fun o o' ho => ?_
    cases o <;> cases o' <;> first | cases ho | skip
    · exact fun _ => rfl
    · exact Option.some.inj ho
  · exact fun _ => rfl

theorem rel_stage (hk : k.Fits sc.toConverter env) (hq : q.mapParts k.view = q'.mapParts k.view)
    (hargs : ∀ a ∈ args, k.ConvertsInside sc env a)
    (hcounts : name = "Skip" ∨ name = "Take" →
      ∀ a ∈ args, k.Rel Eq (sc.rowCount a) ((sc.recast env).rowCount a.erased)) :
    k.LinksQueries (sc.stage q name call args)
      ((sc.recast env).stage q' name call' (Node.erasedAll args)) := by
  have hlast {f : Query → Bool} (hf : ∀ q : Query, f (q.mapParts k.view) = f q) : f q = f q' := by
    rw [← hf q, hq, hf]
  unfold stage
  split
  case h_1 =>
    refine rel_staged (hlast (by rintro ⟨⟩ <;> rfl)) ?_
    refine (links_rowPredicate hargs hk).bind fun p p' h => .pure ?_
    rw [Query.mapParts_where? q hk.join, Query.mapParts_where? q' hk.join, hq, h]
  case h_2 | h_3 =>
    refine rel_staged (hlast (by rintro ⟨⟩ <;> rfl)) ?_
    refine (rel_sortKeys hargs _).bind fun ks ks' h => .pure ?_
    rw [Query.mapParts_orderBy?, Query.mapParts_orderBy?, hq, h]
  case h_4 | h_5 =>
    refine rel_staged (hlast (by rintro ⟨⟩ <;> rfl)) ?_
    refine (rel_sortKeys hargs _).bind fun ks ks' h => .pure ?_
    rw [Query.mapParts_thenBy?, Query.mapParts_thenBy?, hq, h]
  case h_6 | h_7 =>
    refine rel_staged (hlast (by rintro ⟨⟩ <;> rfl)) ?_
    obtain _ | ⟨arg, _ | _⟩ := args
    case cons.nil =>
      refine (hcounts (by simp) arg List.mem_cons_self).bind_eq fun n => .pure ?_
      simp [Query.mapParts_skip?, Query.mapParts_take?, hq]
    all_goals exact rel_unsupported
  case h_8 =>
    refine rel_staged (hlast (by rintro ⟨⟩ <;> rfl)) ?_
    refine (rel_keysOf hargs).bind fun ds es h => ?_
    have hempty : ds.isEmpty = es.isEmpty := by
      simpa using congrArg List.isEmpty h
    rw [hempty]
    split
    · exact rel_unsupported
    · refine .pure ?_
      rw [Query.mapParts_groupBy?, Query.mapParts_groupBy?, hq, h]
  case h_9 =>
    refine rel_staged (hlast (by rintro ⟨⟩ <;> rfl)) ?_
    refine (links_rowPredicate hargs hk).bind fun p p' h => .pure ?_
    rw [Query.mapParts_having?, Query.mapParts_having?, hq, h]
  case h_10 =>
    refine rel_staged (hlast (by rintro ⟨⟩ <;> rfl)) ?_
    obtain _ | ⟨arg, _ | _⟩ := args
    case cons.nil =>
      have hcolumns := rel_bindRow fun frames body (hbody : body ∈ arg.nodes) =>
        rel_columns fun m hm => hargs arg List.mem_cons_self m (Node.nodes_trans hbody m hm) frames
      refine hcolumns.bind fun cs ds h => .pure ?_
      rw [Query.mapParts_select?, Query.mapParts_select?, hq, h]
    all_goals exact rel_unsupported
  case h_11 => exact rel_unsupported

end Stages

section Queries

theorem isQueryPackage_erased (root : String) (n : Node) :
    isQueryPackage root n.erased = isQueryPackage root n := by
  cases n <;> rfl

section Equations

variable {root name : String} {s t : Span} {x : Node}

theorem query_method (hx : isQueryPackage root x = false) (args : List Node) :
    sc.query root (.call s (.selector t x name) args) =
      sc.query root x >>= fun q => sc.stage q name (.call s (.selector t x name) args) args := by
  rw [query.eq_def]
  simp only [hx, Bool.false_eq_true, if_false]

theorem query_function (hx : isQueryPackage root x = true) (source : Node) (args : List Node) :
    sc.query root (.call s (.selector t x name) (source :: args)) =
      sc.query root source >>= fun q =>
        sc.stage q name (.call s (.selector t x name) (source :: args)) args := by
  rw [query.eq_def]
  simp only [hx, if_true]

theorem query_function_nil (hx : isQueryPackage root x = true) :
    sc.query root (.call s (.selector t x name) []) =
      sc.unsupported (.call s (.selector t x name) []) (name ++ " needs a source query") := by
  rw [query.eq_def]
  simp only [hx, if_true]

end Equations

theorem rel_query (hk : k.Fits sc.toConverter env) (root : String) {n : Node}
    (hinside : k.ConvertsInside sc env n) (hcounts : k.CountsRows sc env n) :
    k.LinksQueries (sc.query root n) ((sc.recast env).query root n.erased) := by
  induction n using query.induct root with
  | case1 s x ih =>
    have hx := Node.nodes_subset (n := .paren s x) List.mem_cons_self x x.mem_nodes_self
    exact ih (hinside.within hx) (hcounts.within hx)
  | case2 s name hname =>
    rw [Node.erased, query, query, if_pos hname, if_pos hname]
    exact (Link.Rel.refl _).imp fun _ _ h => congrArg _ h
  | case3 s name hname =>
    rw [Node.erased, query, query, if_neg hname, if_neg hname]
    exact rel_unsupported
  | case4 s t x name hx =>
    have hpackage := (isQueryPackage_erased root x).trans hx
    rw [query_function_nil hx, Node.erased, Node.erased, Node.erasedAll,
      query_function_nil hpackage]
    exact rel_unsupported
  | case5 s t x name hx source rest ih =>
    have hpackage := (isQueryPackage_erased root x).trans hx
    rw [query_function hx, Node.erased, Node.erased, Node.erasedAll, query_function hpackage]
    have hargs : ∀ a ∈ source :: rest,
        a ∈ (Node.call s (.selector t x name) (source :: rest)).nodes :=
      fun a ha => Node.part_mem_nodes (List.mem_cons_of_mem _ ha)
    have hsource := hargs source List.mem_cons_self
    refine (ih (hinside.within hsource) (hcounts.within hsource)).bind fun q q' hq => ?_
    refine rel_stage hk hq (fun a ha => hinside.within (hargs a (List.mem_cons_of_mem _ ha))) ?_
    exact fun hname a ha => hcounts s t x name _ (Node.mem_nodes_self _) hname a
      (List.mem_cons_of_mem _ ha)
  | case6 s t x name args hx ih =>
    have hx := Bool.eq_false_iff.mpr hx
    have hpackage := (isQueryPackage_erased root x).trans hx
    rw [query_method hx, Node.erased, Node.erased, query_method hpackage]
    have hinner : x ∈ (Node.call s (.selector t x name) args).nodes :=
      Node.nodes_subset List.mem_cons_self x (Node.part_mem_nodes List.mem_cons_self)
    refine (ih (hinside.within hinner) (hcounts.within hinner)).bind fun q q' hq => ?_
    refine rel_stage hk hq (fun a ha => hinside.within ?_) ?_
    · exact Node.part_mem_nodes (List.mem_cons_of_mem _ ha)
    · exact hcounts s t x name args (Node.mem_nodes_self _)
  | case7 n hparen hident hcall =>
    cases n with
    | paren s x => exact absurd rfl (hparen s x)
    | ident s name => exact absurd rfl (hident s name)
    | call s fn args =>
      cases fn with
      | selector t x name => exact absurd rfl (hcall s t x name args)
      | _ => exact rel_unsupported
    | _ => exact rel_unsupported

end Queries

end Scope
end QueryTree.Lambda
