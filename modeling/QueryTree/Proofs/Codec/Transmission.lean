import QueryTree.Proofs.Codec.Document
import QueryTree.Proofs.Expr.Operands
import QueryTree.Proofs.Expr.Path

namespace QueryTree.Codec

variable {σ : Value → Value}

-- An expression is written, and from what was written it is read without its null operands and with
-- its literals as `σ` gives them.
def Transmits (σ : Value → Value) (e : Expr) : Prop :=
  ∃ d j, draft e = .ok d ∧ Writes d j ∧ j.isNull = e.isNull ∧
    ∀ path, decodeAt path j = .ok (e.relayed σ)

section Literals

variable {v : Value}

theorem bound_of_ne_null (hv : v ≠ .null) : Expr.bound v = .value v false := by
  rw [Expr.bound, Operand.toExpr]
  exact hv

theorem isNull_value (hv : v ≠ .null) (const : Bool) : (Expr.value v const).isNull = false := by
  rw [Expr.isNull]
  rintro _ ⟨rfl⟩
  exact hv rfl

theorem decodeAt_bound {j : Json} (hj : needsWrap j = false) (path : String) :
    decodeAt path j = .ok (boundValue j) := by
  rw [decodeAt.eq_def]
  split
  · cases hj
  · cases hj
  · rfl

theorem transmits_null (hnull : Value.HasDocument σ .null) : Transmits σ .null := by
  have hrelayed : Expr.relayed σ .null = .null :=
    congrArg (Expr.value · true) ((σ .null).isNull_iff.mp hnull.isNull)
  refine ⟨.json .null, .null, rfl, ⟨rfl, by simp [Json.numbers]⟩, rfl, fun path => ?_⟩
  rw [decodeAt_null, hrelayed]

theorem ne_null_of_hasDocument (hv : v.HasDocument σ) (hnull : v ≠ .null) : σ v ≠ .null := by
  rw [Ne, ← Value.isNull_iff, hv.isNull, Value.isNull_iff]
  exact hnull

-- A bound value stands for itself in a document, unless it looks like a node.
theorem transmits_bound (hv : v.HasDocument σ) (hnull : v ≠ .null) :
    Transmits σ (.value v false) := by
  have hread : ∀ j, Value.ofJson j = σ v → boundValue j = .value (σ v) false := by
    intro j hvalue
    rw [boundValue, hvalue, bound_of_ne_null (ne_null_of_hasDocument hv hnull)]
  obtain ⟨j, hj, hnumbers, hvalue, hjnull⟩ := hv
  have hwrites : Writes (.json j) j := ⟨rfl, hnumbers⟩
  have hdraft : draft (.value v false) =
      .ok (if needsWrap j then .node "value" [("v", .json j)] else .json j) := by
    rw [draft_value, draftValue, if_neg (by simp), boundJson, hj]
    · rfl
    · exact hnull
  cases hwrap : needsWrap j with
  | true =>
    rw [hwrap, if_pos rfl] at hdraft
    have hlast : Json.last? [("$", .string "value"), ("v", j)] "v" = some j := by simp [Json.last?]
    refine ⟨_, _, hdraft, (writesMembers_nil.cons "v" hwrites).node "value",
      (isNull_value hnull false).symm, fun path => ?_⟩
    rw [decodeAt_node rfl, decodeNode_value, hlast, Option.getD_some, hread j hvalue]
    rfl
  | false =>
    rw [hwrap] at hdraft
    refine ⟨_, j, hdraft, hwrites, ?_, fun path => ?_⟩
    · rw [hjnull, isNull_value hnull, ← Bool.not_eq_true, Value.isNull_iff]
      exact hnull
    · rw [decodeAt_bound hwrap, hread j hvalue]
      rfl

theorem transmits_constant (hv : v.HasDocument σ) (hnull : v ≠ .null)
    (hprimitive : (σ v).isPrimitive = true) : Transmits σ (.value v true) := by
  have hfalse : v.isNull = false := by
    rw [← Bool.not_eq_true, Value.isNull_iff]
    exact hnull
  have hread : (σ v).isNull = false := hv.isNull.trans hfalse
  obtain ⟨j, hj, hnumbers, hvalue, hjnull⟩ := hv
  have hwrites : Writes (.const v) j := ⟨by rw [Draft.finish, hj]; rfl, hnumbers⟩
  have hdraft : draft (.value v true) = .ok (.node "const" [("v", .const v)]) := by
    rw [draft_value, draftValue, if_pos rfl]
    exact hnull
  have hlast : Json.last? [("$", .string "const"), ("v", j)] "v" = some j := by simp [Json.last?]
  refine ⟨_, _, hdraft, (writesMembers_nil.cons "v" hwrites).node "const",
    (isNull_value hnull true).symm, fun path => ?_⟩
  rw [decodeAt_node rfl, decodeNode, decodeConst, present?_eq hlast (hjnull.trans hfalse)]
  dsimp only
  rw [hvalue, Expr.constant, hread, hprimitive]
  rfl

theorem transmits_value {const : Bool} (hv : v.HasDocument σ)
    (hnull : v.isNull = true → const = true)
    (hprimitive : const = true → v.isNull = true ∨ (σ v).isPrimitive = true) :
    Transmits σ (.value v const) := by
  by_cases h : v = .null
  · subst h
    obtain rfl : const = true := hnull rfl
    exact transmits_null hv
  · cases const with
    | true =>
      exact transmits_constant hv h
        ((hprimitive rfl).resolve_left fun hv => h (v.isNull_iff.mp hv))
    | false => exact transmits_bound hv h

theorem transmits_fragment {key : String} (hkey : Text.isIdentifier key = true)
    (hv : v.HasDocument σ) : Transmits σ (.fragment key v) := by
  have hmake : ∀ arg : Value, Expr.sql key arg = .ok (.fragment key arg) := by
    intro arg
    rw [Expr.sql, checkIdentifier_eq_ok hkey]
    rfl
  have hbase := writesMembers_nil.cons "key" (writes_text key)
  by_cases hnull : v = .null
  · subst hnull
    have hrelayed : (Expr.fragment key .null).relayed σ = .fragment key .null :=
      congrArg (Expr.fragment key) ((σ .null).isNull_iff.mp hv.isNull)
    refine ⟨_, _, rfl, hbase.node "sql", rfl, fun path => ?_⟩
    rw [decodeAt_node rfl, decodeNode, requiredText_eq _ rfl, hrelayed]
    change refused _ (Expr.sql key .null) = _
    rw [hmake]
    rfl
  · obtain ⟨j, hj, hnumbers, hvalue, -⟩ := hv
    have hwrites : Writes (.json j) j := ⟨rfl, hnumbers⟩
    have hdraft : draft (.fragment key v) =
        .ok (.node "sql" [("arg", .json j), ("key", .text key)]) := by
      rw [draft, boundJson, hj]
      · rfl
      · exact hnull
    refine ⟨_, _, hdraft, (hbase.cons "arg" hwrites).node "sql", rfl, fun path => ?_⟩
    rw [decodeAt_node rfl, decodeNode, requiredText_eq _ rfl]
    change refused _ (Expr.sql key (Value.ofJson j)) = _
    rw [hmake, hvalue]
    rfl

end Literals

section Nodes

theorem transmits_property {owner name : String}
    (h : (Expr.property owner name).isProper = true) : Transmits σ (.property owner name) := by
  rw [Expr.isProper, Bool.and_eq_true] at h
  refine ⟨_, _, rfl, (writesMembers_nil.cons "@" (writes_text _)).object, rfl, fun path => ?_⟩
  rw [decodeAt, decodeProperty]
  simp only [Json.last?, beq_self_eq_true, if_true]
  rw [Expr.ofPath_path h.1 h.2]
  rfl

theorem transmits_unary {op : UnaryOp} {x : Expr} (hop : op.isValid = true) (hx : Transmits σ x) :
    Transmits σ (.unary op x) := by
  obtain ⟨d, j, hd, hj, -, hread⟩ := hx
  refine ⟨_, _, by rw [draft, hd]; rfl,
    ((writesMembers_nil.cons "x" hj).cons "op" (writes_text _)).node "unary", rfl, fun path => ?_⟩
  rw [decodeAt_node rfl, decodeNode, requiredText_eq _ rfl, decodeMember_eq rfl, hread]
  simp only [UnaryOp.ofName?_name hop, bind, Except.bind]
  rfl

-- Comparisons and computations are written alike, and the operator tells them apart.
theorem transmits_binary {op : String} {l r e : Expr} (hl : Transmits σ l) (hr : Transmits σ r)
    (hnull : e.isNull = false)
    (hdraft : ∀ dl dr, draft l = .ok dl → draft r = .ok dr →
      draft e = .ok (.node "bin" [("l", dl), ("op", .text op), ("r", dr)]))
    (hread : ∀ path, binaryOf path op (l.relayed σ) (r.relayed σ) = .ok (e.relayed σ)) :
    Transmits σ e := by
  obtain ⟨dl, jl, hdl, hjl, -, hreadl⟩ := hl
  obtain ⟨dr, jr, hdr, hjr, -, hreadr⟩ := hr
  refine ⟨_, _, hdraft dl dr hdl hdr,
    (((writesMembers_nil.cons "r" hjr).cons "op" (writes_text op)).cons "l" hjl).node "bin",
    hnull.symm, fun path => ?_⟩
  rw [decodeAt_node rfl, decodeNode, requiredText_eq _ rfl, decodeMember_eq rfl, hreadl,
    decodeMember_eq rfl, hreadr]
  exact hread path

theorem transmits_compare {op : LogicOp} {l r : Expr} (hop : op.isValid = true)
    (hl : Transmits σ l) (hr : Transmits σ r) : Transmits σ (.compare op l r) := by
  refine transmits_binary hl hr rfl (fun dl dr hdl hdr => by rw [draft, hdl, hdr]; rfl) ?_
  intro path
  rw [binaryOf, LogicOp.ofName?_name hop]
  rfl

theorem transmits_compute {op : ValueOp} {l r : Expr} (hop : op.isValid = true)
    (hl : Transmits σ l) (hr : Transmits σ r) : Transmits σ (.compute op l r) := by
  refine transmits_binary hl hr rfl (fun dl dr hdl hdr => by rw [draft, hdl, hdr]; rfl) ?_
  intro path
  rw [binaryOf, (ValueOp.ofName?_name hop).1, (ValueOp.ofName?_name hop).2]
  rfl

theorem transmits_all {es : List Expr} (hes : ∀ e ∈ es, Transmits σ e) :
    ∃ ds js, draftAll es = .ok ds ∧ WritesAll ds js ∧
      ∀ path i, decodeItems path i js = .ok (es.map (Expr.relayed σ)) := by
  induction es with
  | nil => exact ⟨[], [], draftAll_nil, writesAll_nil, fun path i => decodeItems_nil⟩
  | cons e es ih =>
    obtain ⟨⟨d, j, hd, hj, -, hread⟩, hrest⟩ := List.forall_mem_cons.mp hes
    obtain ⟨ds, js, hds, hjs, hreads⟩ := ih hrest
    refine ⟨d :: ds, j :: js, by rw [draftAll, hd, hds]; rfl, hjs.cons hj, fun path i => ?_⟩
    rw [decodeItems, hread, hreads]
    rfl

theorem transmits_call {name : String} {args : List Expr} (hname : Text.isIdentifier name = true)
    (hargs : ∀ x ∈ args, Transmits σ x) : Transmits σ (.call name args) := by
  obtain ⟨ds, js, hds, hjs, hreads⟩ := transmits_all hargs
  refine ⟨_, _, by rw [draft, hds]; rfl,
    ((writesMembers_nil.cons "name" (writes_text _)).cons "args" hjs.array).node "func", rfl,
    fun path => ?_⟩
  rw [decodeAt_node rfl, decodeNode, requiredText_eq _ rfl, decodeList_eq rfl, hreads,
    Expr.relayed_call]
  change refused _ (Expr.func name (args.map (Expr.relayed σ))) = _
  rw [Expr.func, checkIdentifier_eq_ok hname]
  rfl

theorem checkLogic_eq_ok {es : List Expr} (hes : ∀ e ∈ es, e.isLogic = true) (path : String)
    (i : Nat) : checkLogic path i es = .ok () := by
  induction es generalizing i with
  | nil => rfl
  | cons e es ih =>
    obtain ⟨he, hrest⟩ := List.forall_mem_cons.mp hes
    rw [checkLogic, logicAt, if_pos he]
    exact ih hrest (i + 1)

-- Nothing is spliced into a set that has no children of its own kind.
theorem join_of_flat {kind : SetKind} {es : List Expr} (hes : ∀ e ∈ es, e.isSetOf kind = false) :
    Expr.join kind es = .set kind es := by
  have hspliced : ∀ e ∈ es, Expr.spliced kind e = [e] := by
    intro e he
    have hkind := hes e he
    cases e with
    | set k items =>
      change (k == kind) = false at hkind
      simp only [Expr.spliced, hkind, Bool.false_eq_true, if_false]
    | _ => rfl
  rw [Expr.join, List.flatMap_def, List.map_congr_left hspliced, ← List.flatMap_def,
    List.flatMap_singleton']

theorem transmits_set {kind : SetKind} {items : List Expr}
    (h : (Expr.set kind items).isProper = true) (hitems : ∀ x ∈ items, Transmits σ x) :
    Transmits σ (.set kind items) := by
  rw [Expr.isProper, Bool.and_eq_true, Bool.and_eq_true] at h
  obtain ⟨⟨hkind, hflat⟩, hlogic⟩ := h
  obtain ⟨ds, js, hds, hjs, hreads⟩ := transmits_all hitems
  refine ⟨_, _, by rw [draft, hds]; rfl,
    ((writesMembers_nil.cons "kind" (writes_text _)).cons "items" hjs.array).node "set", rfl,
    fun path => ?_⟩
  have hjoin : Expr.join kind (items.map (Expr.relayed σ)) =
      .set kind (items.map (Expr.relayed σ)) := by
    refine join_of_flat (List.forall_mem_map.mpr fun x hx => ?_)
    simpa [Expr.isSetOf_relayed] using List.all_eq_true.mp hflat x hx
  rw [decodeAt_node rfl, decodeNode, requiredText_eq _ rfl, decodeList_eq rfl, hreads,
    Expr.relayed_set]
  simp only [SetKind.ofName?_name hkind, bind, Except.bind]
  split
  · next hlogical =>
    have hpredicates : ∀ e ∈ items.map (Expr.relayed σ), e.isLogic = true := by
      refine List.forall_mem_map.mpr fun x hx => ?_
      rw [hlogical] at hlogic
      rw [Expr.isLogic_relayed]
      exact List.all_eq_true.mp hlogic x hx
    rw [checkLogic_eq_ok hpredicates]
    exact congrArg Except.ok hjoin
  · exact congrArg Except.ok hjoin

theorem transmits_option {o : Option Expr} (ho : ∀ x ∈ o, Transmits σ x) (name : String) :
    ∃ ds oj, draftOption name o = .ok ds ∧ WritesMembers ds (optional name oj) ∧
      ∀ path ms, Json.last? ms name = oj →
        decodeOption path ms name = .ok ((Expr.shown o).map (Expr.relayed σ)) := by
  cases o with
  | none =>
    exact ⟨[], none, draftOption_none name, writesMembers_nil, fun path ms h => decodeOption_none h⟩
  | some x =>
    obtain ⟨d, j, hd, hj, hjnull, hread⟩ := ho x rfl
    refine ⟨[(name, d)], some j, by rw [draftOption, hd]; rfl, writesMembers_nil.cons name hj,
      fun path ms h => ?_⟩
    cases hx : x.isNull with
    | true =>
      cases j with
      | null =>
        rw [decodeOption_null h, Expr.shown_of_isNull hx]
        rfl
      | _ => cases hjnull.trans hx
    | false =>
      rw [decodeOption_some h (hjnull.trans hx), hread, Expr.shown_of_not_isNull hx]
      rfl

theorem transmits_aggregate {name : String} {arg : Option Expr} {distinct : Bool}
    (hname : Text.isIdentifier name = true) (harg : ∀ x ∈ arg, Transmits σ x) :
    Transmits σ (.aggregate name arg distinct) := by
  obtain ⟨ds, oj, hds, hjs, hread⟩ := transmits_option harg "arg"
  have hwrites := (hjs.append (writesMembers_flag "distinct" distinct)).append
    (writesMembers_nil.cons "name" (writes_text name))
  refine ⟨_, _, by rw [draft, hds]; rfl, hwrites.node "aggregate", rfl, fun path => ?_⟩
  rw [decodeAt_node (by simp), decodeNode, requiredText_eq name (by simp),
    hread _ _ (by simp), flag_eq distinct (by simp), Expr.relayed_aggregate]
  change refused _ (Expr.aggregated name _ distinct) = _
  rw [Expr.aggregated, checkIdentifier_eq_ok hname]
  rfl

theorem existing_eq_ok {relation label : String} {tableArgs : List String}
    (hrelation : Text.isIdentifier relation = true) (hlabel : isLabel label = true)
    (hargs : ∀ s ∈ tableArgs, Text.isIdentifier s = true) (inner : Option Expr) :
    Expr.existing relation label inner tableArgs =
      .ok (.related relation label inner tableArgs) := by
  rw [isLabel, Bool.or_eq_true] at hlabel
  rw [Expr.existing, checkIdentifier_eq_ok hrelation, forM_checkIdentifier hargs]
  cases hempty : label.isEmpty with
  | true => rfl
  | false =>
    rw [checkIdentifier_eq_ok (hlabel.resolve_left (by simp [hempty]))]
    rfl

theorem transmits_related {relation label : String} {inner : Option Expr} {tableArgs : List String}
    (hrelation : Text.isIdentifier relation = true) (hlabel : isLabel label = true)
    (hlogic : ∀ x ∈ inner, x.isLogic = true)
    (hargs : ∀ s ∈ tableArgs, Text.isIdentifier s = true)
    (hinner : ∀ x ∈ inner, Transmits σ x) :
    Transmits σ (.related relation label inner tableArgs) := by
  obtain ⟨ds, oj, hds, hjs, hread⟩ := transmits_option hinner "inner"
  have hwrites := (((writesMembers_label "alias" label).append
    (writesMembers_texts "args" tableArgs)).append hjs).append
    (writesMembers_nil.cons "relation" (writes_text relation))
  refine ⟨_, _, by rw [draft, hds]; rfl, hwrites.node "foreign", rfl, fun path => ?_⟩
  rw [decodeAt_node (by simp), decodeNode, requiredText_eq relation (by simp),
    optionalText_eq label (by simp), hread _ _ (by simp), items_texts tableArgs (by simp),
    Expr.relayed_related]
  have hmake := existing_eq_ok hrelation hlabel hargs
  cases hshown : Expr.shown inner with
  | none =>
    change (texts _ 0 (tableArgs.map .string) >>= _) = _
    rw [texts_map_string]
    change refused path (Expr.existing relation label none tableArgs) = _
    rw [hmake]
    rfl
  | some x =>
    have hx : x.isLogic = true := hlogic x (Option.filter_eq_some_iff.mp hshown).1
    change (discard (logicAt _ (x.relayed σ)) >>= _) = _
    rw [logicAt, if_pos (by rw [Expr.isLogic_relayed, hx])]
    change (texts _ 0 (tableArgs.map .string) >>= _) = _
    rw [texts_map_string]
    change refused path (Expr.existing relation label (some (x.relayed σ)) tableArgs) = _
    rw [hmake]
    rfl

end Nodes

section Stages

abbrev relayedQuery (σ : Value → Value) (q : Query) : Query := q.mapParts (Expr.relayed σ)

theorem isFilterable_relayedQuery (q : Query) :
    (relayedQuery σ q).isFilterable = q.isFilterable := by
  cases q <;> rfl

theorem isPlain_relayedQuery (q : Query) : (relayedQuery σ q).isPlain = q.isPlain := by
  cases q <;> rfl

theorem isGroup_relayedQuery (q : Query) : (relayedQuery σ q).isGroup = q.isGroup := by
  cases q <;> rfl

theorem isProjectable_relayedQuery (q : Query) :
    (relayedQuery σ q).isProjectable = q.isProjectable := by
  cases q <;> rfl

def TransmitsQuery (σ : Value → Value) (q : Query) : Prop :=
  ∃ d j, draftQuery q = .ok d ∧ Writes d j ∧ j.isNull = false ∧
    ∀ path, decodeAt path j = .ok (.query (relayedQuery σ q))

theorem transmits_rows {object : String} (hobject : Text.isIdentifier object = true) :
    TransmitsQuery σ (.rows object) := by
  refine ⟨_, _, draftQuery_rows object,
    (writesMembers_nil.cons "object" (writes_text object)).node "from", rfl, fun path => ?_⟩
  rw [decodeAt_node rfl, decodeNode, requiredText_eq _ rfl]
  change (refused _ (Query.ofObject object) >>= _) = _
  rw [Query.ofObject, checkIdentifier_eq_ok hobject]
  rfl

-- A stage with one member besides its source: what is left to show is how the stage reads itself
-- after the source has been read.
theorem transmits_stage {q r : Query} (tag name : String) {d : Draft} {j : Json}
    (htag : tag ∈ ["where", "groupby", "having", "orderby", "select"]) (hname : name ≠ "$")
    (hq : TransmitsQuery σ q) (hj : Writes d j)
    (hdraft : ∀ dq, draftQuery q = .ok dq →
      draftQuery r = .ok (.node tag [(name, d), ("source", dq)]))
    (hread : ∀ path jq, decodeStage path [("$", .string tag), (name, j), ("source", jq)] tag
      (relayedQuery σ q) = .ok (.query (relayedQuery σ r))) : TransmitsQuery σ r := by
  obtain ⟨dq, jq, hdq, hjq, -, hreadq⟩ := hq
  refine ⟨_, _, hdraft dq hdq, ((writesMembers_nil.cons "source" hjq).cons name hj).node tag, rfl,
    fun path => ?_⟩
  have hsource : Json.last? [("$", .string tag), (name, j), ("source", jq)] "source" = some jq := by
    simp
  rw [decodeAt_node (by simp [hname])]
  simp only [List.mem_cons, List.not_mem_nil, or_false] at htag
  obtain rfl | rfl | rfl | rfl | rfl := htag
  all_goals
    rw [decodeNode, decodeMember_eq hsource, hreadq]
    exact hread path jq

theorem transmits_filter {q : Query} {p : Expr} (hq : TransmitsQuery σ q) (hp : Transmits σ p)
    (hstage : q.isFilterable = true) (hlogic : p.isLogic = true) :
    TransmitsQuery σ (.filter q p) := by
  obtain ⟨dp, jp, hdp, hjp, -, hreadp⟩ := hp
  refine transmits_stage "where" "predicate" (by simp) (by decide) hq hjp
    (fun dq hdq => by rw [draftQuery, hdq, hdp]; rfl) fun path jq => ?_
  rw [decodeStage, if_pos (by rw [isFilterable_relayedQuery, hstage]), decodeMember_eq rfl, hreadp]
  change (logicAt _ (p.relayed σ) >>= _) = _
  rw [logicAt, if_pos (by rw [Expr.isLogic_relayed, hlogic])]
  rfl

theorem transmits_group {q : Query} {keys : List Expr} (hq : TransmitsQuery σ q)
    (hkeys : ∀ x ∈ keys, Transmits σ x) (hstage : q.isPlain = true) :
    TransmitsQuery σ (.group q keys) := by
  obtain ⟨ds, js, hds, hjs, hreads⟩ := transmits_all hkeys
  refine transmits_stage "groupby" "keys" (by simp) (by decide) hq hjs.array
    (fun dq hdq => by rw [draftQuery, hdq, hds]; rfl) fun path jq => ?_
  rw [decodeStage_group (by rw [isPlain_relayedQuery, hstage]), decodeList_eq rfl, hreads]
  rfl

theorem transmits_having {q : Query} {p : Expr} (hq : TransmitsQuery σ q) (hp : Transmits σ p)
    (hstage : q.isGroup = true) (hlogic : p.isLogic = true) : TransmitsQuery σ (.having q p) := by
  obtain ⟨dp, jp, hdp, hjp, -, hreadp⟩ := hp
  refine transmits_stage "having" "predicate" (by simp) (by decide) hq hjp
    (fun dq hdq => by rw [draftQuery, hdq, hdp]; rfl) fun path jq => ?_
  rw [decodeStage, if_pos (by rw [isGroup_relayedQuery, hstage]), decodeMember_eq rfl, hreadp]
  change (logicAt _ (p.relayed σ) >>= _) = _
  rw [logicAt, if_pos (by rw [Expr.isLogic_relayed, hlogic])]
  rfl

theorem transmits_keys {ks : List (SortKey Expr)} (hks : ∀ x ∈ ks.map (·.expr), Transmits σ x) :
    ∃ ds js, draftKeys ks = .ok ds ∧ WritesAll ds js ∧ ∀ path i, decodeKeys path i js =
      .ok (ks.map fun k => ⟨k.expr.relayed σ, k.ascending⟩) := by
  induction ks with
  | nil => exact ⟨[], [], draftKeys_nil, writesAll_nil, fun path i => decodeKeys_nil⟩
  | cons k ks ih =>
    obtain ⟨e, asc⟩ := k
    obtain ⟨⟨d, j, hd, hj, -, hread⟩, hrest⟩ := List.forall_mem_cons.mp hks
    obtain ⟨ds, js, hds, hjs, hreads⟩ := ih hrest
    have hkey := ((writesMembers_nil.cons "x" hj).cons "asc" (writes_bool asc)).object
    refine ⟨_, _, by rw [draftKeys, hd, hds]; rfl, hjs.cons hkey, fun path i => ?_⟩
    rw [decodeKeys, decodeMember_eq rfl, hread, hreads]
    cases asc <;> rfl

theorem transmits_order {q : Query} {keys : List (SortKey Expr)} (hq : TransmitsQuery σ q)
    (hkeys : ∀ x ∈ keys.map (·.expr), Transmits σ x) (hstage : q.isPlain = true) :
    TransmitsQuery σ (.order q keys) := by
  obtain ⟨ds, js, hds, hjs, hreads⟩ := transmits_keys hkeys
  refine transmits_stage "orderby" "keys" (by simp) (by decide) hq hjs.array
    (fun dq hdq => by rw [draftQuery, hdq, hds]; rfl) fun path jq => ?_
  rw [decodeStage_order (by rw [isPlain_relayedQuery, hstage]) rfl, hreads]
  rfl

theorem transmits_window {q : Query} {offset limit : Int} (hq : TransmitsQuery σ q)
    (hstage : q.isPlain = true) (hoffset : 0 ≤ offset) (hlimit : noLimit ≤ limit)
    (hwide : Number.isInt64 offset = true) (hlong : Number.isInt64 limit = true) :
    TransmitsQuery σ (.window q offset limit) := by
  obtain ⟨dq, jq, hdq, hjq, -, hreadq⟩ := hq
  have hwrites := ((writesMembers_nil.cons "source" hjq).cons "skip" (writes_int offset)).append
    (writesMembers_limit "take" limit)
  refine ⟨_, _, by rw [draftQuery, hdq]; rfl, hwrites.node "section", rfl, fun path => ?_⟩
  rw [decodeAt_node (by simp), decodeNode, decodeMember_eq (j := jq) (by simp), hreadq]
  change decodeStage path _ "section" (relayedQuery σ q) = _
  rw [decodeStage, if_pos (by rw [isPlain_relayedQuery, hstage]),
    number_ofInt hwide 0 (by simp), number_limit hlong (by simp)]
  change (if offset < 0 then _ else _) = _
  rw [if_neg (by omega)]
  -- A limit below zero is none already.
  have hsame : (if limit < 0 then noLimit else limit) = limit := by
    unfold noLimit at hlimit ⊢
    split <;> omega
  change Except.ok (Expr.query (.window (relayedQuery σ q) offset
    (if limit < 0 then noLimit else limit))) = _
  rw [hsame]
  rfl

theorem transmits_columns {cs : List (Column Expr)} (hcs : ∀ x ∈ cs.map (·.expr), Transmits σ x)
    (hlabels : ∀ c ∈ cs, isLabel c.label = true) :
    ∃ ds js, draftColumns cs = .ok ds ∧ WritesAll ds js ∧ ∀ path i, decodeColumns path i js =
      .ok (cs.map fun c => ⟨c.expr.relayed σ, c.label⟩) := by
  induction cs with
  | nil => exact ⟨[], [], draftColumns_nil, writesAll_nil, fun path i => decodeColumns_nil⟩
  | cons c cs ih =>
    obtain ⟨e, label⟩ := c
    obtain ⟨⟨d, j, hd, hj, -, hread⟩, hrest⟩ := List.forall_mem_cons.mp hcs
    obtain ⟨hlabel, hmore⟩ := List.forall_mem_cons.mp hlabels
    obtain ⟨ds, js, hds, hjs, hreads⟩ := ih hrest hmore
    have hcolumn := ((writesMembers_label "as" label).append
      (writesMembers_nil.cons "x" hj)).object
    refine ⟨_, _, by rw [draftColumns, hd, hds]; rfl, hjs.cons hcolumn, fun path i => ?_⟩
    rw [decodeColumns, decodeMember_eq (j := j) (by simp), hread, optionalText_eq label (by simp),
      hreads]
    rw [isLabel, Bool.or_eq_true] at hlabel
    simp only [bind, Except.bind]
    cases hempty : label.isEmpty with
    | true => rfl
    | false =>
      rw [checkIdentifier_eq_ok (hlabel.resolve_left (by simp [hempty]))]
      rfl

theorem transmits_select {q : Query} {columns : List (Column Expr)} (hq : TransmitsQuery σ q)
    (hcolumns : ∀ x ∈ columns.map (·.expr), Transmits σ x)
    (hlabels : ∀ c ∈ columns, isLabel c.label = true) (hstage : q.isProjectable = true) :
    TransmitsQuery σ (.select q columns) := by
  obtain ⟨ds, js, hds, hjs, hreads⟩ := transmits_columns hcolumns hlabels
  refine transmits_stage "select" "columns" (by simp) (by decide) hq hjs.array
    (fun dq hdq => by rw [draftQuery, hdq, hds]; rfl) fun path jq => ?_
  rw [decodeStage_select (by rw [isProjectable_relayedQuery, hstage]) rfl, hreads]
  rfl

theorem transmits_query {q : Query} (h : q.isProper = true)
    (hparts : ∀ x ∈ q.parts, Transmits σ x) : TransmitsQuery σ q := by
  induction q with
  | rows object => exact transmits_rows h
  | filter q p ih =>
    obtain ⟨hq, hp⟩ := List.forall_mem_append.mp hparts
    simp only [Query.isProper, Bool.and_eq_true] at h
    exact transmits_filter (ih h.1.1 hq) (hp p List.mem_cons_self) h.1.2 h.2
  | group q keys ih =>
    obtain ⟨hq, hkeys⟩ := List.forall_mem_append.mp hparts
    simp only [Query.isProper, Bool.and_eq_true] at h
    exact transmits_group (ih h.1 hq) hkeys h.2
  | having q p ih =>
    obtain ⟨hq, hp⟩ := List.forall_mem_append.mp hparts
    simp only [Query.isProper, Bool.and_eq_true] at h
    exact transmits_having (ih h.1.1 hq) (hp p List.mem_cons_self) h.1.2 h.2
  | order q keys ih =>
    obtain ⟨hq, hkeys⟩ := List.forall_mem_append.mp hparts
    simp only [Query.isProper, Bool.and_eq_true] at h
    exact transmits_order (ih h.1 hq) hkeys h.2
  | window q offset limit ih =>
    simp only [Query.isProper, Bool.and_eq_true, decide_eq_true_eq] at h
    obtain ⟨⟨⟨⟨⟨hq, hstage⟩, hoffset⟩, hlimit⟩, hwide⟩, hlong⟩ := h
    exact transmits_window (ih hq hparts) hstage hoffset hlimit hwide hlong
  | select q columns ih =>
    obtain ⟨hq, hcolumns⟩ := List.forall_mem_append.mp hparts
    simp only [Query.isProper, Bool.and_eq_true] at h
    exact transmits_select (ih h.1.1 hq) hcolumns (List.all_eq_true.mp h.2) h.1.2

end Stages

-- The test of one node: its literal has a document, null is a constant and other constants are read
-- back as booleans or numbers; for the rest it is proper, except that an operand may be null.
def IsSendable (σ : Value → Value) : Expr → Prop
  | .value v const =>
    v.HasDocument σ ∧ (v.isNull = true → const = true) ∧
      (const = true → v.isNull = true ∨ (σ v).isPrimitive = true)
  | .aggregate name _ _ => Text.isIdentifier name = true
  | .related relation label inner tableArgs =>
    Text.isIdentifier relation = true ∧ isLabel label = true ∧ (∀ p ∈ inner, p.isLogic = true) ∧
      ∀ s ∈ tableArgs, Text.isIdentifier s = true
  | .fragment key arg => Text.isIdentifier key = true ∧ arg.HasDocument σ
  | e => e.isProper = true

theorem transmits (e : Expr) (he : ∀ x ∈ e.nodes, IsSendable σ x) : Transmits σ e := by
  induction e using Expr.ofParts with
  | step e ih =>
    have hnode : IsSendable σ e := he e e.self_mem_nodes
    have hparts : ∀ x ∈ e.parts, Transmits σ x :=
      fun x hx => ih x hx fun y hy => he y (Expr.mem_nodes_of_part hx hy)
    cases e with
    | value v const => exact transmits_value hnode.1 hnode.2.1 hnode.2.2
    | property owner name => exact transmits_property hnode
    | unary op x => exact transmits_unary hnode (hparts x (by simp [Expr.parts]))
    | compare op l r =>
      exact transmits_compare hnode (hparts l (by simp [Expr.parts]))
        (hparts r (by simp [Expr.parts]))
    | compute op l r =>
      exact transmits_compute hnode (hparts l (by simp [Expr.parts]))
        (hparts r (by simp [Expr.parts]))
    | call name args => exact transmits_call hnode hparts
    | aggregate name arg distinct =>
      exact transmits_aggregate hnode fun x hx => hparts x (Option.mem_toList.mpr hx)
    | set kind items => exact transmits_set hnode hparts
    | related relation label inner tableArgs =>
      obtain ⟨hrelation, hlabel, hlogic, hargs⟩ := hnode
      exact transmits_related hrelation hlabel hlogic hargs
        fun x hx => hparts x (Option.mem_toList.mpr hx)
    | fragment key arg => exact transmits_fragment hnode.1 hnode.2
    | query q =>
      obtain ⟨d, j, hd, hj, hnull, hread⟩ := transmits_query hnode hparts
      refine ⟨d, j, hd, hj, hnull, fun path => ?_⟩
      rw [hread, Expr.relayed_query]

theorem decodeText_relayed {e : Expr} (he : ∀ x ∈ e.nodes, IsSendable σ x) :
    ∃ s, encodeText e = .ok s ∧ decodeText s = .ok (e.relayed σ) := by
  obtain ⟨d, j, hd, ⟨hj, hnumbers⟩, -, hread⟩ := transmits e he
  refine ⟨j.write, ?_, ?_⟩
  · rw [encodeText, encode, hd]
    change (d.finish >>= _) = _
    rw [hj]
    rfl
  · rw [decodeText, Json.readPrefix_write j hnumbers]
    exact hread "$"

section WellFormed

theorem isSendable_of_isProper {e : Expr} (he : e.isProper = true) :
    IsSendable Value.normalize e := by
  cases e with
  | value v const =>
    obtain ⟨hv, hnull, hconst⟩ := Expr.literal_of_isProper he
    exact ⟨Value.hasDocument_of_portable hv, hnull,
      fun hc => (hconst hc).imp_right (Value.isPrimitive_normalize hv)⟩
  | aggregate name arg distinct =>
    rw [Expr.isProper, Bool.and_eq_true] at he
    exact he.1
  | related relation label inner tableArgs =>
    simp only [Expr.isProper, Bool.and_eq_true] at he
    obtain ⟨⟨⟨hrelation, hlabel⟩, hinner⟩, hargs⟩ := he
    refine ⟨hrelation, hlabel, ?_, List.all_eq_true.mp hargs⟩
    rintro p ⟨rfl⟩
    simp only [Option.all_some, Bool.and_eq_true] at hinner
    exact hinner.1
  | fragment key arg =>
    rw [Expr.isProper, Bool.and_eq_true] at he
    exact ⟨he.1, Value.hasDocument_of_portable he.2⟩
  | _ => exact he

theorem hasNullOperand_of_isWellFormed {e : Expr} (he : e.isWellFormed = true) :
    e.hasNullOperand = false := by
  rw [Expr.hasNullOperand, List.any_eq_false]
  intro o ho
  obtain ⟨x, hx, hoperand⟩ := List.mem_filterMap.mp ho
  have hproper : x.isProper = true := List.all_eq_true.mp he x hx
  cases o with
  | none => simp
  | some y =>
    cases x with
    | aggregate name arg distinct =>
      obtain rfl : arg = some y := Option.some.inj hoperand
      simp [Expr.isProper] at hproper
      simp [hproper.2]
    | related relation label inner tableArgs =>
      obtain rfl : inner = some y := Option.some.inj hoperand
      simp [Expr.isProper] at hproper
      simp [hproper.1.2.2]
    | _ => cases hoperand

theorem decodeText_encodeText {e : Expr} (he : e.isWellFormed = true) :
    ∃ s, encodeText e = .ok s ∧ decodeText s = .ok e.normal := by
  have hrelayed : e.relayed Value.normalize = e.normal := by
    rw [Expr.relayed, Expr.trimmed_eq_self (hasNullOperand_of_isWellFormed he), Expr.normal]
  rw [← hrelayed]
  exact decodeText_relayed fun x hx => isSendable_of_isProper (List.all_eq_true.mp he x hx)

end WellFormed

end QueryTree.Codec
