import QueryTree.Proofs.Codec.Place
import QueryTree.Proofs.Expr.Path

namespace QueryTree

open Text (isIdentifier)

variable {e : Expr} {kind : SetKind}

namespace Expr

-- The test of one node: names are identifiers, operators and kinds are known, sets are flat, a
-- literal is in canonical form and constant only as null, a boolean or a number, and the stages of
-- a query follow each other as they may.
def IsValidNode : Expr → Prop
  | .value v const => v.normalize = v ∧ (const = true → v.isNull = true ∨ v.isPrimitive = true)
  | .property owner name => isOwner owner = true ∧ isIdentifier name = true
  | .unary op _ => op.isValid = true
  | .compare op _ _ => op.isValid = true
  | .compute op _ _ => op.isValid = true
  | .call name _ => isIdentifier name = true
  | .aggregate name _ _ => isIdentifier name = true
  | .set kind items =>
    kind.isValid = true ∧ (∀ x ∈ items, x.isSetOf kind = false) ∧
      (kind.isLogical = true → ∀ x ∈ items, x.isLogic = true)
  | .related relation label inner tableArgs =>
    isIdentifier relation = true ∧ isLabel label = true ∧ (∀ p ∈ inner, p.isLogic = true) ∧
      ∀ s ∈ tableArgs, isIdentifier s = true
  | .fragment key arg => isIdentifier key = true ∧ arg.normalize = arg
  | .query q => q.isProper = true

def IsValid (e : Expr) : Prop := ∀ x ∈ e.nodes, x.IsValidNode

-- The test of the literal in a node that was read from a document: the value was read as well, and
-- null is a constant.
def IsReadNode : Expr → Prop
  | .value v const => v.IsRead ∧ (v.isNull = true → const = true)
  | .fragment _ arg => arg.IsRead
  | _ => True

-- What reading makes of a document: every node is valid and its literal was read. Called sound
-- below.
def IsRead (e : Expr) : Prop := ∀ x ∈ e.nodes, x.IsValidNode ∧ x.IsReadNode

theorem isRead_iff (e : Expr) :
    e.IsRead ↔ (e.IsValidNode ∧ e.IsReadNode) ∧ ∀ x ∈ e.parts, x.IsRead := by
  simp only [IsRead, nodes_eq e, List.forall_mem_cons, List.forall_mem_flatMap]

theorem IsRead.isValid (h : e.IsRead) : e.IsValid := fun x hx => (h x hx).1

theorem IsRead.node (h : e.IsRead) : e.IsValidNode := ((isRead_iff e).mp h).1.1

theorem IsRead.part {x : Expr} (h : e.IsRead) (hx : x ∈ e.parts) : x.IsRead :=
  ((isRead_iff e).mp h).2 x hx

end Expr

section Names

theorem of_find_table {α β : Type} {table : List (α × β)} {test : α × β → Bool}
    {valid : α → Bool} {a : α} (htable : ∀ x ∈ table, valid x.1 = true)
    (h : (table.find? test).map (·.1) = some a) : valid a = true := by
  obtain ⟨x, hx, rfl⟩ := Option.map_eq_some_iff.mp h
  exact htable x (List.mem_of_find?_eq_some hx)

-- An empty label is not checked.
theorem isLabel_of_check {α : Type} (kind : String) {label : String}
    {next : Unit → Except Error α} {a : α}
    (h : (if label.isEmpty = true then next () else checkIdentifier kind label >>= next) = .ok a) :
    isLabel label = true ∧ next () = .ok a := by
  rw [isLabel, Bool.or_eq_true]
  split at h
  · next hempty => exact ⟨.inl hempty, h⟩
  · obtain ⟨⟨⟩, hlabel, h⟩ := Compilation.bind_ok h
    exact ⟨.inr (isIdentifier_of_check hlabel), h⟩

end Names

namespace Expr

theorem isRead_of_leaf (hnode : e.IsValidNode) (hread : e.IsReadNode) (hleaf : e.parts = []) :
    e.IsRead := by
  rw [isRead_iff, hleaf]
  exact ⟨⟨hnode, hread⟩, fun _ hx => absurd hx List.not_mem_nil⟩

theorem isRead_null : IsRead null :=
  isRead_of_leaf ⟨rfl, fun _ => .inl rfl⟩ ⟨.null, fun _ => rfl⟩ rfl

theorem isRead_ofPath {p : String} (h : ofPath p = .ok e) : e.IsRead := by
  obtain ⟨owner, name, rfl, howner, hname, -⟩ := path_of_ofPath h
  exact isRead_of_leaf ⟨howner, hname⟩ trivial rfl

theorem isRead_bound {v : Value} (hv : v.normalize = v) (hread : v.IsRead) :
    (bound v).IsRead := by
  by_cases hnull : v = .null
  · subst hnull
    exact isRead_null
  · have hbound : bound v = .value v false := by
      cases v <;> first | rfl | exact absurd rfl hnull
    rw [hbound]
    refine isRead_of_leaf ⟨hv, fun hconst => nomatch hconst⟩ ⟨hread, fun h => ?_⟩ rfl
    exact absurd (v.isNull_iff.mp h) hnull

theorem isRead_constant {v : Value} (hv : v.normalize = v) (hread : v.IsRead)
    (h : constant v = .ok e) : e.IsRead := by
  unfold constant at h
  split at h
  · cases h
    exact isRead_null
  · split at h
    · next hprimitive =>
      cases h
      exact isRead_of_leaf ⟨hv, fun _ => .inr hprimitive⟩ ⟨hread, fun _ => rfl⟩ rfl
    · cases h

theorem isRead_func {name : String} {args : List Expr} (hargs : ∀ x ∈ args, x.IsRead)
    (h : func name args = .ok e) : e.IsRead := by
  obtain ⟨⟨⟩, hname, h⟩ := Compilation.bind_ok h
  cases h
  exact (isRead_iff _).mpr ⟨⟨isIdentifier_of_check hname, trivial⟩, hargs⟩

theorem isRead_aggregated {name : String} {arg : Option Expr} {distinct : Bool}
    (harg : ∀ x ∈ arg, x.IsRead) (h : aggregated name arg distinct = .ok e) : e.IsRead := by
  obtain ⟨⟨⟩, hname, h⟩ := Compilation.bind_ok h
  cases h
  refine (isRead_iff _).mpr ⟨⟨isIdentifier_of_check hname, trivial⟩, fun x hx => ?_⟩
  exact harg x (Option.mem_toList.mp hx)

theorem isRead_existing {relation label : String} {inner : Option Expr} {tableArgs : List String}
    (hinner : ∀ x ∈ inner, x.IsRead) (hlogic : ∀ x ∈ inner, x.isLogic = true)
    (h : existing relation label inner tableArgs = .ok e) : e.IsRead := by
  unfold existing at h
  obtain ⟨⟨⟩, hrelation, h⟩ := Compilation.bind_ok h
  obtain ⟨hlabel, h⟩ := isLabel_of_check _ h
  obtain ⟨⟨⟩, htables, h⟩ := Compilation.bind_ok h
  cases h
  refine (isRead_iff _).mpr ⟨⟨?_, trivial⟩, fun x hx => hinner x (Option.mem_toList.mp hx)⟩
  exact ⟨isIdentifier_of_check hrelation, hlabel, hlogic, isIdentifier_of_checks htables⟩

theorem isRead_sql {key : String} {arg : Value} (harg : arg.normalize = arg) (hread : arg.IsRead)
    (h : sql key arg = .ok e) : e.IsRead := by
  obtain ⟨⟨⟩, hkey, h⟩ := Compilation.bind_ok h
  cases h
  exact isRead_of_leaf ⟨isIdentifier_of_check hkey, harg⟩ hread rfl

-- What an expression gives to a set is sound as the expression is, and no set of the same kind.
theorem isRead_of_spliced {x : Expr} (he : e.IsRead) (hx : x ∈ spliced kind e) :
    x.IsRead ∧ x.isSetOf kind = false := by
  unfold spliced at hx
  split at hx
  · next k items =>
    split at hx
    · next hkind =>
      cases eq_of_beq hkind
      exact ⟨he.part hx, he.node.2.1 x hx⟩
    · next hkind =>
      cases List.mem_singleton.mp hx
      exact ⟨he, Bool.eq_false_iff.mpr hkind⟩
  · next hset =>
    cases List.mem_singleton.mp hx
    refine ⟨he, ?_⟩
    cases e with
    | set k items => exact absurd rfl (hset k items)
    | _ => rfl

theorem isLogic_of_spliced {x : Expr} (he : e.IsRead) (hkind : kind.isLogical = true)
    (hlogic : e.isLogic = true) (hx : x ∈ spliced kind e) : x.isLogic = true := by
  unfold spliced at hx
  split at hx
  · next k items =>
    split at hx
    · next hk =>
      cases eq_of_beq hk
      exact he.node.2.2 hkind x hx
    · cases List.mem_singleton.mp hx
      rfl
  · cases List.mem_singleton.mp hx
    exact hlogic

theorem isRead_join {es : List Expr} (hkind : kind.isValid = true) (hes : ∀ x ∈ es, x.IsRead)
    (hlogic : kind.isLogical = true → ∀ x ∈ es, x.isLogic = true) : (join kind es).IsRead := by
  have hsource : ∀ x ∈ es.flatMap (spliced kind), ∃ e ∈ es, x ∈ spliced kind e := by
    intro x hx
    exact List.mem_flatMap.mp hx
  refine (isRead_iff _).mpr ⟨⟨⟨hkind, ?_, ?_⟩, trivial⟩, ?_⟩
  · intro x hx
    obtain ⟨e, he, hx⟩ := hsource x hx
    exact (isRead_of_spliced (hes e he) hx).2
  · intro hlogical x hx
    obtain ⟨e, he, hx⟩ := hsource x hx
    exact isLogic_of_spliced (hes e he) hlogical (hlogic hlogical e he) hx
  · intro x hx
    obtain ⟨e, he, hx⟩ := hsource x hx
    exact (isRead_of_spliced (hes e he) hx).1

end Expr

namespace Codec

variable {path key : String} {ms : Members} {js : List Json} {i : Nat}

theorem isRead_boundValue {j : Json} (hj : (Value.ofJson j).IsRead) : (boundValue j).IsRead :=
  Expr.isRead_bound (Value.normalize_ofJson j) hj

-- What is read from a document, as a value or as an expression.
structure ReadsWell (j : Json) : Prop where
  value : (Value.ofJson j).IsRead
  expr : ∀ path, Reads path j Expr.IsRead (decodeAt path j)

theorem inside_last? {v : Json} (h : Json.last? ms key = some v) : v.Inside (.object ms) :=
  .part (Json.mem_of_last? h)

section Lists

variable {all : List Json}

theorem reads_decodeItems (hall : all.drop i = js) (hjs : ∀ j ∈ js, ReadsWell j) :
    Reads path (.array all) (fun es => (∀ x ∈ es, x.IsRead) ∧ es.length = js.length)
      (decodeItems path i js) := by
  induction js generalizing i with
  | nil =>
    rw [decodeItems_nil]
    exact .ok ⟨by simp, rfl⟩
  | cons j js ih =>
    obtain ⟨hj, hrest⟩ := drop_cons hall
    obtain ⟨hread, hjs⟩ := List.forall_mem_cons.mp hjs
    rw [decodeItems]
    refine ((hread.expr _).inItem hj).bind fun e he => (ih hrest hjs).map fun es hes => ?_
    exact ⟨List.forall_mem_cons.mpr ⟨he, hes.1⟩, congrArg (· + 1) hes.2⟩

theorem reads_decodeMember (hms : ∀ v, v.Inside (.object ms) → ReadsWell v) (hkey : IsKey key) :
    Reads path (.object ms) (fun e => e.IsRead ∧ ∃ v, Json.last? ms key = some v)
      (decodeMember path ms key) := by
  rw [decodeMember]
  split
  · next h => exact reads_missing hkey (by rw [present?, h])
  · next v hv =>
    obtain ⟨hlocated, hholds⟩ := ((hms v (inside_last? hv)).expr _).inMember hkey hv
    exact ⟨hlocated, fun e he => ⟨hholds e he, v, hv⟩⟩

-- Sort keys and columns are objects, whose members stand inside them.
theorem reads_decodeKeys (hall : all.drop i = js)
    (hjs : ∀ v, v.Inside (.array js) → ReadsWell v) :
    Reads path (.array all) (fun ks => ∀ x ∈ ks.map (·.expr), x.IsRead)
      (decodeKeys path i js) := by
  induction js generalizing i with
  | nil =>
    rw [decodeKeys_nil]
    exact .ok (by simp)
  | cons j js ih =>
    obtain ⟨hj, hrest⟩ := drop_cons hall
    have hnext := ih hrest fun v hv => hjs v (hv.cons j)
    cases j with
    | object ms =>
      have hms : ∀ v, v.Inside (.object ms) → ReadsWell v :=
        fun v hv => hjs v (.within List.mem_cons_self hv)
      rw [decodeKeys]
      refine ((reads_decodeMember hms (by decide)).inItem hj).bind fun e he => ?_
      refine ((reads_flag (by decide)).inItem hj).bind fun asc _ => ?_
      exact hnext.map fun ks hks => List.forall_mem_cons.mpr ⟨he.1, hks⟩
    | _ =>
      rw [decodeKeys]
      · exact (reads_fail (by decide)).inItem hj
      · simp

def AreRead (cs : List (Column Expr)) : Prop :=
  (∀ x ∈ cs.map (·.expr), x.IsRead) ∧ ∀ c ∈ cs, isLabel c.label = true

theorem reads_decodeColumns (hall : all.drop i = js)
    (hjs : ∀ v, v.Inside (.array js) → ReadsWell v) :
    Reads path (.array all) AreRead (decodeColumns path i js) := by
  induction js generalizing i with
  | nil =>
    rw [decodeColumns_nil]
    exact .ok ⟨by simp, by simp⟩
  | cons j js ih =>
    obtain ⟨hj, hrest⟩ := drop_cons hall
    have hnext := ih hrest fun v hv => hjs v (hv.cons j)
    cases j with
    | object ms =>
      have hms : ∀ v, v.Inside (.object ms) → ReadsWell v :=
        fun v hv => hjs v (.within List.mem_cons_self hv)
      rw [decodeColumns]
      refine ((reads_decodeMember hms (by decide)).inItem hj).bind fun e he => ?_
      refine ((reads_optionalText (by decide)).inItem hj).bind fun label hlabel => ?_
      have hcolumn (h : isLabel label = true) : Reads path (.array all) AreRead (do
          return ⟨e, label⟩ :: (← decodeColumns path (i + 1) js)) :=
        hnext.map fun cs hcs =>
          ⟨List.forall_mem_cons.mpr ⟨he.1, hcs.1⟩, List.forall_mem_cons.mpr ⟨h, hcs.2⟩⟩
      split
      · next hempty => exact hcolumn (by simp [isLabel, hempty])
      · next hgiven =>
        have hlast := hlabel (by simpa using hgiven)
        refine (((reads_refused fun _ h => ?_).inMember (by decide) hlast).inItem hj).bind
          fun _ h => hcolumn h
        simp [isLabel, isIdentifier_of_check h]
    | _ =>
      rw [decodeColumns]
      · exact (reads_fail (by decide)).inItem hj
      · simp

end Lists

section Nodes

variable (hms : ∀ v, v.Inside (.object ms) → ReadsWell v)

include hms

theorem reads_decodeOption (hkey : IsKey key) :
    Reads path (.object ms) (fun o => ∀ x ∈ o, x.IsRead ∧ ∃ v, Json.last? ms key = some v)
      (decodeOption path ms key) := by
  rw [decodeOption]
  split
  · exact .ok (by simp)
  · exact .ok (by simp)
  · next v _ hv =>
    refine (((hms v (inside_last? hv)).expr _).inMember hkey hv).map fun e he => ?_
    rintro x ⟨⟩
    exact ⟨he, v, hv⟩

theorem readsWell_items (h : js = [] ∨ Json.last? ms key = some (.array js)) :
    ∀ v, v.Inside (.array js) → ReadsWell v := by
  intro v hv
  obtain rfl | hlast := h
  · exact absurd hv Json.not_inside_nil
  · exact hms v (.within (Json.mem_of_last? hlast) hv)

theorem reads_decodeList (hkey : IsKey key) :
    Reads path (.object ms)
      (fun es => (∀ x ∈ es, x.IsRead) ∧ ∃ js, es.length = js.length ∧
        (js = [] ∨ Json.last? ms key = some (.array js)))
      (decodeList path ms key) := by
  rw [decodeList]
  split
  · next e he => exact reads_itemsError hkey he
  · next js hjs =>
    have hgiven := (reads_items hkey).holds js hjs
    have hread := readsWell_items hms hgiven
    refine Reads.inItems hkey hgiven (fun hnil => ⟨[], by rw [hnil, decodeItems_nil]⟩) ?_
    obtain ⟨hlocated, hholds⟩ := reads_decodeItems List.drop_zero fun j hj => hread j (.part hj)
    exact ⟨hlocated, fun es hes => ⟨(hholds es hes).1, js, (hholds es hes).2, hgiven⟩⟩

omit hms in
theorem isRead_query {q : Query} (hq : q.isProper = true) (hparts : ∀ x ∈ q.parts, x.IsRead) :
    (Expr.query q).IsRead :=
  (Expr.isRead_iff _).mpr ⟨⟨hq, trivial⟩, hparts⟩

theorem reads_predicated {q : Query} {stage : Expr → Query} (hq : (Expr.query q).IsRead)
    (hparts : ∀ p, (stage p).parts = q.parts ++ [p])
    (hproper : ∀ p, p.isLogic = true → (stage p).isProper = true) :
    Reads path (.object ms) Expr.IsRead (do
      let p ← decodeMember path ms "predicate"
      return .query (stage (← logicAt (child path "predicate") p))) := by
  refine (reads_decodeMember hms (by decide)).bind fun p ⟨hp, v, hv⟩ => ?_
  refine ((reads_logicAt p).inMember (by decide) hv).map ?_
  rintro _ ⟨rfl, hlogic⟩
  refine isRead_query (hproper _ hlogic) ?_
  rw [hparts]
  exact List.forall_mem_append.mpr ⟨fun x hx => hq.part hx, by simpa using hp⟩

omit hms in
theorem reads_misplaced {α : Type} {P : α → Prop} {v : Json}
    (hv : Json.last? ms "source" = some v) (stage : String) (q : Query) :
    Reads path (.object ms) P (misplaced path stage q) :=
  Reads.inMember (by decide) hv
    (reads_refused (r := .error (.pipeline stage q.stage)) fun _ h => nomatch h)

theorem reads_decodeStage {v : Json} (hv : Json.last? ms "source" = some v) (tag : String)
    {q : Query} (hq : (Expr.query q).IsRead) :
    Reads path (.object ms) Expr.IsRead (decodeStage path ms tag q) := by
  have hproper : q.isProper = true := hq.node
  have hparts : ∀ x ∈ q.parts, x.IsRead := fun x hx => hq.part hx
  unfold decodeStage
  split
  · split
    · next hstage =>
      refine reads_predicated hms hq (fun _ => rfl) fun p hlogic => ?_
      simp [Query.isProper, hproper, hstage, hlogic]
    · exact reads_misplaced hv _ q
  · split
    · next hstage =>
      refine (reads_decodeList hms (by decide)).map fun keys hkeys => ?_
      refine isRead_query (by simp [Query.isProper, hproper, hstage]) ?_
      exact List.forall_mem_append.mpr ⟨hparts, hkeys.1⟩
    · exact reads_misplaced hv _ q
  · split
    · next hstage =>
      refine reads_predicated hms hq (fun _ => rfl) fun p hlogic => ?_
      simp [Query.isProper, hproper, hstage, hlogic]
    · exact reads_misplaced hv _ q
  · split
    · next hstage =>
      split
      · next e he => exact reads_itemsError (by decide) he
      · next js hjs =>
        have hgiven := (reads_items (by decide)).holds js hjs
        refine ((reads_decodeKeys List.drop_zero (readsWell_items hms hgiven)).inItems (by decide)
          hgiven fun hnil => ⟨[], by rw [hnil, decodeKeys_nil]⟩).map fun keys hkeys => ?_
        refine isRead_query (by simp [Query.isProper, hproper, hstage]) ?_
        exact List.forall_mem_append.mpr ⟨hparts, hkeys⟩
    · exact reads_misplaced hv _ q
  · split
    · next hstage =>
      refine (reads_number (by decide) (by decide)).bind fun skip hskip => ?_
      refine (reads_number (by decide) (by decide)).bind fun take htake => ?_
      split
      · next hneg =>
        obtain ⟨w, hw⟩ := hskip.2 (by omega)
        exact reads_unfit (by decide) (by decide) hw
      · next hnonneg =>
        refine .ok (isRead_query ?_ hparts)
        have hzero := hskip.1
        have hlimit := htake.1
        simp only [Number.isInt64, Query.isProper, hproper, hstage, Bool.and_eq_true,
          decide_eq_true_eq, true_and] at hzero hlimit ⊢
        unfold noLimit
        split <;> omega
    · exact reads_misplaced hv _ q
  · split
    · next hstage =>
      split
      · next e he => exact reads_itemsError (by decide) he
      · next js hjs =>
        have hgiven := (reads_items (by decide)).holds js hjs
        refine ((reads_decodeColumns List.drop_zero (readsWell_items hms hgiven)).inItems (by decide)
          hgiven fun hnil => ⟨[], by rw [hnil, decodeColumns_nil]⟩).map fun columns hcolumns => ?_
        refine isRead_query ?_ (List.forall_mem_append.mpr ⟨hparts, hcolumns.1⟩)
        simp only [Query.isProper, hproper, hstage, Bool.true_and, List.all_eq_true]
        exact hcolumns.2
    · exact reads_misplaced hv _ q

theorem reads_staged (tag : String) :
    Reads path (.object ms) Expr.IsRead (do
      let source ← decodeMember path ms "source"
      let q ← queryOf (child path "source") source
      decodeStage path ms tag q) := by
  refine (reads_decodeMember hms (by decide)).bind fun source ⟨hsource, v, hv⟩ => ?_
  cases source with
  | query q => exact reads_decodeStage hms hv tag hsource
  | _ =>
    exact Reads.bind (P := fun _ => False)
      (reads_unfit (by decide) (reason_ne_missing (.inr (by decide))) hv) fun _ h => h.elim

omit hms in
theorem reads_binaryOf {v : Json} (hv : Json.last? ms "op" = some v) (op : String) {l r : Expr}
    (hl : l.IsRead) (hr : r.IsRead) :
    Reads path (.object ms) Expr.IsRead (binaryOf path op l r) := by
  have hparts : ∀ x ∈ [l, r], x.IsRead := List.forall_mem_cons.mpr ⟨hl, by simpa using hr⟩
  unfold binaryOf
  split
  · next o ho =>
    have hvalid : o.isValid = true :=
      of_find_table (by decide : ∀ x ∈ LogicOp.table, x.1.isValid = true) ho
    exact .ok ((Expr.isRead_iff _).mpr ⟨⟨hvalid, trivial⟩, hparts⟩)
  · split
    · next o ho =>
      have hvalid : o.isValid = true :=
        of_find_table (by decide : ∀ x ∈ ValueOp.table, x.1.isValid = true) ho
      exact .ok ((Expr.isRead_iff _).mpr ⟨⟨hvalid, trivial⟩, hparts⟩)
    · exact reads_unfit (by decide) (reason_ne_missing (.inl (by decide))) hv

-- A set of decoded items, which are predicates if they have to be.
theorem reads_set (hkind : kind.isValid = true) :
    Reads path (.object ms) Expr.IsRead (do
      let es ← decodeList path ms "items"
      if kind.isLogical then checkLogic (child path "items") 0 es
      return Expr.join kind es) := by
  refine (reads_decodeList hms (by decide)).bind fun es ⟨hes, js, hlength, hjs⟩ => ?_
  split
  · refine ((reads_checkLogic (by omega)).inItems (by decide) hjs fun hnil => ?_).map
      fun _ hlogic => Expr.isRead_join hkind hes fun _ => hlogic
    rw [List.eq_nil_of_length_eq_zero (hlength.trans (by rw [hnil]; rfl))]
    exact ⟨(), rfl⟩
  · next hplain => exact .ok (Expr.isRead_join hkind hes fun h => absurd h hplain)

theorem reads_foreign :
    Reads path (.object ms) Expr.IsRead (do
      let relation ← requiredText path ms "relation"
      let label ← optionalText path ms "alias"
      let inner ← decodeOption path ms "inner"
      if let some e := inner then discard (logicAt (child path "inner") e)
      let args ← texts (child path "args") 0 (← items path ms "args")
      refused path (Expr.existing relation label inner args)) := by
  refine (reads_requiredText (by decide)).bind fun relation _ => ?_
  refine (reads_optionalText (by decide)).bind fun label _ => ?_
  refine (reads_decodeOption hms (by decide)).bind fun inner hinner => ?_
  have hargs (hlogic : ∀ x ∈ inner, x.isLogic = true) : Reads path (.object ms) Expr.IsRead (do
      let args ← texts (child path "args") 0 (← items path ms "args")
      refused path (Expr.existing relation label inner args)) := by
    refine (reads_items (by decide)).bind fun js hjs => ?_
    refine ((reads_texts List.drop_zero).inItems (by decide) hjs fun hnil => ?_).bind fun args _ => ?_
    · exact ⟨[], by rw [hnil]; rfl⟩
    · exact reads_refused fun e h => Expr.isRead_existing (fun x hx => (hinner x hx).1) hlogic h
  cases inner with
  | none => exact hargs (by simp)
  | some p =>
    obtain ⟨-, v, hv⟩ := hinner p rfl
    refine ((reads_isLogic p).inMember (by decide) hv).bind fun _ hp => hargs ?_
    simpa using hp

theorem reads_decodeNode {v : Json} (hv : Json.last? ms "$" = some v) (tag : String) :
    Reads path (.object ms) Expr.IsRead (decodeNode path ms tag) := by
  unfold decodeNode
  split
  · refine .ok ?_
    cases hvalue : Json.last? ms "v" with
    | none => exact Expr.isRead_null
    | some v => exact isRead_boundValue (hms v (inside_last? hvalue)).value
  · unfold decodeConst
    split
    · exact .ok Expr.isRead_null
    · next v h =>
      have hlast := last?_of_present? h
      refine (reads_refused fun e he => ?_).inMember (by decide) hlast
      exact Expr.isRead_constant (Value.normalize_ofJson v) (hms v (inside_last? hlast)).value he
  · refine (reads_requiredText (by decide)).bind fun op hop => ?_
    refine (reads_decodeMember hms (by decide)).bind fun l hl => ?_
    exact (reads_decodeMember hms (by decide)).bind fun r hr => reads_binaryOf hop op hl.1 hr.1
  · refine (reads_requiredText (by decide)).bind fun name hname => ?_
    split
    · exact reads_unfit (by decide) (reason_ne_missing (.inl (by decide))) hname
    · next op hop =>
      have hvalid : op.isValid = true :=
        of_find_table (by decide : ∀ x ∈ UnaryOp.table, x.1.isValid = true) hop
      refine (reads_decodeMember hms (by decide)).map fun x hx => ?_
      exact (Expr.isRead_iff _).mpr ⟨⟨hvalid, trivial⟩, by simpa [Expr.parts] using hx.1⟩
  · refine (reads_requiredText (by decide)).bind fun name hname => ?_
    refine (reads_decodeList hms (by decide)).bind fun args hargs => ?_
    exact (reads_refused fun e h => Expr.isRead_func hargs.1 h).inMember (by decide) hname
  · refine (reads_requiredText (by decide)).bind fun name hname => ?_
    refine (reads_decodeOption hms (by decide)).bind fun arg harg => ?_
    refine (reads_flag (by decide)).bind fun distinct _ => ?_
    refine (reads_refused fun e h => ?_).inMember (by decide) hname
    exact Expr.isRead_aggregated (fun x hx => (harg x hx).1) h
  · refine (reads_requiredText (by decide)).bind fun name hname => ?_
    split
    · exact reads_unfit (by decide) (reason_ne_missing (.inl (by decide))) hname
    · next kind hkind =>
      exact reads_set hms
        (of_find_table (by decide : ∀ x ∈ SetKind.table, x.1.isValid = true) hkind)
  · exact reads_foreign hms
  · refine (reads_requiredText (by decide)).bind fun key hkey => ?_
    refine (reads_refused fun e h => ?_).inMember (by decide) hkey
    cases harg : Json.last? ms "arg" with
    | none =>
      rw [harg] at h
      exact Expr.isRead_sql rfl .null h
    | some j =>
      rw [harg] at h
      exact Expr.isRead_sql (Value.normalize_ofJson j) (hms j (inside_last? harg)).value h
  · refine (reads_requiredText (by decide)).bind fun object hobject => ?_
    refine ((reads_refused fun q h => ?_).inMember (by decide) hobject).map fun q hq => hq
    obtain ⟨⟨⟩, hcheck, h⟩ := Compilation.bind_ok h
    cases h
    exact isRead_query (isIdentifier_of_check hcheck) (by simp [Query.parts])
  · exact reads_staged hms _
  · exact reads_staged hms _
  · exact reads_staged hms _
  · exact reads_staged hms _
  · exact reads_staged hms _
  · exact reads_staged hms _
  · exact reads_unfit (by decide) (reason_ne_missing (.inl (by decide))) hv

end Nodes

-- The first member of an object is there, perhaps replaced by a later one of its name.
theorem last?_of_head (key : String) (v : Json) (ms : Members) :
    ∃ w, Json.last? ((key, v) :: ms) key = some w := by
  rw [Json.last?]
  split
  · next w _ => exact ⟨w, rfl⟩
  · exact ⟨v, by simp⟩

-- The induction is on what stands inside the document.
theorem readsWell (j : Json) (hj : j.HasNumeric) : ReadsWell j := by
  induction j using Json.ofInside with
  | step j ih =>
    have hvalue : (Value.ofJson j).IsRead := Value.isRead_ofJson j hj
    have hms : ∀ v, v.Inside j → ReadsWell v := fun v hv => ih v hv (hj.inside hv)
    refine ⟨hvalue, fun path => ?_⟩
    unfold decodeAt
    split
    · next v ms =>
      obtain ⟨w, hw⟩ := last?_of_head "@" v ms
      refine Reads.inMember (by decide) hw ?_
      unfold decodeProperty
      split
      · exact reads_refused fun e h => Expr.isRead_ofPath h
      · exact reads_fail (by decide)
    · next v ms =>
      obtain ⟨w, hw⟩ := last?_of_head "$" v ms
      split
      · exact reads_decodeNode hms hw _
      · exact reads_unfit (by decide) (by decide) hw
    · exact .ok (isRead_boundValue hvalue)

theorem isRead_of_decodeText {text : String} (h : decodeText text = .ok e) : e.IsRead := by
  unfold decodeText at h
  split at h
  · next j rest hj => exact ((readsWell j (Json.hasNumeric_of_readPrefix hj)).expr "$").holds e h
  · cases h

theorem isValid_of_decodeText {text : String} (h : decodeText text = .ok e) : e.IsValid :=
  (isRead_of_decodeText h).isValid

end Codec
end QueryTree
