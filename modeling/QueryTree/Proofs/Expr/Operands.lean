import QueryTree.Proofs.Expr.Normal

namespace QueryTree.Expr

-- The optional operand of a node, present or not.
def operand? : Expr → Option (Option Expr)
  | .aggregate _ arg _ => some arg
  | .related _ _ inner _ => some inner
  | _ => none

def operands (e : Expr) : List (Option Expr) := e.nodes.filterMap operand?

def hasNullOperand (e : Expr) : Bool := e.operands.any (·.any isNull)

mutual

-- The expression without the operands that are the null literal.
def trimmed : Expr → Expr
  | .value v const => .value v const
  | .property owner name => .property owner name
  | .unary op x => .unary op x.trimmed
  | .compare op l r => .compare op l.trimmed r.trimmed
  | .compute op l r => .compute op l.trimmed r.trimmed
  | .call name args => .call name (trimAll args)
  | .aggregate name arg distinct => .aggregate name (trimOption arg) distinct
  | .set kind items => .set kind (trimAll items)
  | .related relation label inner tableArgs => .related relation label (trimOption inner) tableArgs
  | .fragment key arg => .fragment key arg
  | .query q => .query (trimQuery q)

def trimAll : List Expr → List Expr
  | [] => []
  | e :: es => e.trimmed :: trimAll es

def trimOption : Option Expr → Option Expr
  | none => none
  | some e => if e.isNull then none else some e.trimmed

def trimQuery : Query → Query
  | .rows object => .rows object
  | .filter q p => .filter (trimQuery q) p.trimmed
  | .group q keys => .group (trimQuery q) (trimAll keys)
  | .having q p => .having (trimQuery q) p.trimmed
  | .order q keys => .order (trimQuery q) (trimKeys keys)
  | .window q offset limit => .window (trimQuery q) offset limit
  | .select q columns => .select (trimQuery q) (trimColumns columns)

def trimKeys : List (SortKey Expr) → List (SortKey Expr)
  | [] => []
  | ⟨e, asc⟩ :: ks => ⟨e.trimmed, asc⟩ :: trimKeys ks

def trimColumns : List (Column Expr) → List (Column Expr)
  | [] => []
  | ⟨e, label⟩ :: cs => ⟨e.trimmed, label⟩ :: trimColumns cs

end

def shown (o : Option Expr) : Option Expr := o.filter (!·.isNull)

theorem shown_of_isNull {x : Expr} (hx : x.isNull = true) : shown (some x) = none := by
  simp [shown, Option.filter, hx]

theorem shown_of_not_isNull {x : Expr} (hx : x.isNull = false) : shown (some x) = some x := by
  simp [shown, Option.filter, hx]

def trimNode : Expr → Expr
  | .aggregate name arg distinct => .aggregate name (shown arg) distinct
  | .related relation label inner tableArgs => .related relation label (shown inner) tableArgs
  | e => e

section Trimming

theorem trimAll_eq (es : List Expr) : trimAll es = es.map trimmed := by
  induction es with
  | nil => rfl
  | cons e es ih => rw [trimAll, ih, List.map_cons]

theorem trimOption_eq (o : Option Expr) : trimOption o = (shown o).map trimmed := by
  cases o with
  | none => rfl
  | some e => cases he : e.isNull <;> simp [trimOption, shown, he, Option.filter]

theorem trimKeys_eq (ks : List (SortKey Expr)) :
    trimKeys ks = ks.map fun k => ⟨k.expr.trimmed, k.ascending⟩ := by
  induction ks with
  | nil => rfl
  | cons k ks ih => rw [trimKeys, ih, List.map_cons]

theorem trimColumns_eq (cs : List (Column Expr)) :
    trimColumns cs = cs.map fun c => ⟨c.expr.trimmed, c.label⟩ := by
  induction cs with
  | nil => rfl
  | cons c cs ih => rw [trimColumns, ih, List.map_cons]

theorem trimQuery_eq (q : Query) : trimQuery q = q.mapParts trimmed := by
  induction q with
  | rows object => rfl
  | filter q p ih => rw [trimQuery, ih, Query.mapParts]
  | group q keys ih => rw [trimQuery, ih, trimAll_eq, Query.mapParts]
  | having q p ih => rw [trimQuery, ih, Query.mapParts]
  | order q keys ih => rw [trimQuery, ih, trimKeys_eq, Query.mapParts]
  | window q offset limit ih => rw [trimQuery, ih, Query.mapParts]
  | select q columns ih => rw [trimQuery, ih, trimColumns_eq, Query.mapParts]

theorem trimmed_eq (e : Expr) : e.trimmed = e.trimNode.mapParts trimmed := by
  cases e with
  | call name args => exact congrArg (call name) (trimAll_eq args)
  | set kind items => exact congrArg (set kind) (trimAll_eq items)
  | aggregate name arg distinct => exact congrArg (aggregate name · distinct) (trimOption_eq arg)
  | related relation label inner tableArgs =>
    exact congrArg (related relation label · tableArgs) (trimOption_eq inner)
  | query q => exact congrArg query (trimQuery_eq q)
  | _ => rfl

end Trimming

section Operands

theorem operands_eq (e : Expr) : e.operands = e.operand?.toList ++ e.parts.flatMap operands := by
  rw [operands, nodes_eq, List.filterMap_cons, List.filterMap_flatMap]
  cases e.operand? <;> rfl

theorem operand?_mapParts (g : Expr → Expr) (e : Expr) :
    (e.mapParts g).operand? = e.operand?.map (Option.map g) := by
  cases e <;> rfl

theorem operand?_mapLiteral (f : Value → Bool → Value) (h : Value → Value) (e : Expr) :
    (e.mapLiteral f h).operand? = e.operand? := by
  cases e <;> rfl

theorem operand?_trimNode (e : Expr) : e.trimNode.operand? = e.operand?.map shown := by
  cases e <;> rfl

theorem mem_nodes_of_operand {e x : Expr} (hx : some x ∈ e.operands) : x ∈ e.nodes := by
  obtain ⟨y, hy, hoperand⟩ := List.mem_filterMap.mp hx
  refine nodes_subset hy (mem_nodes_of_mem_parts ?_)
  cases y with
  | aggregate name arg distinct | related relation label inner tableArgs =>
    cases hoperand
    exact List.mem_cons_self
  | _ => cases hoperand

theorem hasNullOperand_iff (e : Expr) : e.hasNullOperand = true ↔
    (∃ x, e.operand? = some (some x) ∧ x.isNull = true) ∨
      ∃ x ∈ e.parts, x.hasNullOperand = true := by
  rw [hasNullOperand, operands_eq, List.any_append, List.any_flatMap, Bool.or_eq_true]
  refine or_congr ?_ List.any_eq_true
  cases e.operand? with
  | none => simp
  | some o => cases o <;> simp

theorem trimmed_eq_self {e : Expr} (h : e.hasNullOperand = false) : e.trimmed = e := by
  induction e using ofParts with
  | step e ih =>
    rw [← Bool.not_eq_true, hasNullOperand_iff, not_or] at h
    obtain ⟨hnode, hparts⟩ := h
    have hshown : ∀ o, e.operand? = some o → shown o = o := by
      intro o ho
      cases o with
      | none => rfl
      | some x =>
        have hx : x.isNull = false := Bool.eq_false_iff.mpr fun hx => hnode ⟨x, ho, hx⟩
        simp [shown, Option.filter, hx]
    have htrim : e.trimNode = e := by
      cases e with
      | aggregate name arg distinct => exact congrArg (aggregate name · distinct) (hshown arg rfl)
      | related relation label inner tableArgs =>
        exact congrArg (related relation label · tableArgs) (hshown inner rfl)
      | _ => rfl
    rw [trimmed_eq, htrim]
    exact mapParts_eq_self fun x hx =>
      ih x hx (Bool.eq_false_iff.mpr fun hnull => hparts ⟨x, hx, hnull⟩)

end Operands

def relayed (σ : Value → Value) (e : Expr) : Expr := e.trimmed.withValues σ

section Relayed

variable (σ : Value → Value)

theorem relayed_eq (e : Expr) :
    e.relayed σ = (e.trimNode.mapLiteral (fun v _ => σ v) σ).mapParts (relayed σ) := by
  have hswap : ∀ x : Expr, (x.mapParts trimmed).mapLiteral (fun v _ => σ v) σ =
      (x.mapLiteral (fun v _ => σ v) σ).mapParts trimmed := by
    intro x
    cases x <;> rfl
  rw [relayed, trimmed_eq, withValues, mapValues_eq, hswap, mapParts_mapParts]
  rfl

theorem relayed_call (name : String) (args : List Expr) :
    (call name args).relayed σ = .call name (args.map (relayed σ)) := relayed_eq σ _

theorem relayed_set (kind : SetKind) (items : List Expr) :
    (set kind items).relayed σ = .set kind (items.map (relayed σ)) := relayed_eq σ _

theorem relayed_aggregate (name : String) (arg : Option Expr) (distinct : Bool) :
    (aggregate name arg distinct).relayed σ =
      .aggregate name ((shown arg).map (relayed σ)) distinct := relayed_eq σ _

theorem relayed_related (relation label : String) (inner : Option Expr)
    (tableArgs : List String) : (related relation label inner tableArgs).relayed σ =
      .related relation label ((shown inner).map (relayed σ)) tableArgs := relayed_eq σ _

theorem relayed_query (q : Query) :
    (query q).relayed σ = .query (q.mapParts (relayed σ)) := relayed_eq σ _

theorem isLogic_relayed (e : Expr) : (e.relayed σ).isLogic = e.isLogic := by
  cases e <;> rfl

theorem isSetOf_relayed (kind : SetKind) (e : Expr) :
    (e.relayed σ).isSetOf kind = e.isSetOf kind := by
  cases e <;> rfl

theorem flatMap_trimNode {α : Type} {k : Expr → List α} (hk : ∀ x, x.isNull = true → k x = [])
    (e : Expr) : e.trimNode.parts.flatMap k = e.parts.flatMap k := by
  have hshown : ∀ o : Option Expr, (shown o).toList.flatMap k = o.toList.flatMap k := by
    intro o
    cases o with
    | none => rfl
    | some x =>
      cases hx : x.isNull with
      | true => simp [shown, Option.filter, hx, hk x hx]
      | false => simp [shown, Option.filter, hx]
  cases e with
  | aggregate name arg distinct => exact hshown arg
  | related relation label inner tableArgs => exact hshown inner
  | _ => rfl

theorem operands_of_isNull {e : Expr} (h : e.isNull = true) : (e.relayed σ).operands = [] := by
  cases e with
  | value v const => rfl
  | _ => cases h

-- Each operand is relayed, and a null operand becomes an absent one.
theorem operands_relayed (e : Expr) :
    (e.relayed σ).operands = e.operands.map fun o => (shown o).map (relayed σ) := by
  induction e using ofParts with
  | step e ih =>
    have hnode : (e.relayed σ).operand? =
        e.operand?.map fun o => (shown o).map (relayed σ) := by
      rw [relayed_eq, operand?_mapParts, operand?_mapLiteral, operand?_trimNode, Option.map_map]
      rfl
    have hparts : (e.relayed σ).parts.flatMap operands =
        e.parts.flatMap fun x => (x.relayed σ).operands := by
      have hliteral : (e.trimNode.mapLiteral (fun v _ => σ v) σ).parts = e.trimNode.parts := by
        cases e <;> rfl
      rw [relayed_eq, parts_mapParts, hliteral, List.flatMap_map]
      exact flatMap_trimNode (fun x hx => operands_of_isNull σ hx) e
    rw [operands_eq, hnode, hparts, operands_eq e, List.map_append, List.map_flatMap,
      List.flatMap_def, List.flatMap_def, List.map_congr_left ih, Option.toList_map]

-- The same operands are present exactly if none is null.
theorem present_relayed_iff (e : Expr) :
    (e.relayed σ).operands.map Option.isSome = e.operands.map Option.isSome ↔
      e.hasNullOperand = false := by
  rw [operands_relayed, List.map_map, List.map_inj_left, hasNullOperand, List.any_eq_false]
  refine forall₂_congr fun o _ => ?_
  cases o with
  | none => simp [shown]
  | some x => cases hx : x.isNull <;> simp [shown, Option.filter, hx]

theorem isNull_relayed {e : Expr} (h : e.Carries fun v => (σ v).isNull = v.isNull) :
    (e.relayed σ).isNull = e.isNull := by
  cases e with
  | value v const =>
    have hvalue : ∀ w : Value, (value w const).isNull = w.isNull := fun w => by cases w <;> rfl
    change (value (σ v) const).isNull = _
    rw [hvalue, hvalue]
    exact h
  | _ => rfl

variable {σ}

theorem hasNullOperand_relayed {e : Expr}
    (h : ∀ x ∈ e.nodes, x.Carries fun v => (σ v).isNull = v.isNull) :
    (e.relayed σ).hasNullOperand = false := by
  rw [hasNullOperand, operands_relayed, List.any_map, List.any_eq_false]
  intro o ho
  cases o with
  | none => simp [shown]
  | some x =>
    have hnull := isNull_relayed σ (h x (mem_nodes_of_operand ho))
    cases hx : x.isNull <;> simp [shown, Option.filter, hx, hnull]

end Relayed

section Equality

theorem isNull_of_same {a b : Expr} (h : a.same b = true) (ha : a.isNull = true) :
    b.isNull = true := by
  cases a with
  | value v c =>
    cases v with
    | null =>
      cases b with
      | value w d =>
        cases w with
        | null => rfl
        | _ => simp [same, sameValue] at h
      | _ => simp [same] at h
    | _ => cases ha
  | _ => cases ha

theorem exists_same_part {a b : Expr} (h : a.same b = true) {x : Expr} (hx : x ∈ a.parts) :
    ∃ y ∈ b.parts, x.same y = true := by
  obtain ⟨-, -, -, hmatch⟩ := (same_iff a b).mp h
  unfold Match at hmatch
  split at hmatch
  · obtain ⟨y, hy, -, hxy⟩ := hmatch.1 x hx
    exact ⟨y, hy, hxy⟩
  · exact (covers_of_forall₂ hmatch).1 x hx

theorem exists_same_operand {a b x : Expr} (h : a.same b = true)
    (hx : a.operand? = some (some x)) : ∃ y, b.operand? = some (some y) ∧ x.same y = true := by
  have hoption : ∀ {o : Option Expr}, sameOption (some x) o = true →
      ∃ y, o = some y ∧ x.same y = true := by
    intro o ho
    cases o with
    | none => simp [sameOption] at ho
    | some y => exact ⟨y, rfl, by simpa [sameOption] using ho⟩
  cases a with
  | aggregate n arg d =>
    obtain rfl : arg = some x := Option.some.inj hx
    cases b with
    | aggregate m o d' =>
      simp only [same, Bool.and_eq_true] at h
      obtain ⟨y, rfl, hxy⟩ := hoption h.2
      exact ⟨y, rfl, hxy⟩
    | _ => simp [same] at h
  | related r l inner ts =>
    obtain rfl : inner = some x := Option.some.inj hx
    cases b with
    | related s m o us =>
      simp only [same, Bool.and_eq_true] at h
      obtain ⟨y, rfl, hxy⟩ := hoption h.2
      exact ⟨y, rfl, hxy⟩
    | _ => simp [same] at h
  | _ => cases hx

theorem hasNullOperand_of_same {a b : Expr} (h : a.same b = true)
    (ha : a.hasNullOperand = true) : b.hasNullOperand = true := by
  induction a using ofParts generalizing b with
  | step a ih =>
    rcases (hasNullOperand_iff a).mp ha with ⟨x, hx, hnull⟩ | ⟨x, hx, hnull⟩
    · obtain ⟨y, hy, hxy⟩ := exists_same_operand h hx
      exact (hasNullOperand_iff b).mpr (.inl ⟨y, hy, isNull_of_same hxy hnull⟩)
    · obtain ⟨y, hy, hxy⟩ := exists_same_part h hx
      exact (hasNullOperand_iff b).mpr (.inr ⟨y, hy, ih x hx hxy hnull⟩)

end Equality

end QueryTree.Expr
