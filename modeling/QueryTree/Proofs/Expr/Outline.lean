import QueryTree.Proofs.Expr.Induction
import QueryTree.Sql.Render

namespace QueryTree

namespace Expr

variable (f : Value → Bool → Value) (h : Value → Value)

mutual

-- The expression with other literals and other arguments of its fragments.
def mapValues : Expr → Expr
  | .value v const => .value (f v const) const
  | .property owner name => .property owner name
  | .unary op x => .unary op x.mapValues
  | .compare op l r => .compare op l.mapValues r.mapValues
  | .compute op l r => .compute op l.mapValues r.mapValues
  | .call name args => .call name (mapAll args)
  | .aggregate name arg distinct => .aggregate name (mapOption arg) distinct
  | .set kind items => .set kind (mapAll items)
  | .related relation label inner tableArgs => .related relation label (mapOption inner) tableArgs
  | .fragment key arg => .fragment key (h arg)
  | .query q => .query (mapQuery q)

def mapAll : List Expr → List Expr
  | [] => []
  | e :: es => e.mapValues :: mapAll es

def mapOption : Option Expr → Option Expr
  | none => none
  | some e => some e.mapValues

def mapQuery : Query → Query
  | .rows object => .rows object
  | .filter q p => .filter (mapQuery q) p.mapValues
  | .group q keys => .group (mapQuery q) (mapAll keys)
  | .having q p => .having (mapQuery q) p.mapValues
  | .order q keys => .order (mapQuery q) (mapKeys keys)
  | .window q offset limit => .window (mapQuery q) offset limit
  | .select q columns => .select (mapQuery q) (mapColumns columns)

def mapKeys : List (SortKey Expr) → List (SortKey Expr)
  | [] => []
  | ⟨e, asc⟩ :: ks => ⟨e.mapValues, asc⟩ :: mapKeys ks

def mapColumns : List (Column Expr) → List (Column Expr)
  | [] => []
  | ⟨e, label⟩ :: cs => ⟨e.mapValues, label⟩ :: mapColumns cs

end

theorem mapAll_eq (es : List Expr) : mapAll f h es = es.map (mapValues f h) := by
  induction es with
  | nil => rfl
  | cons e es ih => simp [mapAll, ih]

def mapLiteral : Expr → Expr
  | .value v const => .value (f v const) const
  | .fragment key arg => .fragment key (h arg)
  | e => e

theorem mapKeys_eq (ks : List (SortKey Expr)) :
    mapKeys f h ks = ks.map fun k => ⟨k.expr.mapValues f h, k.ascending⟩ := by
  induction ks with
  | nil => rfl
  | cons k ks ih => simp [mapKeys, ih]

theorem mapColumns_eq (cs : List (Column Expr)) :
    mapColumns f h cs = cs.map fun c => ⟨c.expr.mapValues f h, c.label⟩ := by
  induction cs with
  | nil => rfl
  | cons c cs ih => simp [mapColumns, ih]

theorem mapQuery_eq (q : Query) : mapQuery f h q = q.mapParts (mapValues f h) := by
  induction q with
  | rows object => rfl
  | filter q p ih => rw [mapQuery, ih, Query.mapParts]
  | group q keys ih => rw [mapQuery, ih, mapAll_eq, Query.mapParts]
  | having q p ih => rw [mapQuery, ih, Query.mapParts]
  | order q keys ih => rw [mapQuery, ih, mapKeys_eq, Query.mapParts]
  | window q offset limit ih => rw [mapQuery, ih, Query.mapParts]
  | select q columns ih => rw [mapQuery, ih, mapColumns_eq, Query.mapParts]

theorem mapValues_eq (e : Expr) :
    e.mapValues f h = (e.mapLiteral f h).mapParts (mapValues f h) := by
  cases e with
  | call name args => exact congrArg (call name) (mapAll_eq f h args)
  | set kind items => exact congrArg (set kind) (mapAll_eq f h items)
  | aggregate name arg distinct => cases arg <;> rfl
  | related relation label inner tableArgs => cases inner <;> rfl
  | query q => exact congrArg query (mapQuery_eq f h q)
  | _ => rfl

theorem parts_mapQuery (q : Query) : (mapQuery f h q).parts = q.parts.map (mapValues f h) := by
  rw [mapQuery_eq, Query.parts_mapParts]

theorem object_mapQuery (q : Query) : (mapQuery f h q).object = q.object := by
  induction q with
  | rows object => rfl
  | filter q _ ih | group q _ ih | having q _ ih | order q _ ih | window q _ _ ih
  | select q _ ih => exact ih

theorem hasSelect_mapQuery (q : Query) : (mapQuery f h q).hasSelect = q.hasSelect := by
  induction q with
  | rows object | select q columns ih => rfl
  | filter q _ ih | group q _ ih | having q _ ih | order q _ ih | window q _ _ ih => exact ih

theorem foldWindows_mapQuery (q : Query) (outer : Option Window) :
    (mapQuery f h q).foldWindows outer = q.foldWindows outer := by
  induction q generalizing outer with
  | rows object => rfl
  | filter q _ ih | group q _ ih | having q _ ih | order q _ ih | select q _ ih => exact ih outer
  | window q offset limit ih => exact ih _

theorem parts_mapValues (e : Expr) : (e.mapValues f h).parts = e.parts.map (mapValues f h) := by
  have hparts : (e.mapLiteral f h).parts = e.parts := by
    cases e <;> rfl
  rw [mapValues_eq, parts_mapParts, hparts]

theorem nodes_mapValues (e : Expr) : (e.mapValues f h).nodes = e.nodes.map (mapValues f h) := by
  induction e using ofParts with
  | step e ih =>
    rw [nodes_eq, nodes_eq e, parts_mapValues, List.map_cons, List.flatMap_map, List.map_flatMap]
    rw [List.flatMap_def, List.flatMap_def, List.map_congr_left ih]

def literal? : Expr → Option Value
  | .value v _ => some v
  | _ => none

def leaves (e : Expr) : List Value := e.nodes.filterMap literal?

theorem leaves_eq (e : Expr) : e.leaves = e.literal?.toList ++ e.parts.flatMap leaves := by
  rw [leaves, nodes_eq, List.filterMap_cons, List.filterMap_flatMap]
  cases e.literal? <;> rfl

theorem length_leaves_mapValues (e : Expr) : (e.mapValues f h).leaves.length = e.leaves.length := by
  have hsome : ∀ x : Expr, (x.mapValues f h).literal?.isSome = x.literal?.isSome := by
    intro x
    cases x <;> rfl
  simp only [leaves, nodes_mapValues, List.filterMap_map, List.length_filterMap_eq_countP]
  exact List.countP_congr fun x _ => by rw [Function.comp_apply, hsome x]

def leavesAll (es : List Expr) : List Value := es.flatMap leaves

theorem length_leavesAll_map (es : List Expr) :
    (leavesAll (es.map (mapValues f h))).length = (leavesAll es).length := by
  simp [leavesAll, List.length_flatMap, Function.comp_def, length_leaves_mapValues]

mutual

-- The expression with its literals numbered from `k` on.
def numbered (k : Nat) : Expr → Expr
  | .value _ const => .value (.int64 k) const
  | .property owner name => .property owner name
  | .unary op x => .unary op (x.numbered k)
  | .compare op l r => .compare op (l.numbered k) (r.numbered (k + l.leaves.length))
  | .compute op l r => .compute op (l.numbered k) (r.numbered (k + l.leaves.length))
  | .call name args => .call name (numberedAll k args)
  | .aggregate name arg distinct => .aggregate name (numberedOption k arg) distinct
  | .set kind items => .set kind (numberedAll k items)
  | .related relation label inner tableArgs =>
    .related relation label (numberedOption k inner) tableArgs
  | .fragment key arg => .fragment key arg
  | .query q => .query (numberedQuery k q)

def numberedAll (k : Nat) : List Expr → List Expr
  | [] => []
  | e :: es => e.numbered k :: numberedAll (k + e.leaves.length) es

def numberedOption (k : Nat) : Option Expr → Option Expr
  | none => none
  | some e => some (e.numbered k)

def numberedQuery (k : Nat) : Query → Query
  | .rows object => .rows object
  | .filter q p => .filter (numberedQuery k q) (p.numbered (k + (leavesAll q.parts).length))
  | .group q keys =>
    .group (numberedQuery k q) (numberedAll (k + (leavesAll q.parts).length) keys)
  | .having q p => .having (numberedQuery k q) (p.numbered (k + (leavesAll q.parts).length))
  | .order q keys =>
    .order (numberedQuery k q) (numberedKeys (k + (leavesAll q.parts).length) keys)
  | .window q offset limit => .window (numberedQuery k q) offset limit
  | .select q columns =>
    .select (numberedQuery k q) (numberedColumns (k + (leavesAll q.parts).length) columns)

def numberedKeys (k : Nat) : List (SortKey Expr) → List (SortKey Expr)
  | [] => []
  | ⟨e, asc⟩ :: ks => ⟨e.numbered k, asc⟩ :: numberedKeys (k + e.leaves.length) ks

def numberedColumns (k : Nat) : List (Column Expr) → List (Column Expr)
  | [] => []
  | ⟨e, label⟩ :: cs => ⟨e.numbered k, label⟩ :: numberedColumns (k + e.leaves.length) cs

end

-- A value for every number, put in the place of a literal with that number.
def filler (σ : Nat → Value) (v : Value) (_ : Bool) : Value :=
  match v with
  | .int _ n => σ n.toNat
  | _ => σ 0

def Fits (σ : Nat → Value) (k : Nat) (vs : List Value) : Prop :=
  ∀ j v, vs[j]? = some v → σ (k + j) = v

section Numbering

variable {f : Value → Bool → Value} {σ : Nat → Value} {k : Nat}

theorem Fits.append {vs ws : List Value} (hfits : Fits σ k (vs ++ ws)) :
    Fits σ k vs ∧ Fits σ (k + vs.length) ws := by
  constructor
  · intro j v hv
    have hj := (List.getElem?_eq_some_iff.mp hv).1
    exact hfits j v (by rw [List.getElem?_append_left hj, hv])
  · intro j v hv
    rw [Nat.add_assoc]
    refine hfits (vs.length + j) v ?_
    rw [List.getElem?_append_right (Nat.le_add_right _ _), Nat.add_sub_cancel_left, hv]

-- Filling the numbered outline of an expression with its literals gives the expression back.
def Refills (f : Value → Bool → Value) (σ : Nat → Value) (e : Expr) : Prop :=
  ∀ k, Fits σ k e.leaves → ((e.mapValues f id).numbered k).mapValues (filler σ) id = e

theorem refills_all {es : List Expr} (hes : ∀ e ∈ es, Refills f σ e)
    (hfits : Fits σ k (leavesAll es)) :
    mapAll (filler σ) id (numberedAll k (mapAll f id es)) = es := by
  induction es generalizing k with
  | nil => rfl
  | cons e es ih =>
    obtain ⟨he, hes⟩ := List.forall_mem_cons.mp hes
    obtain ⟨hhead, htail⟩ := Fits.append hfits
    simp only [mapAll, numberedAll, length_leaves_mapValues]
    rw [he k hhead, ih hes htail]

theorem refills_option {o : Option Expr} (ho : ∀ e ∈ o, Refills f σ e)
    (hfits : Fits σ k (leavesAll o.toList)) :
    mapOption (filler σ) id (numberedOption k (mapOption f id o)) = o := by
  cases o with
  | none => rfl
  | some e =>
    have hleaves : Fits σ k e.leaves := by simpa [leavesAll] using hfits
    simp only [mapOption, numberedOption]
    rw [ho e rfl k hleaves]

theorem refills_keys {ks : List (SortKey Expr)} (hks : ∀ e ∈ ks.map (·.expr), Refills f σ e)
    (hfits : Fits σ k (leavesAll (ks.map (·.expr)))) :
    mapKeys (filler σ) id (numberedKeys k (mapKeys f id ks)) = ks := by
  induction ks generalizing k with
  | nil => rfl
  | cons key ks ih =>
    obtain ⟨he, hks⟩ := List.forall_mem_cons.mp hks
    obtain ⟨hhead, htail⟩ := Fits.append hfits
    simp only [mapKeys, numberedKeys, length_leaves_mapValues]
    rw [he k hhead, ih hks htail]

theorem refills_columns {cs : List (Column Expr)} (hcs : ∀ e ∈ cs.map (·.expr), Refills f σ e)
    (hfits : Fits σ k (leavesAll (cs.map (·.expr)))) :
    mapColumns (filler σ) id (numberedColumns k (mapColumns f id cs)) = cs := by
  induction cs generalizing k with
  | nil => rfl
  | cons c cs ih =>
    obtain ⟨he, hcs⟩ := List.forall_mem_cons.mp hcs
    obtain ⟨hhead, htail⟩ := Fits.append hfits
    simp only [mapColumns, numberedColumns, length_leaves_mapValues]
    rw [he k hhead, ih hcs htail]

theorem refills_query {q : Query} (hq : ∀ e ∈ q.parts, Refills f σ e)
    (hfits : Fits σ k (leavesAll q.parts)) :
    mapQuery (filler σ) id (numberedQuery k (mapQuery f id q)) = q := by
  have hcount : ∀ q : Query,
      (leavesAll (mapQuery f id q).parts).length = (leavesAll q.parts).length := by
    intro q
    rw [parts_mapQuery, length_leavesAll_map]
  -- The literals of a stage come after those of the stages before it.
  have hsplit : ∀ {es : List Expr} {q : Query}, Fits σ k (leavesAll (q.parts ++ es)) →
      Fits σ k (leavesAll q.parts) ∧ Fits σ (k + (leavesAll q.parts).length) (leavesAll es) := by
    intro es q hes
    rw [leavesAll, List.flatMap_append] at hes
    exact Fits.append hes
  have hsingle : ∀ {j : Nat} {p : Expr}, Fits σ j (leavesAll [p]) → Fits σ j p.leaves := by
    intro j p hp
    simpa [leavesAll] using hp
  induction q with
  | rows object => rfl
  | filter q p ih | having q p ih =>
    obtain ⟨hq, hp⟩ := List.forall_mem_append.mp hq
    obtain ⟨hsource, hown⟩ := hsplit hfits
    simp only [mapQuery, numberedQuery, hcount]
    rw [ih hq hsource, hp p List.mem_cons_self _ (hsingle hown)]
  | group q keys ih =>
    obtain ⟨hq, hkeys⟩ := List.forall_mem_append.mp hq
    obtain ⟨hsource, hown⟩ := hsplit hfits
    simp only [mapQuery, numberedQuery, hcount]
    rw [ih hq hsource, refills_all hkeys hown]
  | order q keys ih =>
    obtain ⟨hq, hkeys⟩ := List.forall_mem_append.mp hq
    obtain ⟨hsource, hown⟩ := hsplit hfits
    simp only [mapQuery, numberedQuery, hcount]
    rw [ih hq hsource, refills_keys hkeys hown]
  | window q offset limit ih =>
    simp only [mapQuery, numberedQuery]
    rw [ih hq hfits]
  | select q columns ih =>
    obtain ⟨hq, hcolumns⟩ := List.forall_mem_append.mp hq
    obtain ⟨hsource, hown⟩ := hsplit hfits
    simp only [mapQuery, numberedQuery, hcount]
    rw [ih hq hsource, refills_columns hcolumns hown]

theorem refills (f : Value → Bool → Value) (σ : Nat → Value) (e : Expr) : Refills f σ e := by
  induction e using ofParts with
  | step e ih =>
  intro k hfits
  rw [leaves_eq] at hfits
  cases e with
  | value v const =>
    have hv : σ (k + 0) = v := hfits 0 v rfl
    simpa [mapValues, numbered, filler] using hv
  | property owner name => rfl
  | unary op x =>
    have hx := refills_all ih hfits
    simpa [parts, mapAll, numberedAll, mapValues, numbered] using hx
  | compare op l r | compute op l r =>
    have hlr := refills_all ih hfits
    simpa [parts, mapAll, numberedAll, mapValues, numbered] using hlr
  | call name args =>
    have hargs : mapAll (filler σ) id (numberedAll k (mapAll f id args)) = args :=
      refills_all ih hfits
    simp only [mapValues, numbered, hargs]
  | aggregate name arg distinct | related relation label inner tableArgs =>
    simp only [mapValues, numbered]
    rw [refills_option (fun x hx => ih x (Option.mem_toList.mpr hx)) hfits]
  | set kind items =>
    have hitems : mapAll (filler σ) id (numberedAll k (mapAll f id items)) = items :=
      refills_all ih hfits
    simp only [mapValues, numbered, hitems]
  | fragment key arg => rfl
  | query q =>
    simp only [mapValues, numbered]
    rw [refills_query ih hfits]

end Numbering

end Expr

-- What a statement shows of a bound value: whether it is null, where a collection has nulls, or
-- that there is a value.
def Value.shape (v : Value) : Value :=
  if v.isNull then .null
  else match v.collection? with
    | some vs => .items (vs.map fun x => if x.isNull then .null else .bool true)
    | none => .bool true

namespace Value

theorem isNull_shape (v : Value) : v.shape.isNull = v.isNull := by
  unfold shape
  split
  · next h =>
    rw [h]
    rfl
  · next h =>
    rw [Bool.not_eq_true] at h
    rw [h]
    split <;> rfl

theorem nulls_shape (v : Value) :
    v.shape.collection?.map (·.map isNull) = v.collection?.map (·.map isNull) := by
  unfold shape
  split
  · next h =>
    obtain rfl : v = .null := by cases v <;> simp_all [isNull]
    rfl
  · split
    · next vs hvs =>
      have hitems : ∀ ws : List Value, (items ws).collection? = some ws := fun _ => rfl
      rw [hvs, hitems]
      simp only [Option.map_some, List.map_map]
      congr 1
      refine List.map_congr_left fun x _ => ?_
      rw [Function.comp_apply]
      cases x.isNull <;> rfl
    · next hv =>
      rw [hv]
      rfl

end Value

-- The expression without the contents of its bound values; constants stay.
def Expr.outline (e : Expr) : Expr :=
  e.mapValues (fun v const => if const then v else v.shape) id

def Expr.literalAt (e : Expr) (place : Nat) : Option Value := e.nodes[place]?.bind Expr.literal?

namespace Expr

-- The outline with a number in the place of every literal, which can be filled with the literals
-- of any expression of that outline.
def template (e : Expr) : Expr := e.outline.numbered 0

def contents (e : Expr) : Value → Bool → Value := filler fun k => e.leaves[k]?.getD .null

theorem mapValues_template {e e' : Expr} (h : e'.outline = e.outline) :
    e.template.mapValues e'.contents id = e' := by
  rw [template, ← h]
  refine refills _ _ e' 0 fun j v hv => ?_
  rw [Nat.zero_add, hv]
  rfl

theorem getElem_nodes_template {e e' : Expr} (h : e'.outline = e.outline) {m : Nat} {x : Expr}
    (hx : e.template.nodes[m]? = some x) : e'.nodes[m]? = some (x.mapValues e'.contents id) := by
  conv => lhs; rw [← mapValues_template h]
  rw [nodes_mapValues, List.getElem?_map, hx]
  rfl

theorem shape_eq_of_outline {e e' : Expr} (h : e'.outline = e.outline) {m : Nat} {v w : Value}
    {const : Bool} (hv : e.nodes[m]? = some (.value v const))
    (hw : e'.nodes[m]? = some (.value w const)) :
    (if const then w else w.shape) = if const then v else v.shape := by
  have hnodes := congrArg (fun x : Expr => x.nodes[m]?) h
  simp only [outline, nodes_mapValues, List.getElem?_map, hv, hw, Option.map_some, mapValues,
    Option.some.injEq, Expr.value.injEq, and_true] at hnodes
  exact hnodes

end Expr
end QueryTree
