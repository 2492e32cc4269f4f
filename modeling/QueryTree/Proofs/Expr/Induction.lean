import QueryTree.Expr.Pipeline

namespace QueryTree

namespace Query

def parts : Query → List Expr
  | .rows _ => []
  | .filter q p => q.parts ++ [p]
  | .group q keys => q.parts ++ keys
  | .having q p => q.parts ++ [p]
  | .order q keys => q.parts ++ keys.map (·.expr)
  | .window q _ _ => q.parts
  | .select q columns => q.parts ++ columns.map (·.expr)

-- Induction over the stages alone, the expressions in them taken as they are.
@[elab_as_elim, induction_eliminator]
theorem stageInduction {motive : Query → Prop}
    (rows : ∀ object, motive (.rows object))
    (filter : ∀ q p, motive q → motive (.filter q p))
    (group : ∀ q keys, motive q → motive (.group q keys))
    (having : ∀ q p, motive q → motive (.having q p))
    (order : ∀ q keys, motive q → motive (.order q keys))
    (window : ∀ q offset limit, motive q → motive (.window q offset limit))
    (select : ∀ q columns, motive q → motive (.select q columns)) (q : Query) : motive q :=
  match q with
  | .rows object => rows object
  | .filter q p => filter q p (stageInduction rows filter group having order window select q)
  | .group q keys => group q keys (stageInduction rows filter group having order window select q)
  | .having q p => having q p (stageInduction rows filter group having order window select q)
  | .order q keys => order q keys (stageInduction rows filter group having order window select q)
  | .window q offset limit =>
    window q offset limit (stageInduction rows filter group having order window select q)
  | .select q columns =>
    select q columns (stageInduction rows filter group having order window select q)

end Query

namespace Expr

def parts : Expr → List Expr
  | .value .. | .property .. | .fragment .. => []
  | .unary _ x => [x]
  | .compare _ l r | .compute _ l r => [l, r]
  | .call _ args => args
  | .aggregate _ arg _ => arg.toList
  | .set _ items => items
  | .related _ _ inner _ => inner.toList
  | .query q => q.parts

section Parts

variable {motive : Expr → Prop}

mutual

-- What passes from the parts of an expression to the expression holds for every expression.
theorem ofParts (step : ∀ e, (∀ x ∈ e.parts, motive x) → motive e) :
    (e : Expr) → motive e
  | .value v c => step (.value v c) (by simp [parts])
  | .property o n => step (.property o n) (by simp [parts])
  | .fragment k a => step (.fragment k a) (by simp [parts])
  | .unary op x => step (.unary op x) (by simpa [parts] using ofParts step x)
  | .compare op l r =>
    step (.compare op l r) (by simpa [parts] using ⟨ofParts step l, ofParts step r⟩)
  | .compute op l r =>
    step (.compute op l r) (by simpa [parts] using ⟨ofParts step l, ofParts step r⟩)
  | .call n args => step (.call n args) (ofPartsAll step args)
  | .aggregate n arg d => step (.aggregate n arg d) (ofPartsOption step arg)
  | .set k items => step (.set k items) (ofPartsAll step items)
  | .related r l inner ts => step (.related r l inner ts) (ofPartsOption step inner)
  | .query q => step (.query q) (ofPartsQuery step q)

theorem ofPartsAll (step : ∀ e, (∀ x ∈ e.parts, motive x) → motive e) :
    (es : List Expr) → ∀ x ∈ es, motive x
  | [] => by simp
  | e :: es => by simpa using ⟨ofParts step e, ofPartsAll step es⟩

theorem ofPartsOption (step : ∀ e, (∀ x ∈ e.parts, motive x) → motive e) :
    (o : Option Expr) → ∀ x ∈ o.toList, motive x
  | none => by simp
  | some e => by simpa using ofParts step e

theorem ofPartsQuery (step : ∀ e, (∀ x ∈ e.parts, motive x) → motive e) :
    (q : Query) → ∀ x ∈ q.parts, motive x
  | .rows _ => by simp [Query.parts]
  | .filter q p | .having q p =>
    List.forall_mem_append.mpr ⟨ofPartsQuery step q, by simpa using ofParts step p⟩
  | .group q keys => List.forall_mem_append.mpr ⟨ofPartsQuery step q, ofPartsAll step keys⟩
  | .order q keys => List.forall_mem_append.mpr ⟨ofPartsQuery step q, ofPartsKeys step keys⟩
  | .window q _ _ => ofPartsQuery step q
  | .select q columns =>
    List.forall_mem_append.mpr ⟨ofPartsQuery step q, ofPartsColumns step columns⟩

theorem ofPartsKeys (step : ∀ e, (∀ x ∈ e.parts, motive x) → motive e) :
    (ks : List (SortKey Expr)) → ∀ x ∈ ks.map (·.expr), motive x
  | [] => by simp
  | ⟨e, _⟩ :: ks => List.forall_mem_cons.mpr ⟨ofParts step e, ofPartsKeys step ks⟩

theorem ofPartsColumns (step : ∀ e, (∀ x ∈ e.parts, motive x) → motive e) :
    (cs : List (Column Expr)) → ∀ x ∈ cs.map (·.expr), motive x
  | [] => by simp
  | ⟨e, _⟩ :: cs => List.forall_mem_cons.mpr ⟨ofParts step e, ofPartsColumns step cs⟩

end

end Parts

-- The same with a case for every kind of node.
@[elab_as_elim, induction_eliminator]
theorem nodeInduction {motive : Expr → Prop}
    (value : ∀ v const, motive (.value v const))
    (property : ∀ owner name, motive (.property owner name))
    (unary : ∀ op x, motive x → motive (.unary op x))
    (compare : ∀ op l r, motive l → motive r → motive (.compare op l r))
    (compute : ∀ op l r, motive l → motive r → motive (.compute op l r))
    (call : ∀ name args, (∀ x ∈ args, motive x) → motive (.call name args))
    (aggregate : ∀ name arg distinct, (∀ x ∈ arg, motive x) → motive (.aggregate name arg distinct))
    (set : ∀ kind items, (∀ x ∈ items, motive x) → motive (.set kind items))
    (related : ∀ relation label inner tableArgs, (∀ x ∈ inner, motive x) →
      motive (.related relation label inner tableArgs))
    (fragment : ∀ key arg, motive (.fragment key arg))
    (query : ∀ q, (∀ x ∈ q.parts, motive x) → motive (.query q)) (e : Expr) : motive e := by
  refine ofParts (fun e ih => ?_) e
  cases e with
  | value v const => exact value v const
  | property owner name => exact property owner name
  | unary op x => exact unary op x (ih x (by simp [parts]))
  | compare op l r => exact compare op l r (ih l (by simp [parts])) (ih r (by simp [parts]))
  | compute op l r => exact compute op l r (ih l (by simp [parts])) (ih r (by simp [parts]))
  | call name args => exact call name args ih
  | aggregate name arg distinct =>
    exact aggregate name arg distinct fun x hx => ih x (Option.mem_toList.mpr hx)
  | set kind items => exact set kind items ih
  | related relation label inner tableArgs =>
    exact related relation label inner tableArgs fun x hx => ih x (Option.mem_toList.mpr hx)
  | fragment key arg => exact fragment key arg
  | query q => exact query q ih

mutual

def nodes : Expr → List Expr
  | .value v c => [.value v c]
  | .property o n => [.property o n]
  | .fragment k a => [.fragment k a]
  | .unary op x => .unary op x :: x.nodes
  | .compare op l r => .compare op l r :: (l.nodes ++ r.nodes)
  | .compute op l r => .compute op l r :: (l.nodes ++ r.nodes)
  | .call n args => .call n args :: nodesAll args
  | .aggregate n arg d => .aggregate n arg d :: nodesOption arg
  | .set k items => .set k items :: nodesAll items
  | .related r l inner ts => .related r l inner ts :: nodesOption inner
  | .query q => .query q :: nodesQuery q

def nodesAll : List Expr → List Expr
  | [] => []
  | e :: es => e.nodes ++ nodesAll es

def nodesOption : Option Expr → List Expr
  | none => []
  | some e => e.nodes

def nodesQuery : Query → List Expr
  | .rows _ => []
  | .filter q p | .having q p => nodesQuery q ++ p.nodes
  | .group q keys => nodesQuery q ++ nodesAll keys
  | .order q keys => nodesQuery q ++ nodesKeys keys
  | .window q _ _ => nodesQuery q
  | .select q columns => nodesQuery q ++ nodesColumns columns

def nodesKeys : List (SortKey Expr) → List Expr
  | [] => []
  | ⟨e, _⟩ :: ks => e.nodes ++ nodesKeys ks

def nodesColumns : List (Column Expr) → List Expr
  | [] => []
  | ⟨e, _⟩ :: cs => e.nodes ++ nodesColumns cs

end

theorem nodesAll_eq (es : List Expr) : nodesAll es = es.flatMap nodes := by
  induction es with
  | nil => rfl
  | cons e es ih => simp [nodesAll, ih]

theorem nodesOption_eq (o : Option Expr) : nodesOption o = o.toList.flatMap nodes := by
  cases o <;> simp [nodesOption]

theorem nodesKeys_eq (ks : List (SortKey Expr)) :
    nodesKeys ks = (ks.map (·.expr)).flatMap nodes := by
  induction ks with
  | nil => rfl
  | cons k ks ih => simp [nodesKeys, ih]

theorem nodesColumns_eq (cs : List (Column Expr)) :
    nodesColumns cs = (cs.map (·.expr)).flatMap nodes := by
  induction cs with
  | nil => rfl
  | cons c cs ih => simp [nodesColumns, ih]

theorem nodesQuery_eq (q : Query) : nodesQuery q = q.parts.flatMap nodes := by
  induction q with
  | rows object => rfl
  | filter q p ih => simp [nodesQuery, Query.parts, ih]
  | group q keys ih => simp [nodesQuery, Query.parts, ih, nodesAll_eq]
  | having q p ih => simp [nodesQuery, Query.parts, ih]
  | order q keys ih => simp only [nodesQuery, Query.parts, ih, nodesKeys_eq, List.flatMap_append]
  | window q offset limit ih => simp [nodesQuery, Query.parts, ih]
  | select q columns ih =>
    simp only [nodesQuery, Query.parts, ih, nodesColumns_eq, List.flatMap_append]

theorem nodes_eq (e : Expr) : e.nodes = e :: e.parts.flatMap nodes := by
  cases e with
  | query q => simp [nodes, parts, nodesQuery_eq]
  | call name args => simp [nodes, parts, nodesAll_eq]
  | set kind items => simp [nodes, parts, nodesAll_eq]
  | aggregate name arg distinct => simp [nodes, parts, nodesOption_eq]
  | related relation label inner tableArgs => simp [nodes, parts, nodesOption_eq]
  | _ => simp [nodes, parts]

theorem self_mem_nodes (e : Expr) : e ∈ e.nodes := by
  rw [nodes_eq]
  exact List.mem_cons_self

theorem mem_nodes_of_part {e x y : Expr} (hx : x ∈ e.parts) (hy : y ∈ x.nodes) : y ∈ e.nodes := by
  rw [nodes_eq]
  exact List.mem_cons_of_mem e (List.mem_flatMap.mpr ⟨x, hx, hy⟩)

theorem mem_nodes_of_mem_parts {e x : Expr} (hx : x ∈ e.parts) : x ∈ e.nodes :=
  mem_nodes_of_part hx (self_mem_nodes x)

theorem nodes_subset {e x : Expr} (hx : x ∈ e.nodes) : x.nodes ⊆ e.nodes := by
  induction e using ofParts with
  | step e ih =>
    rw [nodes_eq] at hx
    rcases List.mem_cons.mp hx with rfl | hx
    · exact List.Subset.refl _
    · obtain ⟨y, hy, hxy⟩ := List.mem_flatMap.mp hx
      exact fun z hz => mem_nodes_of_part hy (ih y hy hxy hz)

def everywhere (p : Expr → Bool) (e : Expr) : Bool := e.nodes.all p

theorem everywhere_iff (p : Expr → Bool) (e : Expr) :
    e.everywhere p = true ↔ p e = true ∧ ∀ x ∈ e.parts, x.everywhere p = true := by
  rw [everywhere, nodes_eq, List.all_cons, Bool.and_eq_true, List.all_flatMap, List.all_eq_true]
  rfl

def isFragment : Expr → Bool
  | .fragment .. => true
  | _ => false

-- Expressions that are rendered without anything supplied from outside.
def isStatic (e : Expr) : Bool := e.everywhere fun x => !x.isFragment

theorem isStatic_iff (e : Expr) :
    e.isStatic = true ↔ e.isFragment = false ∧ ∀ x ∈ e.parts, x.isStatic = true := by
  simp [isStatic, everywhere_iff _ e]

theorem isStatic_of_mem_nodes {e x : Expr} (hs : e.isStatic = true) (hx : x ∈ e.nodes) :
    x.isStatic = true :=
  List.all_eq_true.mpr fun y hy => List.all_eq_true.mp hs y (nodes_subset hx hy)

end Expr

section Map

variable (g : Expr → Expr)

def Query.mapParts : Query → Query
  | .rows object => .rows object
  | .filter q p => .filter (mapParts q) (g p)
  | .group q keys => .group (mapParts q) (keys.map g)
  | .having q p => .having (mapParts q) (g p)
  | .order q keys => .order (mapParts q) (keys.map fun k => ⟨g k.expr, k.ascending⟩)
  | .window q offset limit => .window (mapParts q) offset limit
  | .select q columns => .select (mapParts q) (columns.map fun c => ⟨g c.expr, c.label⟩)

def Expr.mapParts : Expr → Expr
  | .value v const => .value v const
  | .property owner name => .property owner name
  | .unary op x => .unary op (g x)
  | .compare op l r => .compare op (g l) (g r)
  | .compute op l r => .compute op (g l) (g r)
  | .call name args => .call name (args.map g)
  | .aggregate name arg distinct => .aggregate name (arg.map g) distinct
  | .set kind items => .set kind (items.map g)
  | .related relation label inner tableArgs => .related relation label (inner.map g) tableArgs
  | .fragment key arg => .fragment key arg
  | .query q => .query (q.mapParts g)

theorem Query.parts_mapParts (q : Query) : (q.mapParts g).parts = q.parts.map g := by
  induction q with
  | rows object => rfl
  | filter q p ih => simp [mapParts, parts, ih]
  | group q keys ih => simp [mapParts, parts, ih]
  | having q p ih => simp [mapParts, parts, ih]
  | order q keys ih => simp [mapParts, parts, ih]
  | window q offset limit ih => simp [mapParts, parts, ih]
  | select q columns ih => simp [mapParts, parts, ih]

theorem Expr.parts_mapParts (e : Expr) : (e.mapParts g).parts = e.parts.map g := by
  cases e with
  | query q => exact q.parts_mapParts g
  | aggregate name arg distinct => cases arg <;> rfl
  | related relation label inner tableArgs => cases inner <;> rfl
  | _ => rfl

theorem Query.mapParts_mapParts (g' : Expr → Expr) (q : Query) :
    (q.mapParts g).mapParts g' = q.mapParts (g' ∘ g) := by
  induction q with
  | rows object => rfl
  | filter q p ih => simp [mapParts, ih]
  | group q keys ih => simp [mapParts, ih]
  | having q p ih => simp [mapParts, ih]
  | order q keys ih => simp [mapParts, ih, Function.comp_def]
  | window q offset limit ih => simp [mapParts, ih]
  | select q columns ih => simp [mapParts, ih, Function.comp_def]

theorem Expr.mapParts_mapParts (g' : Expr → Expr) (e : Expr) :
    (e.mapParts g).mapParts g' = e.mapParts (g' ∘ g) := by
  cases e with
  | query q => exact congrArg query (q.mapParts_mapParts g g')
  | _ => simp [mapParts]

variable {g}

theorem Query.mapParts_eq_self {q : Query} (h : ∀ x ∈ q.parts, g x = x) : q.mapParts g = q := by
  induction q with
  | rows object => rfl
  | filter q p ih | having q p ih =>
    obtain ⟨hq, hp⟩ := List.forall_mem_append.mp h
    rw [mapParts, ih hq, hp p List.mem_cons_self]
  | group q keys ih =>
    obtain ⟨hq, hkeys⟩ := List.forall_mem_append.mp h
    rw [mapParts, ih hq, List.map_congr_left hkeys, List.map_id']
  | order q keys ih =>
    obtain ⟨hq, hkeys⟩ := List.forall_mem_append.mp h
    have hkeep : ∀ k ∈ keys, SortKey.mk (g k.expr) k.ascending = k :=
      fun k hk => by rw [hkeys k.expr (List.mem_map_of_mem hk)]
    rw [mapParts, ih hq, List.map_congr_left hkeep, List.map_id']
  | window q offset limit ih => rw [mapParts, ih h]
  | select q columns ih =>
    obtain ⟨hq, hcolumns⟩ := List.forall_mem_append.mp h
    have hkeep : ∀ c ∈ columns, Column.mk (g c.expr) c.label = c :=
      fun c hc => by rw [hcolumns c.expr (List.mem_map_of_mem hc)]
    rw [mapParts, ih hq, List.map_congr_left hkeep, List.map_id']

theorem Expr.mapParts_eq_self {e : Expr} (h : ∀ x ∈ e.parts, g x = x) : e.mapParts g = e := by
  cases e with
  | value v const => rfl
  | property owner name => rfl
  | unary op x => rw [mapParts, h x List.mem_cons_self]
  | compare op l r | compute op l r =>
    rw [mapParts, h l List.mem_cons_self, h r (List.mem_cons_of_mem l List.mem_cons_self)]
  | call name args => rw [mapParts, List.map_congr_left (l := args) h, List.map_id']
  | aggregate name arg distinct =>
    cases arg with
    | none => rfl
    | some x => rw [mapParts, Option.map_some, h x List.mem_cons_self]
  | set kind items => rw [mapParts, List.map_congr_left (l := items) h, List.map_id']
  | related relation label inner tableArgs =>
    cases inner with
    | none => rfl
    | some x => rw [mapParts, Option.map_some, h x List.mem_cons_self]
  | fragment key arg => rfl
  | query q => rw [mapParts, Query.mapParts_eq_self h]

end Map

end QueryTree
