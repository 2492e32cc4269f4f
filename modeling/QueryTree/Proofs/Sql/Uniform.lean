import QueryTree.Proofs.Sql.Engine
import QueryTree.Proofs.Sql.Outcome

namespace QueryTree.Render

-- What the outputs of a family have in common: the number of tables, and for each parameter the
-- value that it has in each member.
structure Trace (ι : Type) where
  params : List (ι → DriverValue) := []
  tables : Nat := 0

variable {ι α β : Type}

def Trace.output (t : Trace ι) (i : ι) : Output := ⟨(t.params.map (· i)).toArray, t.tables⟩

def Trace.Within (G : (ι → DriverValue) → Prop) (t : Trace ι) : Prop := ∀ p ∈ t.params, G p

def Uniform (G : (ι → DriverValue) → Prop) (r : ι → Render α) : Prop :=
  ∀ t : Trace ι, t.Within G →
    (∃ a t', Trace.Within G t' ∧ ∀ i, r i (t.output i) = .ok (a, t'.output i)) ∨
      ∀ i, ∃ e, r i (t.output i) = .error e

section Steps

variable {G : (ι → DriverValue) → Prop} {r : ι → Render α} {f : ι → α → Render β}

theorem Trace.size_output (t : Trace ι) (i : ι) : (t.output i).params.size = t.params.length := by
  simp [output]

theorem uniform_pure (a : α) : Uniform G fun _ => (pure a : Render α) :=
  fun t ht => .inl ⟨a, t, ht, fun _ => rfl⟩

theorem uniform_fail (e : ι → Error) : Uniform G fun i => (fail (e i) : Render α) :=
  fun _ _ => .inr fun i => ⟨e i, rfl⟩

theorem uniform_ofExcept (x : Except Error α) : Uniform G fun _ => ofExcept x := by
  cases x with
  | ok a => exact uniform_pure a
  | error e => exact uniform_fail fun _ => e

-- The members agree on what the first step gives, so the next step is again one family.
theorem Uniform.bind (hr : Uniform G r) (hf : ∀ a, Uniform G fun i => f i a) :
    Uniform G fun i => r i >>= f i := by
  intro t ht
  simp only [run_bind]
  rcases hr t ht with ⟨a, t₁, ht₁, hok⟩ | herr
  · simp only [hok]
    exact hf a t₁ ht₁
  · refine .inr fun i => ?_
    obtain ⟨e, he⟩ := herr i
    exact ⟨e, by rw [he]⟩

-- Only families with a member need a proof.
theorem Uniform.of_member (h : ι → Uniform G r) : Uniform G r := by
  intro t ht
  by_cases hι : Nonempty ι
  · obtain ⟨i⟩ := hι
    exact h i t ht
  · exact .inr fun i => absurd ⟨i⟩ hι

theorem uniform_ofExcept_of_toOption {x : ι → Except Error α}
    (hx : ∀ i j, (x i).toOption = (x j).toOption) : Uniform G fun i => ofExcept (x i) := by
  refine .of_member fun i₀ => ?_
  cases h₀ : x i₀ with
  | ok a =>
    obtain rfl : x = fun _ => .ok a := by
      funext i
      have hi := hx i i₀
      rw [h₀] at hi
      cases h : x i with
      | ok b => simpa [h, Except.toOption] using hi
      | error e => simp [h, Except.toOption] at hi
    exact uniform_pure a
  | error e =>
    refine fun t _ => .inr fun i => ?_
    have hi := hx i i₀
    rw [h₀] at hi
    cases h : x i with
    | ok b => simp [h, Except.toOption] at hi
    | error e =>
      refine ⟨e, ?_⟩
      change ofExcept (x i) _ = _
      rw [h]
      rfl

theorem uniform_paramCount : Uniform G fun _ : ι => paramCount :=
  fun t ht => .inl ⟨t.params.length, t, ht, fun i => by rw [← t.size_output i]; rfl⟩

theorem uniform_release (n : Nat) : Uniform G fun _ : ι => release n := by
  intro t ht
  refine .inl ⟨(), { t with params := t.params.take n }, ?_, fun i => ?_⟩
  · exact fun p hp => ht p (List.mem_of_mem_take hp)
  · have htake : (t.output i).params.take n =
        (({ t with params := t.params.take n } : Trace ι).output i).params := by
      simp [Trace.output, List.map_take]
    change Except.ok ((), { t.output i with params := (t.output i).params.take n }) = _
    rw [htake]
    rfl

theorem uniform_nextTable : Uniform G fun _ : ι => nextTable :=
  fun t ht => .inl ⟨t.tables + 1, { t with tables := t.tables + 1 }, ht, fun _ => rfl⟩

theorem uniform_enter_bind (ctx : Context) (scope : Scope) {f : ι → Context → Render β}
    (hf : ∀ inside : Context, inside.dialect = ctx.dialect → Uniform G fun i => f i inside) :
    Uniform G fun i => enter ctx scope >>= f i := by
  unfold enter
  split
  · exact fun t _ => .inr fun i => ⟨_, rfl⟩
  · exact hf _ rfl

theorem uniform_checkName (kind name : String) : Uniform G fun _ : ι => checkName kind name :=
  uniform_ofExcept _

theorem uniform_forM_checkName (kind : String) (names : List String) :
    Uniform G fun _ : ι => names.forM (checkName kind) := by
  induction names with
  | nil => exact uniform_pure ()
  | cons name names ih => exact (uniform_checkName kind name).bind fun _ => ih

end Steps

-- The nodes of statements, from families of renderings of their parts.
section Nodes

variable {G : (ι → DriverValue) → Prop} {ctx : Context} {left right inner : ι → Render Sql}
  {items : ι → Render (List Sql)}

theorem uniform_standing (pos : Position) (h : Uniform G inner) :
    Uniform G fun i => standing ctx pos (inner i) :=
  h.bind fun _ => uniform_pure _

theorem uniform_negated (h : Uniform G inner) : Uniform G fun i => negated ctx (inner i) := by
  unfold negated
  split
  · exact uniform_fail _
  · exact h.bind fun _ => uniform_pure _

theorem uniform_signed (op : UnaryOp) (h : Uniform G inner) :
    Uniform G fun i => signed ctx op (inner i) := by
  unfold signed
  split
  · exact uniform_fail _
  · exact h.bind fun _ => uniform_pure _

theorem uniform_nullTest (op : LogicOp) (h : Uniform G inner) :
    Uniform G fun i => nullTest op (inner i) :=
  h.bind fun _ => uniform_pure _

theorem uniform_membership (op : LogicOp) (grouped : Bool) (hl : Uniform G left)
    (hr : Uniform G right) : Uniform G fun i => membership ctx op grouped (left i) (right i) := by
  unfold membership
  refine uniform_paramCount.bind fun mark => hl.bind fun l => hr.bind fun r => ?_
  split
  · exact (uniform_release mark).bind fun _ => uniform_pure _
  · split
    · exact uniform_fail _
    · exact uniform_pure _

theorem uniform_patternTest (op : LogicOp) {known : ι → Option String} (hl : Uniform G left)
    (hp : Uniform G fun i => patternOf ctx op (known i) (right i)) :
    Uniform G fun i => patternTest ctx op (known i) (left i) (right i) := by
  unfold patternTest
  simp only
  split
  · exact uniform_fail _
  · exact hl.bind fun _ => hp.bind fun _ => uniform_pure _

theorem uniform_comparison (op : LogicOp) (hl : Uniform G left) (hr : Uniform G right) :
    Uniform G fun i => comparison ctx op (left i) (right i) := by
  unfold comparison
  split
  · exact uniform_fail _
  · exact hl.bind fun _ => hr.bind fun _ => uniform_pure _

theorem uniform_computation (op : ValueOp) (hl : Uniform G left) (hr : Uniform G right) :
    Uniform G fun i => computation ctx op (left i) (right i) := by
  unfold computation
  refine hl.bind fun l => hr.bind fun r => ?_
  split
  · exact uniform_pure _
  · split
    · exact uniform_fail _
    · exact uniform_pure _

theorem uniform_called (name : String) (h : Uniform G items) :
    Uniform G fun i => called name (items i) :=
  (uniform_checkName _ name).bind fun _ => h.bind fun _ => uniform_pure _

theorem uniform_aggregation (name : String) (distinct : Bool) {arg : ι → Render (Option Sql)}
    (h : Uniform G arg) : Uniform G fun i => aggregation name distinct (arg i) :=
  (uniform_checkName _ name).bind fun _ => h.bind fun _ => uniform_pure _

theorem uniform_combined (pos : Position) (kind : SetKind) {parts : ι → Render (List Sql × Bool)}
    (h : Uniform G parts) : Uniform G fun i => combined pos kind (parts i) := by
  unfold combined
  refine uniform_paramCount.bind fun mark => h.bind fun p => ?_
  obtain ⟨parts, vacuous⟩ := p
  simp only
  split
  · exact (uniform_release mark).bind fun _ => uniform_pure _
  · split <;> exact uniform_pure _

theorem uniform_listed (h : Uniform G items) : Uniform G fun i => listed (items i) :=
  h.bind fun _ => uniform_pure _

theorem uniform_concatenated (h : Uniform G items) :
    Uniform G fun i => concatenated ctx (items i) :=
  h.bind fun _ => uniform_pure _

theorem uniform_existence (relation label : String) (tableArgs : List String)
    {body : ι → Context → Render Sql}
    (h : ∀ inside : Context, inside.dialect = ctx.dialect → Uniform G fun i => body i inside) :
    Uniform G fun i => existence ctx relation label tableArgs (body i) := by
  unfold existence
  refine (uniform_ofExcept _).bind fun join => ?_
  split
  · exact uniform_fail _
  · refine (uniform_forM_checkName _ _).bind fun _ => uniform_nextTable.bind fun n => ?_
    refine uniform_enter_bind _ _ fun inside hinside => ?_
    exact (h inside hinside).bind fun _ => uniform_pure _

theorem uniform_subquery (object : String) {body : ι → Context → Render Sql}
    (h : ∀ inside : Context, inside.dialect = ctx.dialect → Uniform G fun i => body i inside) :
    Uniform G fun i => subquery ctx object (body i) := by
  unfold subquery
  refine (uniform_ofExcept _).bind fun table => uniform_nextTable.bind fun n => ?_
  refine uniform_enter_bind _ _ fun inside hinside => ?_
  exact (h inside hinside).bind fun _ => uniform_pure _

theorem uniform_labelled (label : String) (s : Sql) : Uniform G fun _ : ι => labelled label s := by
  unfold labelled
  split
  · exact uniform_pure _
  · exact (uniform_checkName _ label).bind fun _ => uniform_pure _

theorem uniform_paging (window : Option Window) (ordered : Bool) :
    Uniform G fun _ : ι => paging ctx window ordered := by
  unfold paging
  split
  · exact uniform_pure _
  · split
    · split
      · exact uniform_fail _
      · exact (uniform_ofExcept _).bind fun _ => uniform_pure _
    · exact uniform_pure _

theorem uniform_assembled (window : Option Window)
    {selection filters grouping groupFilters ordering : ι → Render (List Sql)}
    (hs : Uniform G selection) (hf : Uniform G filters) (hg : Uniform G grouping)
    (hh : Uniform G groupFilters) (ho : Uniform G ordering) :
    Uniform G fun i => assembled ctx window (selection i) (filters i) (grouping i)
      (groupFilters i) (ordering i) := by
  have hselected : Uniform G fun i => selected (selection i) (grouping i) := by
    refine hs.bind fun columns => ?_
    split
    · exact hg.bind fun _ => uniform_pure _
    · exact uniform_pure _
  unfold assembled
  refine hselected.bind fun columns => hf.bind fun wheres => hg.bind fun keys =>
    hh.bind fun havings => ho.bind fun order => ?_
  exact (uniform_paging window _).bind fun page => uniform_pure _

theorem uniform_clauseParts (kind : SetKind) {parts : ι → Render (List Sql × Bool)}
    (hp : Uniform G parts) (hw : Uniform G inner) :
    Uniform G fun i => clauseParts kind (parts i) (inner i) := by
  unfold clauseParts
  split
  · exact hp.bind fun _ => uniform_pure _
  · exact hw.bind fun _ => uniform_pure _

theorem uniform_clauseAfter {earlier parts : ι → Render (List Sql)} (he : Uniform G earlier)
    (hp : Uniform G parts) : Uniform G fun i => clauseAfter (earlier i) (parts i) :=
  hp.bind fun _ => he.bind fun _ => uniform_pure _

theorem uniform_column (owner name : String) : Uniform G fun _ : ι => column ctx owner name := by
  obtain ⟨property, h⟩ | ⟨scope, -, property, h⟩ := column_cases ctx owner name
  · rw [h]
    unfold ownColumn
    split
    · exact uniform_fail _
    · refine (uniform_ofExcept _).bind fun col => ?_
      split <;> exact uniform_pure _
  · rw [h]
    unfold outerColumn
    split
    · exact uniform_fail _
    · exact (uniform_ofExcept _).bind fun col => uniform_pure _

end Nodes
end QueryTree.Render
