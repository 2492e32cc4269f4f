import QueryTree.Sql.Compile

namespace QueryTree

-- A column of the rows in scope, seen from among them.
def Scope.columnText (s : Scope) (column : String) : Sql :=
  match s.qualifier with
  | none => [.name column]
  | some n => [.table n, .text ".", .name column]

namespace Render

variable {α β : Type} {r : Render α} {f : α → Render β} {out : Output}
variable {Q : α → Output → Prop} {ctx : Context}

-- A failing rendering gives nothing.
def Yields (r : Render α) (out : Output) (Q : α → Output → Prop) : Prop :=
  ∀ a out', r out = .ok (a, out') → Q a out'

theorem Yields.mono {P : α → Output → Prop} (h : Yields r out P)
    (hpq : ∀ a out', P a out' → Q a out') : Yields r out Q :=
  fun a out' hr => hpq a out' (h a out' hr)

@[simp] theorem yields_pure {a : α} : Yields (pure a) out Q ↔ Q a out := by
  constructor
  · intro h
    exact h a out rfl
  · intro h b out' hb
    cases hb
    exact h

theorem run_bind (r : Render α) (f : α → Render β) (out : Output) :
    (r >>= f) out = (match r out with
      | .ok (a, out') => f a out'
      | .error e => .error e) := by
  change StateT.bind r f out = _
  simp only [StateT.bind, Bind.bind, Except.bind]
  cases r out <;> rfl

@[simp] theorem yields_bind {Q : β → Output → Prop} :
    Yields (r >>= f) out Q ↔ Yields r out fun a out' => Yields (f a) out' Q := by
  constructor
  · intro h a out' hr b out'' hf
    refine h b out'' ?_
    rw [run_bind, hr]
    exact hf
  · intro h b out'' hb
    rw [run_bind] at hb
    cases hr : r out with
    | error e => simp [hr] at hb
    | ok p =>
      simp only [hr] at hb
      exact h p.1 p.2 hr b out'' hb

@[simp] theorem yields_map {g : α → β} {Q : β → Output → Prop} :
    Yields (g <$> r) out Q ↔ Yields r out fun a out' => Q (g a) out' := by
  rw [← bind_pure_comp]
  simp only [yields_bind, yields_pure]

@[simp] theorem yields_fail {e : Error} : Yields (fail e) out Q ↔ True :=
  ⟨fun _ => trivial, fun _ _ _ h => nomatch h⟩

@[simp] theorem yields_unsupported {expr reason : String} :
    Yields (unsupported expr reason) out Q ↔ True := yields_fail

@[simp] theorem yields_noFeature {what hint : String} :
    Yields (noFeature ctx what hint) out Q ↔ True := yields_fail

@[simp] theorem yields_ofExcept {x : Except Error α} :
    Yields (ofExcept x) out Q ↔ ∀ a, x = .ok a → Q a out := by
  cases x with
  | error e => simp [ofExcept, ← fail.eq_def]
  | ok a => simp [ofExcept]

@[simp] theorem yields_ite {p : Prop} [Decidable p] {s : Render α} :
    Yields (if p then r else s) out Q ↔ (p → Yields r out Q) ∧ (¬p → Yields s out Q) := by
  by_cases hp : p <;> simp [hp]

@[simp] theorem yields_get {Q : Output → Output → Prop} :
    Yields (get : Render Output) out Q ↔ Q out out :=
  ⟨fun h => h out out rfl, fun h _ _ hb => by cases hb; exact h⟩

@[simp] theorem yields_modify {g : Output → Output} {Q : Unit → Output → Prop} :
    Yields (modify g : Render Unit) out Q ↔ Q () (g out) :=
  ⟨fun h => h () (g out) rfl, fun h _ _ hb => by cases hb; exact h⟩

@[simp] theorem yields_paramCount {Q : Nat → Output → Prop} :
    Yields paramCount out Q ↔ Q out.params.size out := by
  simp [paramCount]

@[simp] theorem yields_release {n : Nat} {Q : Unit → Output → Prop} :
    Yields (release n) out Q ↔ Q () { out with params := out.params.take n } := by
  simp [release]

@[simp] theorem yields_nextTable {Q : Nat → Output → Prop} :
    Yields nextTable out Q ↔ Q (out.tables + 1) { out with tables := out.tables + 1 } := by
  simp [nextTable]

@[simp] theorem yields_enter {scope : Scope} {Q : Context → Output → Prop} :
    Yields (enter ctx scope) out Q ↔ (ctx.depth < maxDepth →
      Q { ctx with scope, outer := ctx.scope :: ctx.outer, depth := ctx.depth + 1 } out) := by
  simp only [enter, yields_ite, yields_unsupported, yields_pure, implies_true, true_and, ge_iff_le,
    Nat.not_le]

@[simp] theorem yields_checkName {kind name : String} {Q : Unit → Output → Prop} :
    Yields (checkName kind name) out Q ↔ (Text.isIdentifier name = true → Q () out) := by
  by_cases h : Text.isIdentifier name = true
  · simp only [checkName, checkIdentifier, h, ite_true, yields_ofExcept, true_imp_iff]
    exact ⟨fun hq => hq (), fun hq _ => hq⟩
  · simp [checkName, checkIdentifier, h]

theorem yields_forM_checkName {kind : String} {names : List String} {Q : Unit → Output → Prop} :
    Yields (names.forM (checkName kind)) out Q ↔
      ((∀ name ∈ names, Text.isIdentifier name = true) → Q () out) := by
  induction names with
  | nil => simp [List.forM]
  | cons name names ih =>
    change Yields (checkName kind name >>= fun _ => names.forM (checkName kind)) out Q ↔ _
    simp only [yields_bind, yields_checkName, ih, List.mem_cons, forall_eq_or_imp, and_imp]

theorem yields_bindParam {v : Value} {Q : Sql → Output → Prop} :
    Yields (bind ctx v) out Q ↔ ∀ w, ctx.dialect.convert v = .ok w →
      Q [.placeholder out.params.size] { out with params := out.params.push w } := by
  unfold bind
  cases ctx.dialect.convert v with
  | error e => simp
  | ok w => simp

theorem column_cases (ctx : Context) (owner name : String) :
    (∃ property, column ctx owner name = ownColumn ctx property) ∨
      ∃ scope ∈ ctx.outer, ∃ property, column ctx owner name = outerColumn ctx scope property := by
  have hlabelled {label property : String} {r : Render Sql}
      (h : labelled? ctx label property = some r) : (∃ property, r = ownColumn ctx property) ∨
        ∃ scope ∈ ctx.outer, ∃ property, r = outerColumn ctx scope property := by
    unfold labelled? at h
    split at h
    · cases h
      exact .inl ⟨property, rfl⟩
    · obtain ⟨scope, hscope, rfl⟩ := Option.map_eq_some_iff.mp h
      exact .inr ⟨scope, List.mem_of_find?_eq_some hscope, property, rfl⟩
  unfold column
  split
  · exact .inl ⟨name, rfl⟩
  · split
    · next r hr => exact hlabelled hr
    · split
      · split
        · next r hr => exact hlabelled hr
        · exact .inl ⟨_, rfl⟩
      · exact .inl ⟨_, rfl⟩

theorem yields_column {owner name : String} {Q : Sql → Output → Prop}
    (hown : ctx.scope.object ≠ "" → ∀ property col,
      ctx.resolver.column ctx.scope.object property = .ok col →
      Q (ctx.scope.columnText col.name) out)
    (houter : ∀ scope ∈ ctx.outer, scope.object ≠ "" → ∀ property col,
      ctx.resolver.column scope.object property = .ok col →
      Q [qualifierOf scope, .text ".", .name col.name] out) :
    Yields (column ctx owner name) out Q := by
  obtain ⟨property, h⟩ | ⟨scope, hscope, property, h⟩ := column_cases ctx owner name
  · rw [h, ownColumn]
    simp only [yields_ite, yields_unsupported, yields_bind, yields_ofExcept, implies_true, true_and]
    intro hobject col hcol
    have h := hown (by simpa using hobject) property col hcol
    unfold Scope.columnText at h
    split <;> simp_all only [yields_pure]
  · rw [h, outerColumn]
    simp only [yields_ite, yields_unsupported, yields_bind, yields_ofExcept, yields_pure,
      implies_true, true_and]
    exact fun hobject => houter scope hscope (by simpa using hobject) property

def clauseOf (frag : FragmentRenderer) (ctx : Context) : Expr → Render (List Sql)
  | .set kind items =>
    clauseParts kind (conditions frag ctx items) (expr frag ctx .condition (.set kind items))
  | p => singly (expr frag ctx .condition p)

theorem filters_filter (frag : FragmentRenderer) (ctx : Context) (q : Query) (p : Expr) :
    filters frag ctx (.filter q p) = clauseAfter (filters frag ctx q) (clauseOf frag ctx p) := by
  cases p <;> rfl

theorem groupFilters_having (frag : FragmentRenderer) (ctx : Context) (q : Query) (p : Expr) :
    groupFilters frag ctx (.having q p) =
      clauseAfter (groupFilters frag ctx q) (clauseOf frag ctx p) := by
  cases p <;> rfl

end Render

theorem Statement.named_fst (st : Statement) :
    st.named.map (·.1) = (List.range st.params.length).map parameterName := by
  simp only [named, List.map_map, List.range_eq_range', ← List.zipIdx_map_snd]
  rfl

namespace Compilation

theorem bind_ok {ε α β : Type} {x : Except ε α} {f : α → Except ε β} {b : β}
    (h : (x >>= f) = .ok b) : ∃ a, x = .ok a ∧ f a = .ok b := by
  cases x with
  | error e => cases h
  | ok a => exact ⟨a, rfl, h⟩

def fragments (c : Compilation) : FragmentRenderer :=
  Render.fragment c.sources Render.fragmentLevels

theorem run_ok {c : Compilation} {e : Expr} {st : Statement} (h : c.run (some e) = .ok st) :
    ∃ r d out, c.resolver = some r ∧ c.dialect = some d ∧
      c.render r d e = .ok (st.tokens, out) ∧ st = ⟨st.tokens, d, out.params.toList⟩ := by
  unfold run at h
  obtain ⟨-, -, h⟩ := bind_ok h
  simp only at h
  split at h
  · next r d hr hd =>
    obtain ⟨⟨tokens, out⟩, hrender, h⟩ := bind_ok h
    simp only [bounded] at h
    split at h
    · cases h
    · cases h
      exact ⟨r, d, out, hr, hd, hrender, rfl⟩
  · cases h

end Compilation
end QueryTree
