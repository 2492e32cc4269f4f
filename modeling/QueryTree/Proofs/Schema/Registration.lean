import Mathlib.Data.List.Induction
import QueryTree.Proofs.Schema.Checked
import QueryTree.Proofs.Schema.Relations

namespace QueryTree

namespace Schema

variable {s s' : Schema} {c d : Change} {cs : List Change}

section Records

-- What an accepted call lets the schema answer.
def Change.IsRecorded (s : Schema) : Change → Prop
  | .bind object table => s.table object = .ok table
  | .describe table name type nullable => s.resolvedColumn table name = ⟨name, type, nullable⟩
  | .relate r => r ∈ s.relations

-- A later call that takes the place of an earlier one.
def Change.Replaces : Change → Change → Prop
  | .bind object _, .bind object' _ => object = object'
  | .describe table name _ _, .describe table' name' _ _ => table = table' ∧ name = name'
  | _, _ => False

theorem isRecorded_update (c : Change) (s : Schema) : c.IsRecorded (c.update s) := by
  cases c with
  | bind object table => simp [Change.IsRecorded, Change.update, Schema.table]
  | describe table name type nullable =>
    simp [Change.IsRecorded, Change.update, resolvedColumn]
  | relate r => simp [Change.IsRecorded, Change.update]

theorem Change.IsRecorded.update (hc : c.IsRecorded s) (h : ¬d.Replaces c) :
    c.IsRecorded (d.update s) := by
  cases c with
  | bind object table =>
    cases d with
    | bind object' table' =>
      have hne : object' ≠ object := h
      have hfind : (s.bindings.filter (·.1 != object')).find? (·.1 == object) =
          s.bindings.find? (·.1 == object) := by
        rw [List.find?_filter]
        congr 1
        funext b
        by_cases hb : b.1 = object
        · simp [hb, Ne.symm hne]
        · simp [hb]
      simpa [IsRecorded, Change.update, Schema.table, hne, hfind] using hc
    | describe | relate => exact hc
  | describe table name type nullable =>
    cases d with
    | describe table' name' type' nullable' =>
      have hne : (table' == table && name' == name) = false := by
        simpa [Change.Replaces] using h
      simpa [IsRecorded, Change.update, resolvedColumn, List.find?_cons, hne] using hc
    | bind | relate => exact hc
  | relate r =>
    cases d with
    | relate r' => exact List.mem_append_left _ hc
    | bind | describe => exact hc

theorem foldlM_apply_cons : (c :: cs).foldlM apply s = .ok s' ↔
    c.IsAllowed s ∧ cs.foldlM apply (c.update s) = .ok s' := by
  rw [List.foldlM_cons]
  constructor
  · intro h
    cases happly : s.apply c with
    | error e => simp [happly, Bind.bind, Except.bind] at h
    | ok s₁ =>
      obtain ⟨hallowed, rfl⟩ := apply_ok_iff.mp happly
      exact ⟨hallowed, by simpa [happly, Bind.bind, Except.bind] using h⟩
  · rintro ⟨hallowed, h⟩
    rw [apply_ok_iff.mpr ⟨hallowed, rfl⟩]
    exact h

theorem Change.IsRecorded.run (hc : c.IsRecorded s) (h : ∀ d ∈ cs, ¬d.Replaces c)
    (hrun : cs.foldlM apply s = .ok s') : c.IsRecorded s' := by
  induction cs generalizing s with
  | nil => exact Except.ok.inj hrun ▸ hc
  | cons d cs ih =>
    obtain ⟨hd, hcs⟩ := List.forall_mem_cons.mp h
    exact ih (hc.update hd) hcs (foldlM_apply_cons.mp hrun).2

theorem isRecorded_of_run (h : cs.Pairwise fun c d => ¬d.Replaces c)
    (hrun : cs.foldlM apply s = .ok s') : ∀ c ∈ cs, c.IsRecorded s' := by
  induction cs generalizing s with
  | nil => exact fun _ hc => absurd hc List.not_mem_nil
  | cons c cs ih =>
    obtain ⟨hc, hcs⟩ := List.pairwise_cons.mp h
    obtain ⟨-, hrun⟩ := foldlM_apply_cons.mp hrun
    exact List.forall_mem_cons.mpr ⟨(isRecorded_update c s).run hc hrun, ih hcs hrun⟩

theorem tables_of_run (hrun : cs.foldlM apply s = .ok s') : s'.tables = s.tables := by
  induction cs generalizing s with
  | nil => exact Except.ok.inj hrun ▸ rfl
  | cons c cs ih =>
    have hc : (c.update s).tables = s.tables := by cases c <;> rfl
    exact (ih (foldlM_apply_cons.mp hrun).2).trans hc

-- Calls that are allowed wherever an invariant holds are all accepted.
theorem exists_run {P : Schema → Prop}
    (h : ∀ c ∈ cs, ∀ s, P s → c.IsAllowed s ∧ P (c.update s)) (hs : P s) :
    ∃ s', cs.foldlM apply s = .ok s' ∧ P s' := by
  induction cs generalizing s with
  | nil => exact ⟨s, rfl, hs⟩
  | cons c cs ih =>
    obtain ⟨hc, hcs⟩ := List.forall_mem_cons.mp h
    obtain ⟨s', hrun, hs'⟩ := ih hcs (hc s hs).2
    exact ⟨s', foldlM_apply_cons.mpr ⟨(hc s hs).1, hrun⟩, hs'⟩

-- Relations are accepted if each is proper and no two of an object have one name.
theorem exists_relations_iff {rs : List Relation} (hs : s.relations.Pairwise Apart) :
    (∃ s', (rs.map Change.relate).foldlM apply s = .ok s') ↔
      (∀ r ∈ rs, IsProper r) ∧ (s.relations ++ rs).Pairwise Apart := by
  induction rs generalizing s with
  | nil => simpa [pure, Except.pure] using hs
  | cons r rs ih =>
    have hall : (∀ q ∈ s.relations, Apart q r) ↔ (s.relations ++ [r]).Pairwise Apart := by
      simp [List.pairwise_append, hs]
    have hsplit : s.relations ++ r :: rs = s.relations ++ [r] ++ rs := by simp
    simp only [List.map_cons, foldlM_apply_cons, exists_and_left, Change.IsAllowed, hall, hsplit,
      List.forall_mem_cons]
    constructor
    · rintro ⟨⟨hr, hpair⟩, h⟩
      obtain ⟨hrs, hpair⟩ := (ih hpair).mp h
      exact ⟨⟨hr, hrs⟩, hpair⟩
    · rintro ⟨⟨hr, hrs⟩, hpair⟩
      have hfirst := (List.pairwise_append.mp hpair).1
      exact ⟨⟨hr, hfirst⟩, (ih hfirst).mpr ⟨hrs, hpair⟩⟩

end Records

end Schema

-- A declaration that no schema takes after the others of its object.
def RelationDecl.IsFaulty (before : List RelationDecl) (r : RelationDecl) : Prop :=
  Text.isIdentifier r.name = false ∨
    (r.localKeys = [] ∨ r.localKeys.length ≠ r.remoteKeys.length) ∨ ∃ q ∈ before, q.name = r.name

namespace SchemaFile

open Schema (Change Apart IsProper)

variable {f : SchemaFile} {s : Schema} {o : ObjectDecl}

section Calls

-- The schema of the tables, and the calls that the rest of a document stands for.
def unbound (f : SchemaFile) : Schema :=
  .ofTables (f.tables.map fun t => ⟨t.name, t.columns.map (·.name)⟩)

def descriptions (f : SchemaFile) : List Change :=
  f.tables.flatMap fun t => t.columns.map fun c => .describe t.name c.name c.type c.nullable

def bindings (f : SchemaFile) : List Change := f.objects.map fun o => .bind o.name o.table

def relation (o : ObjectDecl) (r : RelationDecl) : Relation :=
  ⟨o.name, r.name, r.target, r.localKeys, r.remoteKeys⟩

def relations (f : SchemaFile) : List Relation :=
  f.objects.flatMap fun o => o.relations.map (relation o)

def calls (f : SchemaFile) : List Change :=
  f.descriptions ++ f.bindings ++ f.relations.map .relate

theorem foldlM_flatMap {α : Type} (g : α → List Change) (xs : List α) (s : Schema) :
    (xs.flatMap g).foldlM Schema.apply s = xs.foldlM (fun s x => (g x).foldlM Schema.apply s) s := by
  induction xs generalizing s with
  | nil => rfl
  | cons x xs ih => simp only [List.flatMap_cons, List.foldlM_append, List.foldlM_cons, ih]

theorem schema_eq (f : SchemaFile) : f.schema = f.calls.foldlM Schema.apply f.unbound := by
  simp only [schema, calls, descriptions, bindings, relations, List.map_flatMap, List.foldlM_append,
    foldlM_flatMap, List.map_map, List.foldlM_map, Schema.apply, Function.comp_apply, bind_assoc]
  rfl

end Calls

section Sound

theorem IsSound.findTable? (hf : f.IsSound) (hs : s.tables = f.unbound.tables) {t : TableDecl}
    (ht : t ∈ f.tables) : s.findTable? t.name = some ⟨t.name, t.columns.map (·.name)⟩ := by
  have hnodup : (f.unbound.tables.reverse.map Table.name).Nodup := by
    rw [List.map_reverse, List.nodup_reverse, unbound, Schema.ofTables, List.map_map]
    exact hf.tables
  rw [Schema.findTable?, hs]
  exact find?_name hnodup (List.mem_reverse.mpr (List.mem_map_of_mem ht))

-- The calls before the relations ask for tables and columns only, and these never change.
theorem IsSound.exists_bound (hf : f.IsSound) :
    ∃ s, (f.descriptions ++ f.bindings).foldlM Schema.apply f.unbound = .ok s ∧
      f.schema = (f.relations.map .relate).foldlM Schema.apply s ∧ s.relations = [] := by
  obtain ⟨s, hrun, -, hnone⟩ : ∃ s, (f.descriptions ++ f.bindings).foldlM Schema.apply f.unbound =
      .ok s ∧ s.tables = f.unbound.tables ∧ s.relations = [] := by
    refine Schema.exists_run (P := fun s => s.tables = f.unbound.tables ∧ s.relations = []) ?_
      ⟨rfl, rfl⟩
    intro c hc s hs
    rcases List.mem_append.mp hc with hc | hc
    · obtain ⟨t, ht, hc⟩ := List.mem_flatMap.mp hc
      obtain ⟨d, hd, rfl⟩ := List.mem_map.mp hc
      exact ⟨⟨_, hf.findTable? hs.1 ht, List.mem_map_of_mem hd⟩, hs⟩
    · obtain ⟨o, ho, rfl⟩ := List.mem_map.mp hc
      obtain ⟨hname, t, ht, htable⟩ := hf.bound o ho
      exact ⟨⟨hname, _, htable ▸ hf.findTable? hs.1 ht⟩, hs⟩
  refine ⟨s, hrun, ?_, hnone⟩
  rw [schema_eq, calls, List.foldlM_append, hrun]
  rfl

theorem IsSound.pairwise_calls (hf : f.IsSound) :
    f.calls.Pairwise fun c d => ¬d.Replaces c := by
  refine List.pairwise_append.mpr ⟨List.pairwise_append.mpr ⟨?_, ?_, ?_⟩, ?_, ?_⟩
  · refine List.pairwise_flatMap.mpr ⟨fun t ht => ?_, ?_⟩
    · refine List.pairwise_map.mpr ((List.pairwise_map.mp (hf.columns t ht)).imp ?_)
      exact fun hne h => hne h.2.symm
    · refine (List.pairwise_map.mp hf.tables).imp fun hne c hc d hd => ?_
      obtain ⟨_, -, rfl⟩ := List.mem_map.mp hc
      obtain ⟨_, -, rfl⟩ := List.mem_map.mp hd
      exact fun h => hne h.1.symm
  · refine List.pairwise_map.mpr ((List.pairwise_map.mp hf.objects).imp ?_)
    exact fun hne h => hne h.symm
  · intro c hc d hd
    obtain ⟨_, -, hc⟩ := List.mem_flatMap.mp hc
    obtain ⟨_, -, rfl⟩ := List.mem_map.mp hc
    obtain ⟨_, -, rfl⟩ := List.mem_map.mp hd
    exact id
  · exact List.pairwise_map.mpr (List.pairwise_of_forall fun _ _ => id)
  · intro c hc d hd
    obtain ⟨_, -, rfl⟩ := List.mem_map.mp hd
    cases c <;> exact id

theorem IsSound.pairwise_relations (hf : f.IsSound) : f.relations.Pairwise Apart ↔
    ∀ o ∈ f.objects, o.relations.Pairwise fun q r => q.name ≠ r.name := by
  have hother : f.objects.Pairwise fun o p => ∀ q ∈ o.relations.map (relation o),
      ∀ r ∈ p.relations.map (relation p), Apart q r := by
    refine (List.pairwise_map.mp hf.objects).imp fun hne q hq r hr => ?_
    obtain ⟨_, -, rfl⟩ := List.mem_map.mp hq
    obtain ⟨_, -, rfl⟩ := List.mem_map.mp hr
    exact fun heq => absurd heq hne
  rw [relations, List.pairwise_flatMap, and_iff_left hother]
  simp [List.pairwise_map, relation, Apart]

end Sound

section Faults

-- What is asked of each relation and of those before it is asked of each and of each two.
theorem not_isFaulty_iff {rs : List RelationDecl} :
    (∀ before r after, rs = before ++ r :: after → ¬r.IsFaulty before) ↔
      (∀ r ∈ rs, IsProper (relation o r)) ∧ rs.Pairwise fun q r => q.name ≠ r.name := by
  have hsound before r : ¬RelationDecl.IsFaulty before r ↔
      IsProper (relation o r) ∧ ∀ q ∈ before, q.name ≠ r.name := by
    simp [RelationDecl.IsFaulty, IsProper, relation, and_assoc]
  simp only [hsound]
  constructor
  · intro h
    refine ⟨fun r hr => ?_, ?_⟩
    · obtain ⟨before, after, heq⟩ := List.append_of_mem hr
      exact (h before r after heq).1
    · induction rs using List.reverseRecOn with
      | nil => exact .nil
      | append_singleton rs r ih =>
        refine List.pairwise_append.mpr ⟨ih fun before q after heq => ?_,
          List.pairwise_singleton _ _, fun q hq p hp => ?_⟩
        · exact h before q (after ++ [r]) (by simp [heq])
        · exact List.mem_singleton.mp hp ▸ (h rs r [] rfl).2 q hq
  · rintro ⟨hproper, hpair⟩ before r after rfl
    exact ⟨hproper r (by simp), fun q hq =>
      (List.pairwise_append.mp hpair).2.2 q hq r List.mem_cons_self⟩

theorem IsSound.exists_schema_iff (hf : f.IsSound) : (∃ s, f.schema = .ok s) ↔
    ∀ o ∈ f.objects, ∀ before r after, o.relations = before ++ r :: after →
      ¬r.IsFaulty before := by
  obtain ⟨s, -, hrest, hnone⟩ := hf.exists_bound
  have hproper : (∀ r ∈ f.relations, IsProper r) ↔
      ∀ o ∈ f.objects, ∀ r ∈ o.relations, IsProper (relation o r) := by
    simp only [relations, List.mem_flatMap, List.mem_map]
    grind
  rw [hrest, Schema.exists_relations_iff (hnone ▸ .nil), hnone, List.nil_append,
    hf.pairwise_relations, hproper, ← forall₂_and]
  exact forall₂_congr fun o _ => not_isFaulty_iff.symm

-- A schema that is built answers as the document says.
theorem IsSound.column_eq (hf : f.IsSound) (hs : f.schema = .ok s) (ho : o ∈ f.objects) :
    s.table o.name = .ok o.table ∧ ∀ t ∈ f.tables, t.name = o.table → ∀ c ∈ t.columns,
      s.column o.name c.name = .ok ⟨c.name, c.type, c.nullable⟩ := by
  rw [schema_eq] at hs
  have hrecorded := Schema.isRecorded_of_run hf.pairwise_calls hs
  have hbound : s.table o.name = .ok o.table :=
    hrecorded (.bind o.name o.table) (by simp [calls, bindings]; grind)
  refine ⟨hbound, fun t ht hname c hc => ?_⟩
  have hcolumn : s.resolvedColumn t.name c.name = ⟨c.name, c.type, c.nullable⟩ :=
    hrecorded (.describe t.name c.name c.type c.nullable) (by simp [calls, descriptions]; grind)
  have hfind := hf.findTable? (Schema.tables_of_run hs) ht
  have hexact : Schema.columnName? ⟨t.name, t.columns.map (·.name)⟩ c.name = some c.name := by
    have hmem : (t.columns.map (·.name)).contains c.name = true := by simpa using ⟨c, hc, rfl⟩
    rw [Schema.columnName?, if_pos hmem]
  rw [Schema.column, hbound, ← hname]
  simp only [Bind.bind, Except.bind, hfind, Option.bind_some, hexact, hcolumn]
  rfl

end Faults

theorem schema_of_checked (h : f.checked = .ok f) :
    ((∃ e, f.schema = .error e) ↔ ∃ o ∈ f.objects, ∃ before r after,
      o.relations = before ++ r :: after ∧ r.IsFaulty before) ∧
    (∃ s, (f.descriptions ++ f.bindings).foldlM Schema.apply f.unbound = .ok s ∧
      f.schema = (f.relations.map .relate).foldlM Schema.apply s) ∧
    ∀ s, f.schema = .ok s → ∀ o ∈ f.objects, s.table o.name = .ok o.table ∧
      (∃ t ∈ f.tables, t.name = o.table) ∧ ∀ t ∈ f.tables, t.name = o.table →
        ∀ c ∈ t.columns, s.column o.name c.name = .ok ⟨c.name, c.type, c.nullable⟩ := by
  have hf := isSound_of_checked h
  refine ⟨?_, ?_, ?_⟩
  · have hfails : (∃ e, f.schema = .error e) ↔ ¬∃ s, f.schema = .ok s := by
      cases f.schema <;> simp
    rw [hfails, hf.exists_schema_iff]
    push Not
    rfl
  · obtain ⟨s, hrun, hrest, -⟩ := hf.exists_bound
    exact ⟨s, hrun, hrest⟩
  · intro s hs o ho
    obtain ⟨htable, hcolumns⟩ := hf.column_eq hs ho
    exact ⟨htable, (hf.bound o ho).2, hcolumns⟩

-- People with a superior, who is one of them.
def staff (rs : List RelationDecl) : SchemaFile :=
  { tables := [⟨"people", [⟨"id", "int", false⟩, ⟨"boss_id", "int", true⟩]⟩]
    objects := [⟨"Person", "people", rs⟩] }

def boss : RelationDecl := ⟨"boss", "Person", ["boss_id"], ["id"]⟩

theorem schema_of_checked_staff :
    ((staff [boss, boss]).checked = .ok (staff [boss, boss]) ∧
      ∃ e, (staff [boss, boss]).schema = .error e) ∧
    (staff [boss]).checked = .ok (staff [boss]) ∧
      ∃ s, (staff [boss]).schema = .ok s ∧
        s.column "Person" "boss_id" = .ok ⟨"boss_id", "int", true⟩ := by
  have htwice : (staff [boss, boss]).checked = .ok (staff [boss, boss]) :=
    checked_ok_iff.mpr ⟨by decide +kernel, rfl⟩
  have honce : (staff [boss]).checked = .ok (staff [boss]) :=
    checked_ok_iff.mpr ⟨by decide +kernel, rfl⟩
  refine ⟨⟨htwice, (schema_of_checked htwice).1.mpr ?_⟩, honce, ?_⟩
  · exact ⟨_, List.mem_cons_self, [boss], boss, [], rfl, .inr (.inr ⟨boss, by simp, rfl⟩)⟩
  · have hbuilt : (staff [boss]).schema.toOption.isSome = true := by decide +kernel
    cases hs : (staff [boss]).schema with
    | error e => simp [hs, Except.toOption] at hbuilt
    | ok s =>
      obtain ⟨-, -, hcolumn⟩ := (schema_of_checked honce).2.2 s hs _ List.mem_cons_self
      exact ⟨s, rfl, hcolumn _ List.mem_cons_self rfl ⟨"boss_id", "int", true⟩ (by simp)⟩

end SchemaFile
end QueryTree
