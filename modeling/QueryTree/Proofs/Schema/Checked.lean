import Mathlib.Data.List.Nodup
import QueryTree.Schema.File

namespace QueryTree.SchemaFile

-- Names that come once and are not among those seen before.
def AreNew (seen names : List String) : Prop := names.Nodup ∧ ∀ n ∈ names, n ∉ seen

theorem areNew_nil (seen : List String) : AreNew seen [] := by simp [AreNew]

theorem AreNew.cons {seen names : List String} {n : String} (hn : n ∉ seen)
    (h : AreNew (n :: seen) names) : AreNew seen (n :: names) := by
  have hfirst : n ∉ names := fun hmem => h.2 n hmem List.mem_cons_self
  refine ⟨List.nodup_cons.mpr ⟨hfirst, h.1⟩, List.forall_mem_cons.mpr ⟨hn, ?_⟩⟩
  exact fun m hm hseen => h.2 m hm (List.mem_cons_of_mem n hseen)

theorem areNew_of_columnFaults {table : String} {seen : List String} {cs : List ColumnDecl}
    (h : columnFaults table seen cs = []) :
    AreNew seen (cs.map (·.name)) ∧ ∀ c ∈ cs, c.name ≠ "" := by
  induction cs generalizing seen with
  | nil => exact ⟨areNew_nil seen, by simp⟩
  | cons c cs ih =>
    by_cases hname : c.name = ""
    · simp [columnFaults, hname] at h
    by_cases hseen : c.name ∈ seen
    · simp [columnFaults, hname, hseen] at h
    simp only [columnFaults, String.isEmpty_iff, hname, List.contains_eq_mem, hseen, if_false,
      decide_false, Bool.false_eq_true, List.nil_append] at h
    obtain ⟨hnew, hnamed⟩ := ih h
    exact ⟨.cons hseen hnew, List.forall_mem_cons.mpr ⟨hname, hnamed⟩⟩

theorem areNew_of_tableFaults {seen : List String} {ts : List TableDecl}
    (h : tableFaults seen ts = []) :
    AreNew seen (ts.map (·.name)) ∧
      ∀ t ∈ ts, t.name ≠ "" ∧ columnFaults t.name [] t.columns = [] := by
  induction ts generalizing seen with
  | nil => exact ⟨areNew_nil seen, by simp⟩
  | cons t ts ih =>
    by_cases hname : t.name = ""
    · simp [tableFaults, hname] at h
    by_cases hseen : t.name ∈ seen
    · simp [tableFaults, hname, hseen] at h
    simp only [tableFaults, String.isEmpty_iff, hname, List.contains_eq_mem, hseen, if_false,
      decide_false, Bool.false_eq_true, List.nil_append, List.append_eq_nil_iff] at h
    obtain ⟨hnew, hrest⟩ := ih h.2
    exact ⟨.cons hseen hnew, List.forall_mem_cons.mpr ⟨⟨hname, h.1⟩, hrest⟩⟩

theorem areNew_of_objectFaults {tables seen : List String} {os : List ObjectDecl}
    (h : objectFaults tables seen os = []) :
    AreNew seen (os.map (·.name)) ∧
      ∀ o ∈ os, Text.isIdentifier o.name = true ∧ o.table ∈ tables := by
  induction os generalizing seen with
  | nil => exact ⟨areNew_nil seen, by simp⟩
  | cons o os ih =>
    by_cases hname : Text.isIdentifier o.name = true
    · by_cases hseen : o.name ∈ seen
      · simp [objectFaults, checkIdentifier, hname, hseen] at h
      by_cases htable : o.table ∈ tables
      · simp only [objectFaults, checkIdentifier, hname, List.contains_eq_mem, hseen, htable,
          if_true, if_false, decide_true, decide_false, Bool.false_eq_true, List.nil_append] at h
        obtain ⟨hnew, hrest⟩ := ih h
        exact ⟨.cons hseen hnew, List.forall_mem_cons.mpr ⟨⟨hname, htable⟩, hrest⟩⟩
      · simp [objectFaults, checkIdentifier, hname, htable] at h
    · simp [objectFaults, checkIdentifier, hname] at h

-- What a document without faults declares.
structure IsSound (f : SchemaFile) : Prop where
  tables : (f.tables.map (·.name)).Nodup
  named : ∀ t ∈ f.tables, t.name ≠ "" ∧ ∀ c ∈ t.columns, c.name ≠ ""
  columns : ∀ t ∈ f.tables, (t.columns.map (·.name)).Nodup
  objects : (f.objects.map (·.name)).Nodup
  bound : ∀ o ∈ f.objects, Text.isIdentifier o.name = true ∧ ∃ t ∈ f.tables, t.name = o.table
  targets : ∀ o ∈ f.objects, ∀ r ∈ o.relations, ∃ p ∈ f.objects, p.name = r.target

theorem isSound_of_faults {f : SchemaFile} (h : f.faults = []) : f.IsSound := by
  simp only [faults, List.append_eq_nil_iff] at h
  obtain ⟨⟨htables, hobjects⟩, hrelations⟩ := h
  obtain ⟨htables, htable⟩ := areNew_of_tableFaults htables
  obtain ⟨hobjects, hobject⟩ := areNew_of_objectFaults hobjects
  have hcolumn t (ht : t ∈ f.tables) := areNew_of_columnFaults (htable t ht).2
  refine ⟨htables.1, fun t ht => ⟨(htable t ht).1, (hcolumn t ht).2⟩,
    fun t ht => (hcolumn t ht).1.1, hobjects.1, fun o ho => ⟨(hobject o ho).1, ?_⟩,
    fun o ho r hr => ?_⟩
  · obtain ⟨t, ht, hname⟩ := List.mem_map.mp (List.mem_of_mem_filter (hobject o ho).2)
    exact ⟨t, ht, hname⟩
  · have hfaults := List.flatMap_eq_nil_iff.mp hrelations o ho
    simp only [relationFaults, List.map_eq_nil_iff, List.filter_eq_nil_iff] at hfaults
    have htarget : r.target ∈ f.objectNames := by simpa using hfaults r hr
    obtain ⟨p, hp, hname⟩ := List.mem_map.mp (List.mem_of_mem_filter htarget)
    exact ⟨p, hp, hname⟩

theorem checked_ok_iff {f g : SchemaFile} : f.checked = .ok g ↔ f.faults = [] ∧ f = g := by
  cases h : f.faults <;> simp [checked, h]

theorem isSound_of_checked {f g : SchemaFile} (h : f.checked = .ok g) : g.IsSound := by
  obtain ⟨hfaults, rfl⟩ := checked_ok_iff.mp h
  exact isSound_of_faults hfaults

theorem find?_name {α : Type} {name : α → String} {xs : List α} (h : (xs.map name).Nodup) {x : α}
    (hx : x ∈ xs) : xs.find? (name · == name x) = some x := by
  obtain ⟨y, hy⟩ : ∃ y, xs.find? (name · == name x) = some y :=
    Option.isSome_iff_exists.mp (List.find?_isSome.mpr ⟨x, hx, by simp⟩)
  have hname : name y = name x := by simpa using List.find?_some hy
  rw [hy, List.inj_on_of_nodup_map h (List.mem_of_find?_eq_some hy) hx hname]

theorem IsSound.table_eq {f : SchemaFile} (hf : f.IsSound) {o : ObjectDecl} (ho : o ∈ f.objects) :
    ∃ t ∈ f.tables, t.name = o.table ∧ f.table o.name = .ok (t, o) := by
  obtain ⟨t, ht, hname⟩ := (hf.bound o ho).2
  have htable : f.tables.find? (·.name == o.table) = some t := hname ▸ find?_name hf.tables ht
  exact ⟨t, ht, hname, by simp only [table, find?_name hf.objects ho, htable]⟩

end QueryTree.SchemaFile
