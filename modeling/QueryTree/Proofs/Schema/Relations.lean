import Mathlib.Data.List.Nodup
import QueryTree.Schema.Basic

namespace QueryTree.Schema

-- A call that may change a schema.
inductive Change where
  | bind (object table : String)
  | describe (table name type : String) (nullable : Bool)
  | relate (r : Relation)

def apply (s : Schema) : Change → Except Error Schema
  | .bind object table => s.bind object table
  | .describe table name type nullable => s.describe table name type nullable
  | .relate r => s.relate r

-- A call that fails leaves the schema as it was.
def step (s : Schema) (c : Change) : Schema := (s.apply c).toOption.getD s

def run (s : Schema) (cs : List Change) : Schema := cs.foldl step s

section Calls

-- Two relations that one schema can have.
def Apart (q r : Relation) : Prop := q.object = r.object → q.name ≠ r.name

-- What a relation has to be, whatever other relations there are.
def IsProper (r : Relation) : Prop :=
  Text.isIdentifier r.name = true ∧ r.localKeys ≠ [] ∧ r.localKeys.length = r.remoteKeys.length

-- What a call asks of the schema, and what it makes of it.
def Change.IsAllowed (s : Schema) : Change → Prop
  | .bind object table => Text.isIdentifier object = true ∧ ∃ t, s.findTable? table = some t
  | .describe table name _ _ => ∃ t, s.findTable? table = some t ∧ name ∈ t.columns
  | .relate r => IsProper r ∧ ∀ q ∈ s.relations, Apart q r

def Change.update (s : Schema) : Change → Schema
  | .bind object table =>
    { s with bindings := (object, table) :: s.bindings.filter (·.1 != object) }
  | .describe table name type nullable =>
    { s with infos := ⟨table, name, type, nullable⟩ :: s.infos }
  | .relate r => { s with relations := s.relations ++ [r] }

variable {s s' : Schema}

theorem apply_ok_iff {c : Change} : s.apply c = .ok s' ↔ c.IsAllowed s ∧ s' = c.update s := by
  cases c with
  | bind object table =>
    simp only [apply, bind, checkIdentifier, Change.IsAllowed, Change.update]
    by_cases hname : Text.isIdentifier object = true
    · cases htable : s.findTable? table <;>
        simp [hname, Bind.bind, Except.bind, pure, Except.pure, eq_comm]
    · simp [hname, Bind.bind, Except.bind]
  | describe table name type nullable =>
    simp only [apply, describe, Change.IsAllowed, Change.update]
    cases htable : s.findTable? table with
    | none => simp
    | some t => by_cases hmem : name ∈ t.columns <;> simp [hmem, eq_comm]
  | relate r =>
    have hpaired : (r.localKeys.isEmpty || r.localKeys.length != r.remoteKeys.length) = false ↔
        r.localKeys ≠ [] ∧ r.localKeys.length = r.remoteKeys.length := by
      simp
    have hnew : (s.relations.any fun q => q.object == r.object && q.name == r.name) = false ↔
        ∀ q ∈ s.relations, Apart q r := by
      simp [Apart]
    simp only [apply, relate, checkIdentifier, Change.IsAllowed, Change.update, IsProper,
      ← hpaired, ← hnew]
    cases Text.isIdentifier r.name <;>
      cases r.localKeys.isEmpty || r.localKeys.length != r.remoteKeys.length <;>
      cases s.relations.any fun q => q.object == r.object && q.name == r.name <;>
      simp [Bind.bind, Except.bind, pure, Except.pure, eq_comm]

end Calls

section Names

-- Relations of one object have different names.
def HasUniqueNames (s : Schema) : Prop := ∀ object, ((s.relationsOf object).map (·.name)).Nodup

theorem HasUniqueNames.relate {s : Schema} {r : Relation} (hs : s.HasUniqueNames)
    (hnew : ∀ q ∈ s.relations, Apart q r) : HasUniqueNames ((Change.relate r).update s) := by
  intro object
  rw [Change.update, relationsOf, List.filter_append]
  by_cases hobject : r.object = object
  · have hlast : [r].filter (·.object == object) = [r] := by simp [hobject]
    rw [hlast, List.map_append, List.map_singleton, List.nodup_append]
    refine ⟨hs object, List.nodup_singleton _, ?_⟩
    intro n hn m hm
    obtain ⟨q, hq, rfl⟩ := List.mem_map.mp hn
    obtain ⟨hmem, hsame⟩ := List.mem_filter.mp hq
    rw [List.mem_singleton.mp hm]
    exact hnew q hmem (hobject ▸ eq_of_beq hsame)
  · have hlast : [r].filter (·.object == object) = [] := by simp [hobject]
    rw [hlast, List.append_nil]
    exact hs object

theorem HasUniqueNames.step {s : Schema} (hs : s.HasUniqueNames) (c : Change) :
    (s.step c).HasUniqueNames := by
  cases happly : s.apply c with
  | error e => simpa [Schema.step, happly, Except.toOption] using hs
  | ok s' =>
    obtain ⟨hallowed, rfl⟩ := apply_ok_iff.mp happly
    have hstep : s.step c = c.update s := by simp [Schema.step, happly, Except.toOption]
    rw [hstep]
    cases c with
    | bind | describe => exact hs
    | relate r => exact hs.relate hallowed.2

theorem HasUniqueNames.run {s : Schema} (hs : s.HasUniqueNames) (cs : List Change) :
    (s.run cs).HasUniqueNames := by
  induction cs generalizing s with
  | nil => exact hs
  | cons c cs ih => exact ih (hs.step c)

theorem hasUniqueNames_ofTables (tables : List Table) : (ofTables tables).HasUniqueNames :=
  fun _ => List.nodup_nil

-- Schemas that come about by calls on new ones.
def IsReachable (s : Schema) : Prop := ∃ tables changes, s = (ofTables tables).run changes

theorem IsReachable.hasUniqueNames {s : Schema} (hs : s.IsReachable) : s.HasUniqueNames := by
  obtain ⟨tables, changes, rfl⟩ := hs
  exact (hasUniqueNames_ofTables tables).run changes

end Names

section Lookup

variable {own own' : List Relation} {name : String}

theorem matching_of_named {r : Relation} (hown : (own.map (·.name)).Nodup) (hr : r ∈ own)
    (found : List Relation) : matching r.name found own = [r] := by
  induction own generalizing found with
  | nil => cases hr
  | cons q own ih =>
    rw [List.map_cons, List.nodup_cons] at hown
    rw [matching]
    by_cases hname : q.name = r.name
    · have hnot : r ∉ own := fun hmem => hown.1 (hname ▸ List.mem_map_of_mem hmem)
      have hqr : r = q := (List.mem_cons.mp hr).resolve_right hnot
      rw [if_pos (beq_iff_eq.mpr hname), hqr]
    · have hmem : r ∈ own := (List.mem_cons.mp hr).resolve_left fun h => hname (h ▸ rfl)
      rw [if_neg (fun h => hname (beq_iff_eq.mp h))]
      exact ih hown.2 hmem _

theorem matching_of_unnamed (h : ∀ r ∈ own, r.name ≠ name) (found : List Relation) :
    matching name found own = found ++ own.filter (·.target == name) := by
  induction own generalizing found with
  | nil => simp [matching]
  | cons r own ih =>
    obtain ⟨hr, hown⟩ := List.forall_mem_cons.mp h
    rw [matching, if_neg (fun heq => hr (beq_iff_eq.mp heq)), ih hown]
    by_cases htarget : r.target = name
    · simp [htarget]
    · simp [htarget]

theorem matching_perm (hperm : own'.Perm own) (hown : (own.map (·.name)).Nodup) :
    (matching name [] own').Perm (matching name [] own) := by
  by_cases hnamed : ∃ r ∈ own, r.name = name
  · obtain ⟨r, hr, rfl⟩ := hnamed
    have hown' : (own'.map (·.name)).Nodup := (hperm.map _).nodup_iff.mpr hown
    rw [matching_of_named hown hr, matching_of_named hown' (hperm.mem_iff.mpr hr)]
  · have hnone : ∀ r ∈ own, r.name ≠ name := fun r hr heq => hnamed ⟨r, hr, heq⟩
    have hnone' : ∀ r ∈ own', r.name ≠ name := fun r hr => hnone r (hperm.mem_iff.mp hr)
    rw [matching_of_unnamed hnone, matching_of_unnamed hnone']
    exact hperm.filter _

def joinOf (r : Relation) (table : String) : Join := ⟨r.target, table, r.localKeys, r.remoteKeys⟩

theorem relation_of_matching {s : Schema} {object : String} {r : Relation} {table : String}
    (h : matching name [] (s.relationsOf object) = [r]) (htable : s.table r.target = .ok table) :
    s.relation object name = .ok (joinOf r table) := by
  rw [relation, h]
  simp [htable, Bind.bind, Except.bind, pure, Except.pure, joinOf]

theorem relation_ok_iff {s : Schema} {object : String} {j : Join} :
    s.relation object name = .ok j ↔ ∃ r t, matching name [] (s.relationsOf object) = [r] ∧
      s.table r.target = .ok t ∧ j = joinOf r t := by
  constructor
  · intro h
    rw [relation] at h
    split at h
    case h_1 r hr =>
      cases ht : s.table r.target with
      | error e => simp [ht, Bind.bind, Except.bind] at h
      | ok t =>
        refine ⟨r, t, hr, ht, ?_⟩
        simpa [ht, Bind.bind, Except.bind, pure, Except.pure, joinOf, eq_comm] using h
    case h_2 => cases h
  · rintro ⟨r, t, hr, ht, rfl⟩
    exact relation_of_matching hr ht

theorem relation_of_length_ne {s : Schema} {object : String} {rs : List Relation}
    (h : matching name [] (s.relationsOf object) = rs) (hlength : rs.length ≠ 1) :
    s.relation object name = .error (.relation object name (rs.map (·.name))) := by
  rw [relation, h]
  split
  · exact absurd rfl hlength
  · rfl

-- What a name means among the relations of an object. Nothing here depends on their order.
inductive Answer (s : Schema) (object name : String) (own : List Relation) :
    Except Error Join → Prop where
  -- The relation of that name.
  | named (r : Relation) (table : String) (hr : r ∈ own) (hname : r.name = name)
      (htable : s.table r.target = .ok table) : Answer s object name own (.ok (joinOf r table))
  -- Else the only relation to the object of that name.
  | targeted (r : Relation) (table : String) (hnone : ∀ q ∈ own, q.name ≠ name) (hr : r ∈ own)
      (htarget : r.target = name) (honly : ∀ q ∈ own, q.target = name → q = r)
      (htable : s.table r.target = .ok table) : Answer s object name own (.ok (joinOf r table))
  -- Several such relations are all named, each once.
  | ambiguous (names : List String) (hnone : ∀ q ∈ own, q.name ≠ name)
      (hlength : 2 ≤ names.length) (hnodup : names.Nodup)
      (hnames : ∀ n, n ∈ names ↔ ∃ q ∈ own, q.target = name ∧ q.name = n)
      (hclass : (Error.relation object name names).classes = [.ambiguousRelation]) :
      Answer s object name own (.error (.relation object name names))
  | undefined (hnone : ∀ q ∈ own, q.name ≠ name ∧ q.target ≠ name)
      (hclass : (Error.relation object name []).classes = [.undefinedRelation]) :
      Answer s object name own (.error (.relation object name []))

theorem answer_relation {s : Schema} {object : String} (name : String)
    (hnames : ((s.relationsOf object).map (·.name)).Nodup)
    (hbound : ∀ r ∈ s.relationsOf object, ∃ t, s.table r.target = .ok t) :
    Answer s object name (s.relationsOf object) (s.relation object name) := by
  by_cases hnamed : ∃ r ∈ s.relationsOf object, r.name = name
  · obtain ⟨r, hr, rfl⟩ := hnamed
    obtain ⟨t, ht⟩ := hbound r hr
    rw [relation_of_matching (matching_of_named hnames hr []) ht]
    exact .named r t hr rfl ht
  · have hnone : ∀ q ∈ s.relationsOf object, q.name ≠ name :=
      fun q hq heq => hnamed ⟨q, hq, heq⟩
    have hmatching := matching_of_unnamed hnone []
    rw [List.nil_append] at hmatching
    have hmem : ∀ q, q ∈ (s.relationsOf object).filter (·.target == name) ↔
        q ∈ s.relationsOf object ∧ q.target = name := by
      intro q
      rw [List.mem_filter, beq_iff_eq]
    rcases hfound : (s.relationsOf object).filter (·.target == name) with _ | ⟨r, _ | ⟨q, rest⟩⟩
    case nil =>
      rw [hfound] at hmatching hmem
      rw [relation_of_length_ne hmatching (by decide)]
      refine .undefined (fun q hq => ⟨hnone q hq, fun htarget => ?_⟩) rfl
      exact absurd ((hmem q).mpr ⟨hq, htarget⟩) List.not_mem_nil
    case cons.nil =>
      rw [hfound] at hmatching hmem
      obtain ⟨hr, htarget⟩ := (hmem r).mp List.mem_cons_self
      obtain ⟨t, ht⟩ := hbound r hr
      rw [relation_of_matching hmatching ht]
      refine .targeted r t hnone hr htarget (fun q hq heq => ?_) ht
      exact List.mem_singleton.mp ((hmem q).mpr ⟨hq, heq⟩)
    case cons.cons =>
      have hsub : (r :: q :: rest).Sublist (s.relationsOf object) :=
        hfound ▸ List.filter_sublist
      rw [hfound] at hmatching hmem
      rw [relation_of_length_ne hmatching (by simp)]
      refine .ambiguous _ hnone (by simp) (hnames.sublist (hsub.map _)) (fun n => ?_) ?_
      · rw [List.mem_map]
        constructor
        · rintro ⟨p, hp, rfl⟩
          exact ⟨p, ((hmem p).mp hp).1, ((hmem p).mp hp).2, rfl⟩
        · rintro ⟨p, hp, htarget, rfl⟩
          exact ⟨p, (hmem p).mpr ⟨hp, htarget⟩, rfl⟩
      · simp [Error.classes]

-- An answer is the same for any order of the relations.
theorem Answer.of_perm {s s' : Schema} {object : String} {x : Except Error Join}
    (h : Answer s' object name own' x) (hperm : own'.Perm own)
    (htable : ∀ o, s'.table o = s.table o) : Answer s object name own x := by
  have hmem : ∀ q, q ∈ own ↔ q ∈ own' := fun q => hperm.mem_iff.symm
  cases h with
  | named r t hr hname ht => exact .named r t ((hmem r).mpr hr) hname (htable _ ▸ ht)
  | targeted r t hnone hr htarget honly ht =>
    exact .targeted r t (fun q hq => hnone q ((hmem q).mp hq)) ((hmem r).mpr hr) htarget
      (fun q hq => honly q ((hmem q).mp hq)) (htable _ ▸ ht)
  | ambiguous names hnone hlength hnodup hnames hclass =>
    refine .ambiguous names (fun q hq => hnone q ((hmem q).mp hq)) hlength hnodup (fun n => ?_)
      hclass
    simp only [hnames, hmem]
  | undefined hnone hclass => exact .undefined (fun q hq => hnone q ((hmem q).mp hq)) hclass

end Lookup

-- After any calls, and with the relations of an object in any order, the relations of the object
-- have different names and a name is answered by what it means among them; a join is found in one
-- order exactly if it is found in the other.
theorem relation_order_free {s s' : Schema} (hs : s.IsReachable) (object name : String)
    (hperm : (s'.relationsOf object).Perm (s.relationsOf object))
    (hbindings : s'.bindings = s.bindings)
    (hbound : ∀ r ∈ s.relationsOf object, ∃ t, s.table r.target = .ok t) :
    ((s.relationsOf object).map (·.name)).Nodup ∧
      Answer s object name (s.relationsOf object) (s'.relation object name) ∧
      ∀ j, s'.relation object name = .ok j ↔ s.relation object name = .ok j := by
  have hnames := hs.hasUniqueNames object
  have hnames' : ((s'.relationsOf object).map (·.name)).Nodup := (hperm.map _).nodup_iff.mpr hnames
  have htable : ∀ o, s'.table o = s.table o := by
    intro o
    rw [table, table, hbindings]
  have hbound' : ∀ r ∈ s'.relationsOf object, ∃ t, s'.table r.target = .ok t := by
    intro r hr
    rw [htable]
    exact hbound r (hperm.mem_iff.mp hr)
  refine ⟨hnames, (answer_relation name hnames' hbound').of_perm hperm htable, fun j => ?_⟩
  have hmatching : (matching name [] (s'.relationsOf object)).Perm
      (matching name [] (s.relationsOf object)) := matching_perm hperm hnames
  simp only [relation_ok_iff, htable]
  constructor
  · rintro ⟨r, t, hr, ht⟩
    exact ⟨r, t, List.perm_singleton.mp (hr ▸ hmatching).symm, ht⟩
  · rintro ⟨r, t, hr, ht⟩
    exact ⟨r, t, List.perm_singleton.mp (hr ▸ hmatching), ht⟩

-- Two relations lead to the object that a third one is named after, and a fourth call is refused.
-- Declared the other way round, the names still mean the same.
theorem relation_order_free_crossed :
    let key : List String := ["id"]
    let changes : List Change :=
      [.bind "User" "users", .bind "Order" "orders",
       .relate ⟨"User", "Buyer", "Order", key, key⟩, .relate ⟨"User", "Order", "User", key, key⟩,
       .relate ⟨"User", "Buyer", "User", key, key⟩, .relate ⟨"User", "Seller", "Order", key, key⟩]
    let s := (ofTables [⟨"users", ["id"]⟩, ⟨"orders", ["id"]⟩]).run changes
    let s' : Schema := { s with relations := s.relations.reverse }
    s.IsReachable ∧ (s'.relationsOf "User").Perm (s.relationsOf "User") ∧
      (s'.relation "User" "Order").toOption = some ⟨"User", "users", key, key⟩ ∧
      ∀ name, Answer s "User" name (s.relationsOf "User") (s'.relation "User" name) := by
  intro key changes s s'
  have hs : s.IsReachable := ⟨_, changes, rfl⟩
  have hperm : (s'.relationsOf "User").Perm (s.relationsOf "User") := by
    rw [relationsOf, List.filter_reverse]
    exact List.reverse_perm _
  have hbound : ∀ r ∈ s.relationsOf "User", ∃ t, s.table r.target = .ok t := by
    have hall : ∀ r ∈ s.relationsOf "User", (s.table r.target).toOption.isSome = true := by
      decide +kernel
    intro r hr
    cases ht : s.table r.target with
    | error e => exact absurd (hall r hr) (by simp [ht, Except.toOption])
    | ok t => exact ⟨t, rfl⟩
  refine ⟨hs, hperm, by decide +kernel, fun name => ?_⟩
  exact (relation_order_free hs "User" name hperm rfl hbound).2.1

end QueryTree.Schema
