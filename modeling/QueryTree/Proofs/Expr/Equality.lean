import Mathlib.Data.List.Forall2
import QueryTree.Expr.Equal
import QueryTree.Proofs.Expr.Induction
import QueryTree.Proofs.Value.Equality

namespace QueryTree

namespace Query

def hollow : Query → Query
  | .rows object => .rows object
  | .filter q _ => .filter q.hollow .null
  | .group q keys => .group q.hollow (keys.map fun _ => .null)
  | .having q _ => .having q.hollow .null
  | .order q keys => .order q.hollow (keys.map fun k => ⟨.null, k.ascending⟩)
  | .window q offset limit => .window q.hollow offset limit
  | .select q columns => .select q.hollow (columns.map fun c => ⟨.null, c.label⟩)

theorem hollow_eq (q : Query) : q.hollow = q.mapParts fun _ => .null := by
  induction q with
  | rows object => rfl
  | filter q p ih | group q keys ih | having q p ih | order q keys ih | window q offset limit ih
  | select q columns ih => rw [hollow, mapParts, ih]

end Query

namespace Expr

-- A node without its parts. Literals stand in the form that equality compares, and how many
-- children a set of predicates has does not count.
def hollow : Expr → Expr
  | .value v const => .value v.normalize.steadied (v.isNull || const)
  | .property owner name => .property owner name
  | .unary op _ => .unary op .null
  | .compare op _ _ => .compare op .null .null
  | .compute op _ _ => .compute op .null .null
  | .call name args => .call name (args.map fun _ => .null)
  | .aggregate name arg distinct => .aggregate name (arg.map fun _ => .null) distinct
  | .set kind items => .set kind (if kind.isLogical then [] else items.map fun _ => .null)
  | .related relation label inner tableArgs =>
    .related relation label (inner.map fun _ => .null) tableArgs
  | .fragment key arg => .fragment key arg.normalize.steadied
  | .query q => .query q.hollow

def isUnordered : Expr → Bool
  | .set kind _ => kind.isLogical
  | _ => false

-- A node that carries no literal but one with a definite canonical form: a number kept as text
-- counts as the number that it spells.
def carriesDefinite : Expr → Bool
  | .value v _ | .fragment _ v => v.normalize.isDefinite
  | _ => true

def isDefinite (e : Expr) : Bool := e.everywhere carriesDefinite

theorem isDefinite_iff (e : Expr) : e.isDefinite = true ↔
    e.carriesDefinite = true ∧ ∀ x ∈ e.parts, x.isDefinite = true :=
  everywhere_iff carriesDefinite e

-- Every member of each list has its like in the other one.
def Covers (R : Expr → Expr → Prop) (as bs : List Expr) : Prop :=
  (∀ a ∈ as, ∃ b ∈ bs, R a b) ∧ ∀ b ∈ bs, ∃ a ∈ as, R a b

-- Equal expressions that the index of a set can find.
def Found (a b : Expr) : Prop := a.hash = b.hash ∧ a.same b = true

def Match (a b : Expr) : Prop :=
  if a.isUnordered then Covers Found a.parts b.parts
  else List.Forall₂ (fun x y => x.same y = true) a.parts b.parts

section Spec

theorem sameAll_iff (as bs : List Expr) :
    sameAll as bs = true ↔ as.map (fun _ => null) = bs.map (fun _ => null) ∧
      List.Forall₂ (fun x y => x.same y = true) as bs := by
  induction as generalizing bs with
  | nil => cases bs <;> simp [sameAll]
  | cons a as ih =>
    cases bs with
    | nil => simp [sameAll]
    | cons b bs =>
      simp only [sameAll, Bool.and_eq_true, ih, List.map_cons, List.cons.injEq, true_and,
        List.forall₂_cons]
      tauto

theorem sameOption_iff (o p : Option Expr) :
    sameOption o p = true ↔ o.map (fun _ => null) = p.map (fun _ => null) ∧
      List.Forall₂ (fun x y => x.same y = true) o.toList p.toList := by
  cases o <;> cases p <;> simp [sameOption]

theorem sameKeys_iff (as bs : List (SortKey Expr)) :
    sameKeys as bs = true ↔
      as.map (fun k => SortKey.mk null k.ascending) = bs.map (fun k => ⟨null, k.ascending⟩) ∧
      List.Forall₂ (fun x y => x.same y = true) (as.map (·.expr)) (bs.map (·.expr)) := by
  induction as generalizing bs with
  | nil => cases bs <;> simp [sameKeys]
  | cons a as ih =>
    cases bs with
    | nil => simp [sameKeys]
    | cons b bs =>
      obtain ⟨a, x⟩ := a
      obtain ⟨b, y⟩ := b
      simp only [sameKeys, Bool.and_eq_true, beq_iff_eq, ih, List.map_cons, List.cons.injEq,
        SortKey.mk.injEq, true_and, List.forall₂_cons]
      tauto

theorem sameColumns_iff (as bs : List (Column Expr)) :
    sameColumns as bs = true ↔
      as.map (fun c => Column.mk null c.label) = bs.map (fun c => ⟨null, c.label⟩) ∧
      List.Forall₂ (fun x y => x.same y = true) (as.map (·.expr)) (bs.map (·.expr)) := by
  induction as generalizing bs with
  | nil => cases bs <;> simp [sameColumns]
  | cons a as ih =>
    cases bs with
    | nil => simp [sameColumns]
    | cons b bs =>
      obtain ⟨a, l⟩ := a
      obtain ⟨b, m⟩ := b
      simp only [sameColumns, Bool.and_eq_true, beq_iff_eq, ih, List.map_cons, List.cons.injEq,
        Column.mk.injEq, true_and, List.forall₂_cons]
      tauto

theorem forall₂_append_iff {R : Expr → Expr → Prop} {as bs cs ds : List Expr}
    (h : as.length = bs.length) :
    List.Forall₂ R (as ++ cs) (bs ++ ds) ↔ List.Forall₂ R as bs ∧ List.Forall₂ R cs ds := by
  induction as generalizing bs with
  | nil =>
    obtain rfl : bs = [] := List.length_eq_zero_iff.mp h.symm
    simp
  | cons a as ih =>
    cases bs with
    | nil => simp at h
    | cons b bs =>
      have hlength : as.length = bs.length := by simpa using h
      simp only [List.cons_append, List.forall₂_cons, ih hlength, and_assoc]

theorem length_parts_of_hollow {p q : Query} (h : p.hollow = q.hollow) :
    p.parts.length = q.parts.length := by
  have hparts := congrArg (·.parts.length) h
  simpa [Query.hollow_eq, Query.parts_mapParts] using hparts

theorem stage_iff {R : Expr → Expr → Prop} {p q : Query} {as bs : List Expr} {P : Prop} :
    ((p.hollow = q.hollow ∧ List.Forall₂ R p.parts q.parts) ∧ P ∧ List.Forall₂ R as bs) ↔
      (p.hollow = q.hollow ∧ P) ∧ List.Forall₂ R (p.parts ++ as) (q.parts ++ bs) := by
  by_cases h : p.hollow = q.hollow
  · rw [forall₂_append_iff (length_parts_of_hollow h)]
    tauto
  · tauto

theorem sameQuery_iff (p q : Query) :
    sameQuery p q = true ↔ p.hollow = q.hollow ∧
      List.Forall₂ (fun x y => x.same y = true) p.parts q.parts := by
  induction p generalizing q with
  | rows object => cases q <;> simp [sameQuery, Query.hollow, Query.parts]
  | filter p a ih =>
    cases q with
    | filter q b =>
      rw [Query.hollow, Query.hollow, Query.filter.injEq, Query.parts, Query.parts, ← stage_iff]
      simp [sameQuery, ih]
    | _ => simp [sameQuery, Query.hollow]
  | group p keys ih =>
    cases q with
    | group q keys' =>
      rw [Query.hollow, Query.hollow, Query.group.injEq, Query.parts, Query.parts, ← stage_iff]
      rw [sameQuery, Bool.and_eq_true, ih, sameAll_iff]
    | _ => simp [sameQuery, Query.hollow]
  | having p a ih =>
    cases q with
    | having q b =>
      rw [Query.hollow, Query.hollow, Query.having.injEq, Query.parts, Query.parts, ← stage_iff]
      simp [sameQuery, ih]
    | _ => simp [sameQuery, Query.hollow]
  | order p keys ih =>
    cases q with
    | order q keys' =>
      rw [Query.hollow, Query.hollow, Query.order.injEq, Query.parts, Query.parts, ← stage_iff]
      rw [sameQuery, Bool.and_eq_true, ih, sameKeys_iff]
    | _ => simp [sameQuery, Query.hollow]
  | window p offset limit ih =>
    cases q with
    | window q offset' limit' =>
      simp only [sameQuery, Bool.and_eq_true, beq_iff_eq, ih, Query.hollow, Query.parts,
        Query.window.injEq]
      tauto
    | _ => simp [sameQuery, Query.hollow]
  | select p columns ih =>
    cases q with
    | select q columns' =>
      rw [Query.hollow, Query.hollow, Query.select.injEq, Query.parts, Query.parts, ← stage_iff]
      rw [sameQuery, Bool.and_eq_true, ih, sameColumns_iff]
    | _ => simp [sameQuery, Query.hollow]

theorem sameValue_iff (v w : Value) (c d : Bool) :
    sameValue v c w d = true ↔ (value v c).hollow = (value w d).hollow ∧
      v.normalize.isDefinite = true ∧ w.normalize.isDefinite = true := by
  by_cases hv : v = .null <;> by_cases hw : w = .null
  · subst hv hw
    simp [sameValue, hollow, Value.normalize, Value.isNull, Value.isDefinite]
  · subst hv
    have hnull := Value.steadied_normalize_ne_null hw
    simp [sameValue, hollow, Value.normalize, Value.steadied, Ne.symm hnull]
  · subst hw
    have hnull := Value.steadied_normalize_ne_null hv
    simp [sameValue, hollow, Value.normalize, Value.steadied, hnull]
  · have hnv : v.isNull = false := by cases v <;> simp_all [Value.isNull]
    have hnw : w.isNull = false := by cases w <;> simp_all [Value.isNull]
    have hsame : sameValue v c w d = (c == d && v.same w) := by
      unfold sameValue
      split <;> simp_all
    simp only [hsame, hollow, hnv, hnw, Value.same, Bool.false_or, Bool.and_eq_true, beq_iff_eq,
      Value.deepEq_iff, value.injEq]
    tauto

theorem allWithin_iff (as bs : List Expr) :
    allWithin as bs = true ↔ ∀ a ∈ as, ∃ b ∈ bs, Found a b := by
  induction as with
  | nil => simp [allWithin]
  | cons a as ih =>
    simp only [allWithin, Bool.and_eq_true, List.any_eq_true, beq_iff_eq, ih, List.forall_mem_cons,
      Found, @eq_comm _ a.hash]

theorem within_iff (as : List Expr) (b : Expr) :
    within as b = true ↔ ∃ a ∈ as, Found a b := by
  induction as with
  | nil => simp [within]
  | cons a as ih => simp [within, ih, Found]

theorem sameMembers_iff (as bs : List Expr) :
    (allWithin as bs && bs.all (within as)) = true ↔ Covers Found as bs := by
  simp only [Bool.and_eq_true, allWithin_iff, List.all_eq_true, within_iff, Covers]

-- What equality compares at a node.
theorem same_iff (a b : Expr) :
    a.same b = true ↔ a.hollow = b.hollow ∧ a.carriesDefinite = true ∧ b.carriesDefinite = true ∧
      Match a b := by
  cases a with
  | value v c =>
    cases b with
    | value w d => simp [same, sameValue_iff, Match, isUnordered, parts, carriesDefinite]
    | _ => simp [same, hollow]
  | property o n =>
    cases b with
    | property p m => simp [same, hollow, carriesDefinite, Match, isUnordered, parts]
    | _ => simp [same, hollow]
  | unary op x =>
    cases b with
    | unary oq y => simp [same, hollow, carriesDefinite, Match, isUnordered, parts]
    | _ => simp [same, hollow]
  | compare op l r =>
    cases b with
    | compare oq s t => simp [same, hollow, carriesDefinite, Match, isUnordered, parts, and_assoc]
    | _ => simp [same, hollow]
  | compute op l r =>
    cases b with
    | compute oq s t => simp [same, hollow, carriesDefinite, Match, isUnordered, parts, and_assoc]
    | _ => simp [same, hollow]
  | call n as =>
    cases b with
    | call m bs =>
      simp only [same, hollow, carriesDefinite, Match, isUnordered, parts, Bool.and_eq_true,
        beq_iff_eq, sameAll_iff, call.injEq]
      simp [and_assoc]
    | _ => simp [same, hollow]
  | aggregate n o d =>
    cases b with
    | aggregate m p e =>
      simp only [same, hollow, carriesDefinite, Match, isUnordered, parts, Bool.and_eq_true,
        beq_iff_eq, sameOption_iff, aggregate.injEq]
      tauto
    | _ => simp [same, hollow]
  | set k as =>
    cases b with
    | set l bs =>
      by_cases hkl : k = l
      · subst hkl
        by_cases hk : k.isLogical = true
        · simp [same, hollow, carriesDefinite, Match, isUnordered, parts, hk, ← sameMembers_iff]
        · simp [same, hollow, carriesDefinite, Match, isUnordered, parts, hk, sameAll_iff]
      · simp [same, hollow, hkl]
    | _ => simp [same, hollow]
  | related r l o ts =>
    cases b with
    | related s m p us =>
      simp only [same, hollow, carriesDefinite, Match, isUnordered, parts, Bool.and_eq_true,
        beq_iff_eq, sameOption_iff, related.injEq]
      tauto
    | _ => simp [same, hollow]
  | fragment k v =>
    cases b with
    | fragment l w =>
      simp only [same, hollow, carriesDefinite, Match, isUnordered, parts, Bool.and_eq_true,
        beq_iff_eq, Value.same, Value.deepEq_iff, fragment.injEq, List.forall₂_nil_left_iff]
      tauto
    | _ => simp [same, hollow]
  | query p =>
    cases b with
    | query q => simp [same, hollow, carriesDefinite, Match, isUnordered, parts, sameQuery_iff]
    | _ => simp [same, hollow]

theorem covers_of_forall₂ {R : Expr → Expr → Prop} {as bs : List Expr}
    (h : List.Forall₂ R as bs) : Covers R as bs := by
  induction h with
  | nil => exact ⟨by simp, by simp⟩
  | @cons a b as bs hab _ ih =>
    obtain ⟨hto, hfrom⟩ := ih
    constructor
    · refine List.forall_mem_cons.mpr ⟨⟨b, List.mem_cons_self, hab⟩, fun x hx => ?_⟩
      obtain ⟨y, hy, hxy⟩ := hto x hx
      exact ⟨y, List.mem_cons_of_mem b hy, hxy⟩
    · refine List.forall_mem_cons.mpr ⟨⟨a, List.mem_cons_self, hab⟩, fun y hy => ?_⟩
      obtain ⟨x, hx, hxy⟩ := hfrom y hy
      exact ⟨x, List.mem_cons_of_mem a hx, hxy⟩

theorem match_of_forall₂ {a b : Expr} (h : List.Forall₂ Found a.parts b.parts) : Match a b := by
  unfold Match
  split
  · exact covers_of_forall₂ h
  · exact h.imp fun _ _ hfound => hfound.2

end Spec

section Equivalence

theorem isUnordered_of_hollow {a b : Expr} (h : a.hollow = b.hollow) :
    a.isUnordered = b.isUnordered := by
  cases a with
  | set k as =>
    cases b with
    | set l bs => rw [isUnordered, isUnordered, (set.inj h).1]
    | _ => cases h
  | _ =>
    cases b with
    | set l bs => cases h
    | _ => rfl

theorem same_self {a : Expr} (ha : a.isDefinite = true) : a.same a = true := by
  induction a using ofParts with
  | step a ih =>
    obtain ⟨hnode, hparts⟩ := (isDefinite_iff a).mp ha
    have hself : ∀ x ∈ a.parts, x.same x = true := fun x hx => ih x hx (hparts x hx)
    refine (same_iff a a).mpr ⟨rfl, hnode, hnode, ?_⟩
    unfold Match
    split
    · exact ⟨fun x hx => ⟨x, hx, rfl, hself x hx⟩, fun x hx => ⟨x, hx, rfl, hself x hx⟩⟩
    · exact List.forall₂_same.mpr hself

theorem forall₂_of_mem {R S : Expr → Expr → Prop} {as bs : List Expr}
    (h : ∀ a ∈ as, ∀ b ∈ bs, R a b → S a b) (hR : List.Forall₂ R as bs) :
    List.Forall₂ S as bs := by
  induction hR with
  | nil => exact .nil
  | @cons a b as bs hab _ ih =>
    refine .cons (h a List.mem_cons_self b List.mem_cons_self hab) (ih fun x hx y hy => ?_)
    exact h x (List.mem_cons_of_mem a hx) y (List.mem_cons_of_mem b hy)

theorem forall₂_trans {R : Expr → Expr → Prop} {as bs cs : List Expr}
    (h : ∀ a ∈ as, ∀ {b c}, R a b → R b c → R a c) (hab : List.Forall₂ R as bs)
    (hbc : List.Forall₂ R bs cs) : List.Forall₂ R as cs := by
  induction hab generalizing cs with
  | nil => exact hbc
  | cons hab _ ih =>
    obtain ⟨ha, has⟩ := List.forall_mem_cons.mp h
    cases hbc with
    | cons hbc hrest => exact .cons (ha hab hbc) (ih has hrest)

theorem same_symm {a b : Expr} (h : a.same b = true) : b.same a = true := by
  induction a using ofParts generalizing b with
  | step a ih =>
    obtain ⟨hhollow, ha, hb, hmatch⟩ := (same_iff a b).mp h
    refine (same_iff b a).mpr ⟨hhollow.symm, hb, ha, ?_⟩
    unfold Match at hmatch ⊢
    rw [← isUnordered_of_hollow hhollow]
    split
    · next hset =>
      rw [if_pos hset] at hmatch
      obtain ⟨hto, hfrom⟩ := hmatch
      constructor
      · intro y hy
        obtain ⟨x, hx, hhash, hxy⟩ := hfrom y hy
        exact ⟨x, hx, hhash.symm, ih x hx hxy⟩
      · intro x hx
        obtain ⟨y, hy, hhash, hxy⟩ := hto x hx
        exact ⟨y, hy, hhash.symm, ih x hx hxy⟩
    · next hset =>
      rw [if_neg hset] at hmatch
      exact (forall₂_of_mem (fun x hx y _ => ih x hx) hmatch).flip

theorem same_trans {a b c : Expr} (hab : a.same b = true) (hbc : b.same c = true) :
    a.same c = true := by
  induction a using ofParts generalizing b c with
  | step a ih =>
    obtain ⟨hhollow, ha, hb, hmatch⟩ := (same_iff a b).mp hab
    obtain ⟨hhollow', -, hc, hmatch'⟩ := (same_iff b c).mp hbc
    refine (same_iff a c).mpr ⟨hhollow.trans hhollow', ha, hc, ?_⟩
    unfold Match at hmatch hmatch' ⊢
    rw [← isUnordered_of_hollow hhollow] at hmatch'
    split
    · next hset =>
      rw [if_pos hset] at hmatch hmatch'
      constructor
      · intro x hx
        obtain ⟨y, hy, hhash, hxy⟩ := hmatch.1 x hx
        obtain ⟨z, hz, hhash', hyz⟩ := hmatch'.1 y hy
        exact ⟨z, hz, hhash.trans hhash', ih x hx hxy hyz⟩
      · intro z hz
        obtain ⟨y, hy, hhash', hyz⟩ := hmatch'.2 z hz
        obtain ⟨x, hx, hhash, hxy⟩ := hmatch.2 y hy
        exact ⟨x, hx, hhash.trans hhash', ih x hx hxy hyz⟩
    · next hset =>
      rw [if_neg hset] at hmatch hmatch'
      exact forall₂_trans ih hmatch hmatch'

end Equivalence

end Expr
end QueryTree
