import Mathlib.Logic.Relation
import QueryTree.Proofs.Expr.Hash

namespace QueryTree.Expr

-- One set of predicates somewhere in the expression gets its children in another order or with
-- other repetitions; every node above it is the same one around the part that changes.
inductive Rearranges : Expr → Expr → Prop
  | children {kind : SetKind} {items items' : List Expr} (hkind : kind.isLogical = true)
    (hitems : ∀ x, x ∈ items ↔ x ∈ items') : Rearranges (.set kind items) (.set kind items')
  | inside {a b x y : Expr} {before after : List Expr} (hnode : a.hollow = b.hollow)
    (ha : a.parts = before ++ x :: after) (hb : b.parts = before ++ y :: after)
    (hpart : Rearranges x y) : Rearranges a b

section Invariance

theorem forall₂_around {R : Expr → Expr → Prop} {before after : List Expr} {x y : Expr}
    (hself : ∀ z ∈ before ++ after, R z z) (hxy : R x y) :
    List.Forall₂ R (before ++ x :: after) (before ++ y :: after) := by
  obtain ⟨hbefore, hafter⟩ := List.forall_mem_append.mp hself
  refine (forall₂_append_iff rfl).mpr ⟨List.forall₂_same.mpr hbefore, .cons hxy ?_⟩
  exact List.forall₂_same.mpr hafter

theorem Rearranges.hashesAs {a b : Expr} (h : Rearranges a b) : HashesAs a b := by
  induction h with
  | children hkind hitems =>
    intro state
    rw [hashInto, hashInto]
    simp only [hkind, if_true]
    refine hashMembers_congr (fun x => ?_) _
    simp only [hashes_eq, List.mem_map, hitems]
  | @inside a b x y before after hnode ha hb _ ih =>
    refine hashesAs_of_forall₂ hnode (by cases a <;> simp_all [isLiteral, parts]) ?_
    rw [ha, hb]
    exact forall₂_around (fun z _ state => rfl) ih

theorem Rearranges.same {a b : Expr} (h : Rearranges a b) (ha : a.isDefinite = true) :
    a.same b = true := by
  induction h with
  | @children kind items items' hkind hitems =>
    obtain ⟨-, hparts⟩ := (isDefinite_iff _).mp ha
    have hfound : ∀ x ∈ items, Found x x := fun x hx => ⟨rfl, same_self (hparts x hx)⟩
    refine (same_iff _ _).mpr ⟨by simp [hollow, hkind], rfl, rfl, ?_⟩
    rw [Match, isUnordered, if_pos hkind]
    refine ⟨fun x hx => ⟨x, (hitems x).mp hx, hfound x hx⟩, fun x hx => ?_⟩
    have hx' : x ∈ items := (hitems x).mpr hx
    exact ⟨x, hx', hfound x hx'⟩
  | @inside a b x y before after hnode hparts hparts' hpart ih =>
    obtain ⟨hcarries, hdefinite⟩ := (isDefinite_iff a).mp ha
    rw [hparts] at hdefinite
    have hxy : x.same y = true := ih (hdefinite x (by simp))
    have hself : ∀ z ∈ before ++ after, Found z z := by
      intro z hz
      have hz' : z ∈ before ++ x :: after := by grind
      exact ⟨rfl, same_self (hdefinite z hz')⟩
    have hfound : List.Forall₂ Found a.parts b.parts := by
      rw [hparts, hparts']
      exact forall₂_around hself ⟨hpart.hashesAs _, hxy⟩
    have hb : b.carriesDefinite = true := by
      cases b <;> simp_all [carriesDefinite, parts]
    exact (same_iff a b).mpr ⟨hnode, hcarries, hb, match_of_forall₂ hfound⟩

theorem isDefinite_of_same {a b : Expr} (h : a.same b = true) : b.isDefinite = true := by
  induction a using ofParts generalizing b with
  | step a ih =>
    obtain ⟨-, -, hb, hmatch⟩ := (same_iff a b).mp h
    refine (isDefinite_iff b).mpr ⟨hb, fun y hy => ?_⟩
    unfold Match at hmatch
    split at hmatch
    · obtain ⟨x, hx, -, hxy⟩ := hmatch.2 y hy
      exact ih x hx hxy
    · obtain ⟨x, hx, hxy⟩ := (covers_of_forall₂ hmatch).2 y hy
      exact ih x hx hxy

-- Any number of changes, each at a place of its own.
theorem same_of_rearranged {a b : Expr} (h : Relation.ReflTransGen Rearranges a b)
    (ha : a.isDefinite = true) : a.same b = true := by
  induction h with
  | refl => exact same_self ha
  | tail _ hstep ih => exact same_trans ih (hstep.same (isDefinite_of_same ih))

end Invariance

-- Equality is an equivalence on the expressions without a NaN, and it takes an expression for the
-- same one however the children of its sets of predicates are ordered and repeated.
theorem same_equivalence :
    (∀ a : Expr, a.isDefinite = true → a.same a = true) ∧
    (∀ a b : Expr, a.same b = true → b.same a = true) ∧
    (∀ a b c : Expr, a.same b = true → b.same c = true → a.same c = true) ∧
    ∀ a b : Expr, a.isDefinite = true → Relation.ReflTransGen Rearranges a b →
      a.same b = true ∧ ∀ c : Expr, a.same c = b.same c ∧ c.same a = c.same b := by
  refine ⟨fun a => same_self, fun a b => same_symm, fun a b c => same_trans, ?_⟩
  intro a b ha hab
  have hsame : a.same b = true := same_of_rearranged hab ha
  have hback : b.same a = true := same_symm hsame
  refine ⟨hsame, fun c => ⟨?_, ?_⟩⟩
  · rw [Bool.eq_iff_iff]
    exact ⟨same_trans hback, same_trans hsame⟩
  · rw [Bool.eq_iff_iff]
    exact ⟨fun h => same_trans h hsame, fun h => same_trans h hback⟩

-- Two sets change, one of them below a negation inside the other.
theorem same_of_rearranged_sets :
    ∃ a b : Expr, a.isDefinite = true ∧ Relation.ReflTransGen Rearranges a b ∧ a.same b = true := by
  let active : Expr := .property "" "active"
  let adult : Expr := .compare .greaterOrEqual (.property "" "age") (.value (.int .int 18) false)
  let banned : Expr := .property "" "banned"
  let a : Expr := .set .and [active, .unary .not (.set .or [adult, banned])]
  let mid : Expr := .set .and [active, .unary .not (.set .or [banned, adult, banned])]
  let b : Expr := .set .and [.unary .not (.set .or [banned, adult, banned]), active, active]
  have ha : a.isDefinite = true := by decide +kernel
  have hinner : Rearranges (.set .or [adult, banned]) (.set .or [banned, adult, banned]) :=
    .children rfl (by simp [or_comm])
  have hnot : Rearranges (.unary .not (.set .or [adult, banned]))
      (.unary .not (.set .or [banned, adult, banned])) :=
    @Rearranges.inside _ _ _ _ [] [] rfl rfl rfl hinner
  have hmid : Rearranges a mid := @Rearranges.inside _ _ _ _ [active] [] rfl rfl rfl hnot
  have houter : Rearranges mid b := .children rfl (by simp [or_comm])
  have hab : Relation.ReflTransGen Rearranges a b := .tail (.single hmid) houter
  exact ⟨a, b, ha, hab, (same_equivalence.2.2.2 a b ha hab).1⟩

end QueryTree.Expr
