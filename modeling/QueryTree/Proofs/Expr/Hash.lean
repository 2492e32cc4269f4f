import QueryTree.Proofs.Expr.Equality
import QueryTree.Proofs.Value.Steady

namespace QueryTree.Expr

section Members

theorem nodup_eraseDups {α : Type} [BEq α] [LawfulBEq α] (l : List α) : l.eraseDups.Nodup := by
  cases l with
  | nil => simp
  | cons a l =>
    rw [List.eraseDups_cons, List.nodup_cons]
    exact ⟨by simp [List.mem_eraseDups], nodup_eraseDups _⟩
termination_by l.length
decreasing_by exact Nat.lt_succ_of_le (List.length_filter_le _ _)

-- The distinct numbers of a list in ascending order do not depend on their places.
theorem hashMembers_congr {as bs : List UInt64} (h : ∀ x, x ∈ as ↔ x ∈ bs) (state : UInt64) :
    hashMembers state as = hashMembers state bs := by
  have hperm : as.eraseDups.Perm bs.eraseDups := by
    rw [List.perm_ext_iff_of_nodup (nodup_eraseDups as) (nodup_eraseDups bs)]
    intro x
    rw [List.mem_eraseDups, List.mem_eraseDups, h x]
  have hsorted : as.eraseDups.mergeSort (· ≤ ·) = bs.eraseDups.mergeSort (· ≤ ·) := by
    have htrans : ∀ a b c : UInt64,
        decide (a ≤ b) = true → decide (b ≤ c) = true → decide (a ≤ c) = true := by
      intro a b c hab hbc
      rw [decide_eq_true_eq] at *
      exact UInt64.le_trans hab hbc
    have htotal : ∀ a b : UInt64, (decide (a ≤ b) || decide (b ≤ a)) = true := by
      intro a b
      simpa using UInt64.le_total a b
    refine List.Perm.eq_of_pairwise ?_ (List.pairwise_mergeSort htrans htotal _)
      (List.pairwise_mergeSort htrans htotal _) ?_
    · intro a b _ _ hab hba
      exact UInt64.le_antisymm (of_decide_eq_true hab) (of_decide_eq_true hba)
    · exact (List.mergeSort_perm _ _).trans (hperm.trans (List.mergeSort_perm _ _).symm)
  rw [hashMembers, hashMembers, hsorted]

theorem hashes_eq (es : List Expr) : hashes es = es.map hash := by
  induction es with
  | nil => rfl
  | cons e es ih => rw [hashes, ih]; rfl

theorem mem_hashes_iff {as bs : List Expr} (h : Covers Found as bs) (x : UInt64) :
    x ∈ hashes as ↔ x ∈ hashes bs := by
  rw [hashes_eq, hashes_eq, List.mem_map, List.mem_map]
  constructor
  · rintro ⟨a, ha, rfl⟩
    obtain ⟨b, hb, hfound⟩ := h.1 a ha
    exact ⟨b, hb, hfound.1.symm⟩
  · rintro ⟨b, hb, rfl⟩
    obtain ⟨a, ha, hfound⟩ := h.2 b hb
    exact ⟨a, ha, hfound.1⟩

end Members

def HashesAs (a b : Expr) : Prop := ∀ h, a.hashInto h = b.hashInto h

section Parts

theorem hashAll_of_forall₂ {as bs : List Expr} (hab : List.Forall₂ HashesAs as bs) (h : UInt64) :
    hashAll h as = hashAll h bs := by
  induction hab generalizing h with
  | nil => rfl
  | cons hx _ ih => rw [hashAll, hashAll, hx h, ih]

theorem hashes_of_forall₂ {as bs : List Expr} (hab : List.Forall₂ HashesAs as bs) :
    hashes as = hashes bs := by
  induction hab with
  | nil => rfl
  | cons hx _ ih => rw [hashes, hashes, hx _, ih]

theorem hashOption_of_forall₂ {o p : Option Expr} (hop : List.Forall₂ HashesAs o.toList p.toList)
    (h : UInt64) : hashOption h o = hashOption h p := by
  cases o with
  | none =>
    cases p with
    | none => rfl
    | some y => cases hop
  | some x =>
    cases p with
    | none => cases hop
    | some y =>
      cases hop with
      | cons hx _ => exact hx h

theorem hashKeys_of_forall₂ {as bs : List (SortKey Expr)}
    (hkeys : as.map (fun k => SortKey.mk null k.ascending) = bs.map (fun k => ⟨null, k.ascending⟩))
    (hab : List.Forall₂ HashesAs (as.map (·.expr)) (bs.map (·.expr))) (h : UInt64) :
    hashKeys h as = hashKeys h bs := by
  induction as generalizing bs h with
  | nil =>
    cases bs with
    | nil => rfl
    | cons b bs => cases hab
  | cons a as ih =>
    cases bs with
    | nil => cases hab
    | cons b bs =>
      obtain ⟨a, x⟩ := a
      obtain ⟨b, y⟩ := b
      obtain ⟨hkey, hrest⟩ := List.cons.inj hkeys
      obtain ⟨hexpr, hexprs⟩ := List.forall₂_cons.mp hab
      obtain rfl : x = y := (SortKey.mk.inj hkey).2
      rw [hashKeys, hashKeys, hexpr, ih hrest hexprs]

theorem hashColumns_of_forall₂ {as bs : List (Column Expr)}
    (hcolumns : as.map (fun c => Column.mk null c.label) = bs.map (fun c => ⟨null, c.label⟩))
    (hab : List.Forall₂ HashesAs (as.map (·.expr)) (bs.map (·.expr))) (h : UInt64) :
    hashColumns h as = hashColumns h bs := by
  induction as generalizing bs h with
  | nil =>
    cases bs with
    | nil => rfl
    | cons b bs => cases hab
  | cons a as ih =>
    cases bs with
    | nil => cases hab
    | cons b bs =>
      obtain ⟨a, l⟩ := a
      obtain ⟨b, m⟩ := b
      obtain ⟨hcolumn, hrest⟩ := List.cons.inj hcolumns
      obtain ⟨hexpr, hexprs⟩ := List.forall₂_cons.mp hab
      obtain rfl : l = m := (Column.mk.inj hcolumn).2
      rw [hashColumns, hashColumns, hexpr, ih hrest hexprs]

theorem hashQuery_of_forall₂ {p q : Query} (hstages : p.hollow = q.hollow)
    (hparts : List.Forall₂ HashesAs p.parts q.parts) (h : UInt64) :
    hashQuery h p = hashQuery h q := by
  induction p generalizing q h with
  | rows object =>
    cases q with
    | rows object' => rw [Query.rows.inj hstages]
    | _ => cases hstages
  | filter p a ih =>
    cases q with
    | filter q b =>
      have hq : p.hollow = q.hollow := (Query.filter.inj hstages).1
      obtain ⟨hsource, hown⟩ := (forall₂_append_iff (length_parts_of_hollow hq)).mp hparts
      rw [hashQuery, hashQuery, ih hq hsource, (List.forall₂_cons.mp hown).1]
    | _ => cases hstages
  | group p keys ih =>
    cases q with
    | group q keys' =>
      have hq : p.hollow = q.hollow := (Query.group.inj hstages).1
      obtain ⟨hsource, hown⟩ := (forall₂_append_iff (length_parts_of_hollow hq)).mp hparts
      rw [hashQuery, hashQuery, ih hq hsource, hashAll_of_forall₂ hown, hown.length_eq]
    | _ => cases hstages
  | having p a ih =>
    cases q with
    | having q b =>
      have hq : p.hollow = q.hollow := (Query.having.inj hstages).1
      obtain ⟨hsource, hown⟩ := (forall₂_append_iff (length_parts_of_hollow hq)).mp hparts
      rw [hashQuery, hashQuery, ih hq hsource, (List.forall₂_cons.mp hown).1]
    | _ => cases hstages
  | order p keys ih =>
    cases q with
    | order q keys' =>
      obtain ⟨hq, hkeys⟩ := Query.order.inj hstages
      obtain ⟨hsource, hown⟩ := (forall₂_append_iff (length_parts_of_hollow hq)).mp hparts
      have hlength : keys.length = keys'.length := by simpa using hown.length_eq
      rw [hashQuery, hashQuery, ih hq hsource, hashKeys_of_forall₂ hkeys hown, hlength]
    | _ => cases hstages
  | window p offset limit ih =>
    cases q with
    | window q offset' limit' =>
      obtain ⟨hq, hoffset, hlimit⟩ := Query.window.inj hstages
      rw [hashQuery, hashQuery, hoffset, hlimit, ih hq hparts]
    | _ => cases hstages
  | select p columns ih =>
    cases q with
    | select q columns' =>
      obtain ⟨hq, hcolumns⟩ := Query.select.inj hstages
      obtain ⟨hsource, hown⟩ := (forall₂_append_iff (length_parts_of_hollow hq)).mp hparts
      have hlength : columns.length = columns'.length := by simpa using hown.length_eq
      rw [hashQuery, hashQuery, ih hq hsource, hashColumns_of_forall₂ hcolumns hown, hlength]
    | _ => cases hstages

def isLiteral : Expr → Bool
  | .value .. | .fragment .. => true
  | _ => false

-- Apart from literals, a node has the hash that the node without its parts and the hashes of the
-- parts tell.
theorem hashesAs_of_forall₂ {a b : Expr} (hnode : a.hollow = b.hollow)
    (hliteral : a.isLiteral = true → HashesAs a b)
    (hparts : List.Forall₂ HashesAs a.parts b.parts) : HashesAs a b := by
  intro h
  cases a with
  | value v c => exact hliteral rfl h
  | fragment k v => exact hliteral rfl h
  | property o n =>
    cases b with
    | property p m => rw [(property.inj hnode).1, (property.inj hnode).2]
    | _ => cases hnode
  | unary op x =>
    cases b with
    | unary oq y =>
      rw [hashInto, hashInto, (unary.inj hnode).1, (List.forall₂_cons.mp hparts).1]
    | _ => cases hnode
  | compare op l r =>
    cases b with
    | compare oq s t =>
      obtain ⟨hleft, hrest⟩ := List.forall₂_cons.mp hparts
      rw [hashInto, hashInto, (compare.inj hnode).1, hleft, (List.forall₂_cons.mp hrest).1]
    | _ => cases hnode
  | compute op l r =>
    cases b with
    | compute oq s t =>
      obtain ⟨hleft, hrest⟩ := List.forall₂_cons.mp hparts
      rw [hashInto, hashInto, (compute.inj hnode).1, hleft, (List.forall₂_cons.mp hrest).1]
    | _ => cases hnode
  | call n as =>
    cases b with
    | call m bs =>
      have hargs : List.Forall₂ HashesAs as bs := hparts
      rw [hashInto, hashInto, (call.inj hnode).1, hargs.length_eq, hashAll_of_forall₂ hargs]
    | _ => cases hnode
  | aggregate n o d =>
    cases b with
    | aggregate m p e =>
      obtain ⟨hname, -, hdistinct⟩ := aggregate.inj hnode
      rw [hashInto, hashInto, hname, hdistinct, hashOption_of_forall₂ hparts]
    | _ => cases hnode
  | set k as =>
    cases b with
    | set l bs =>
      have hitems : List.Forall₂ HashesAs as bs := hparts
      rw [hashInto, hashInto, (set.inj hnode).1, hashes_of_forall₂ hitems,
        hashAll_of_forall₂ hitems]
    | _ => cases hnode
  | related r l o ts =>
    cases b with
    | related s m p us =>
      obtain ⟨hrelation, hlabel, -, hargs⟩ := related.inj hnode
      rw [hashInto, hashInto, hrelation, hlabel, hargs, hashOption_of_forall₂ hparts]
    | _ => cases hnode
  | query p =>
    cases b with
    | query q => exact hashQuery_of_forall₂ (query.inj hnode) hparts h
    | _ => cases hnode

theorem hashesAs_of_covers {a b : Expr} (hnode : a.hollow = b.hollow) (hset : a.isUnordered = true)
    (hparts : Covers Found a.parts b.parts) : HashesAs a b := by
  cases a with
  | set k as =>
    cases b with
    | set l bs =>
      obtain rfl := (set.inj hnode).1
      have hlogical : k.isLogical = true := hset
      intro h
      rw [hashInto, hashInto, if_pos hlogical, if_pos hlogical]
      exact hashMembers_congr (mem_hashes_iff hparts) _
    | _ => cases hnode
  | _ => cases hset

end Parts

def carriesPlain : Expr → Bool
  | .value v _ | .fragment _ v => v.isPlain
  | _ => true

def hasPlainValues (e : Expr) : Bool := e.everywhere carriesPlain

theorem hasPlainValues_iff (e : Expr) : e.hasPlainValues = true ↔
    e.carriesPlain = true ∧ ∀ x ∈ e.parts, x.hasPlainValues = true :=
  everywhere_iff carriesPlain e

-- Whatever equals the expression has its hash, from every state on.
def HashFollows (a : Expr) : Prop :=
  ∀ b : Expr, b.hasPlainValues = true → a.same b = true → ∀ h, a.hashInto h = b.hashInto h

theorem hashValue_of_sameValue {v w : Value} {c d : Bool} (hv : v.isPlain = true)
    (hw : w.isPlain = true) (h : sameValue v c w d = true) (state : UInt64) :
    hashValue state v c = hashValue state w d := by
  by_cases hnull : v = .null
  · subst hnull
    cases w with
    | null => rfl
    | _ => simp [sameValue] at h
  · have hwnull : w ≠ .null := by
      rintro rfl
      rw [sameValue] at h
      · cases h
      · exact hnull
    rw [sameValue, Bool.and_eq_true, beq_iff_eq] at h
    · rw [hashValue, hashValue, hashLiteral, hashLiteral, h.1,
        Value.literal_normalize_eq hv hw h.2]
      · exact hwnull
      · exact hnull
    · exact hnull
    · exact hwnull
    · exact fun hv _ => hnull hv

theorem hashesAs_of_literal {a b : Expr} (hliteral : a.isLiteral = true)
    (ha : a.carriesPlain = true) (hb : b.carriesPlain = true) (h : a.same b = true) :
    HashesAs a b := by
  intro state
  cases a with
  | value v c =>
    cases b with
    | value w d =>
      rw [same] at h
      exact hashValue_of_sameValue ha hb h state
    | _ => simp [same] at h
  | fragment k v =>
    cases b with
    | fragment l w =>
      rw [same, Bool.and_eq_true, beq_iff_eq] at h
      rw [hashInto, hashInto, h.1, hashLiteral, hashLiteral, Value.literal_normalize_eq ha hb h.2]
    | _ => simp [same] at h
  | _ => cases hliteral

theorem hashFollows (a : Expr) (ha : a.hasPlainValues = true) : HashFollows a := by
  induction a using ofParts with
  | step a ih =>
    intro b hb h
    obtain ⟨hnode, hplain⟩ := (hasPlainValues_iff a).mp ha
    obtain ⟨hbnode, hbplain⟩ := (hasPlainValues_iff b).mp hb
    obtain ⟨hhollow, -, -, hmatch⟩ := (same_iff a b).mp h
    unfold Match at hmatch
    split at hmatch
    · next hset => exact hashesAs_of_covers hhollow hset hmatch
    · refine hashesAs_of_forall₂ hhollow (fun hl => hashesAs_of_literal hl hnode hbnode h) ?_
      exact forall₂_of_mem (fun x hx y hy => ih x hx (hplain x hx) y (hbplain y hy)) hmatch

theorem hash_eq_of_same (a b : Expr) (ha : a.hasPlainValues = true) (hb : b.hasPlainValues = true)
    (h : a.same b = true) : a.hash = b.hash :=
  hashFollows a ha b hb h _

-- Sets with their children in another order and number, over numbers of several kinds.
example :
    ∃ a b : Expr, a.hasPlainValues = true ∧ b.hasPlainValues = true ∧ a.same b = true ∧
      a.hash = b.hash := by
  let active : Expr := .property "" "active"
  let small : Expr := .compare .isIn (.property "" "rank")
    (.value (.list (.int .int8) [.int .int8 1, .int .int8 0]) false)
  let small' : Expr := .compare .isIn (.property "" "rank") (.value
    (.items [.float .float32 (.finite false 1 0), .float .float64 (.finite true 0 0)]) false)
  let a : Expr := .set .or [small, .unary .not active]
  let b : Expr := .set .or [.unary .not active, small', small, .unary .not active]
  have ha : a.hasPlainValues = true := by decide +kernel
  have hb : b.hasPlainValues = true := by decide +kernel
  have h : a.same b = true := by decide +kernel
  exact ⟨a, b, ha, hb, h, hash_eq_of_same a b ha hb h⟩

-- Under keys that are no texts a negative zero keeps its sign and still equals zero.
example :
    let entry (x : Binary) : Expr :=
      .value (.map (.int .int) (.float .float64) [(.int .int 1, .float64 x)]) false
    (entry (.finite false 0 0)).same (entry (.finite true 0 0)) = true ∧
      (entry (.finite false 0 0)).hash ≠ (entry (.finite true 0 0)).hash := by
  decide +kernel

end QueryTree.Expr
