import QueryTree.Proofs.Expr.Hash

namespace QueryTree.Expr

-- Expressions under a number, those that came first in front.
abbrev Buckets := List (UInt64 × List Expr)

namespace Buckets

def bucket (index : Buckets) (h : UInt64) : List Expr := (index.lookup h).getD []

-- Adds an expression at the end of its bucket, which is opened where there is none.
def insert (h : UInt64) (e : Expr) : Buckets → Buckets
  | [] => [(h, [e])]
  | (k, es) :: rest => if k == h then (k, es ++ [e]) :: rest else (k, es) :: insert h e rest

theorem bucket_cons (k h : UInt64) (es : List Expr) (index : Buckets) :
    bucket ((k, es) :: index) h = if k == h then es else index.bucket h := by
  rw [bucket, List.lookup_cons]
  by_cases hk : h = k
  · simp [hk]
  · have hne : (h == k) = false := by simp [hk]
    rw [hne, if_neg (fun heq => hk (beq_iff_eq.mp heq).symm)]
    rfl

theorem bucket_insert (index : Buckets) (k h : UInt64) (e : Expr) :
    (index.insert k e).bucket h = if k == h then index.bucket h ++ [e] else index.bucket h := by
  induction index with
  | nil => rw [insert, bucket_cons]; rfl
  | cons b index ih =>
    obtain ⟨l, es⟩ := b
    rw [insert]
    by_cases hl : l = k
    · subst hl
      simp only [beq_self_eq_true, if_true, bucket_cons]
      by_cases hh : l = h
      · simp [hh]
      · simp [hh]
    · rw [if_neg (fun heq => hl (beq_iff_eq.mp heq)), bucket_cons, bucket_cons, ih]
      by_cases hh : l = h
      · have hk : k ≠ h := fun heq => hl (hh.trans heq.symm)
        simp [hh, hk]
      · simp [hh]

def of (hash : Expr → UInt64) (es : List Expr) : Buckets :=
  es.foldl (fun index e => index.insert (hash e) e) []

theorem bucket_of (hash : Expr → UInt64) (es : List Expr) (h : UInt64) :
    (of hash es).bucket h = es.filter (hash · == h) := by
  have hfold : ∀ index : Buckets, bucket (es.foldl (fun i e => insert (hash e) e i) index) h =
      index.bucket h ++ es.filter (hash · == h) := by
    induction es with
    | nil => simp
    | cons e es ih =>
      intro index
      rw [List.foldl_cons, ih, bucket_insert]
      by_cases he : hash e = h
      · simp [he]
      · simp [he]
  exact hfold []

end Buckets

-- Whether each of the items equals one of the set, looked for in the bucket of its hash.
def containsAll (hash : Expr → UInt64) (set items : List Expr) : Bool :=
  items.all fun e => ((Buckets.of hash set).bucket (hash e)).any (·.same e)

def sameMembers (hash : Expr → UInt64) (as bs : List Expr) : Bool :=
  containsAll hash as bs && containsAll hash bs as

theorem containsAll_iff (hash : Expr → UInt64) (set items : List Expr) :
    containsAll hash set items = true ↔
      ∀ e ∈ items, ∃ c ∈ set, hash c = hash e ∧ c.same e = true := by
  simp only [containsAll, Buckets.bucket_of, List.all_eq_true, List.any_eq_true, List.mem_filter,
    beq_iff_eq, and_assoc]

theorem same_comm (a b : Expr) : a.same b = b.same a :=
  Bool.eq_iff_iff.mpr ⟨same_symm, same_symm⟩

-- The search that equality makes is the one through the index.
theorem same_set (kind : SetKind) (as bs : List Expr) (hkind : kind.isLogical = true) :
    (set kind as).same (set kind bs) = sameMembers hash as bs := by
  have hset : (set kind as).same (set kind bs) = (allWithin as bs && bs.all (within as)) := by
    rw [same, hkind]
    simp
  -- The two searches compare the children of the first set in opposite directions.
  have hfound : ∀ a b, Found a b ↔ b.hash = a.hash ∧ b.same a = true := by
    intro a b
    rw [Found, same_comm, eq_comm]
  rw [hset, Bool.eq_iff_iff, sameMembers_iff, sameMembers, Bool.and_eq_true, containsAll_iff,
    containsAll_iff, Covers, and_comm]
  refine and_congr Iff.rfl ?_
  simp only [hfound]

-- A hash that equal expressions share hides no member, whichever others share it.
theorem containsAll_of_shared {hash : Expr → UInt64} {set items : List Expr}
    (hshared : ∀ c ∈ set, ∀ e ∈ items, c.same e = true → hash c = hash e) :
    containsAll hash set items = true ↔ ∀ e ∈ items, ∃ c ∈ set, c.same e = true := by
  rw [containsAll_iff]
  constructor
  · intro h e he
    obtain ⟨c, hc, -, hsame⟩ := h e he
    exact ⟨c, hc, hsame⟩
  · intro h e he
    obtain ⟨c, hc, hsame⟩ := h e he
    exact ⟨c, hc, hshared c hc e he hsame, hsame⟩

-- Two lists count as the same set exactly if each member of one equals a member of the other.
theorem sameMembers_iff_covers (as bs : List Expr) (has : ∀ a ∈ as, a.hasPlainValues = true)
    (hbs : ∀ b ∈ bs, b.hasPlainValues = true) :
    (sameMembers hash as bs = true ↔ (∀ a ∈ as, ∃ b ∈ bs, a.same b = true) ∧
      ∀ b ∈ bs, ∃ a ∈ as, b.same a = true) ∧
    ∀ kind : SetKind, kind.isLogical = true →
      (set kind as).same (set kind bs) = sameMembers hash as bs := by
  have hto : ∀ a ∈ as, ∀ b ∈ bs, a.same b = true → a.hash = b.hash :=
    fun a ha b hb h => hash_eq_of_same a b (has a ha) (hbs b hb) h
  have hfrom : ∀ b ∈ bs, ∀ a ∈ as, b.same a = true → b.hash = a.hash :=
    fun b hb a ha h => hash_eq_of_same b a (hbs b hb) (has a ha) h
  refine ⟨?_, fun kind hkind => same_set kind as bs hkind⟩
  rw [sameMembers, Bool.and_eq_true, containsAll_of_shared hto, containsAll_of_shared hfrom,
    and_comm]
  refine and_congr ?_ ?_ <;> simp only [same_comm]

-- A text and the same text under a declared type share a hash and are not equal; each is found
-- in the bucket of both, in whatever order and number they come.
example :
    let plain : Expr := .value (.text "x") false
    let named : Expr := .value (.named "main.Name" (.text "x")) false
    plain.hash = named.hash ∧ plain.same named = false ∧
      (∀ e ∈ [plain, named], e.hasPlainValues = true) ∧
      (sameMembers hash [plain, named, plain] [named, plain] = true ↔
        (∀ a ∈ [plain, named, plain], ∃ b ∈ [named, plain], a.same b = true) ∧
          ∀ b ∈ [named, plain], ∃ a ∈ [plain, named, plain], b.same a = true) ∧
      sameMembers hash [plain, named, plain] [named, plain] = true ∧
      sameMembers hash [plain, named] [plain] = false := by
  intro plain named
  have hplain : ∀ e ∈ [plain, named, plain], e.hasPlainValues = true := by decide +kernel
  have hnamed : ∀ e ∈ [named, plain], e.hasPlainValues = true := by decide +kernel
  exact ⟨by decide +kernel, by decide +kernel, by decide +kernel,
    (sameMembers_iff_covers [plain, named, plain] [named, plain] hplain hnamed).1,
    by decide +kernel, by decide +kernel⟩

end QueryTree.Expr
