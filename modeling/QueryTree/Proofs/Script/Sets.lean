import QueryTree.Proofs.Script.Session

namespace QueryTree.Script

section Memory

theorem getElem?_concat_some {α : Type} {l : List α} {x y : α} {n : Nat}
    (h : (l ++ [x])[n]? = some y) : l[n]? = some y ∨ n = l.length ∧ y = x := by
  obtain hn | hn := Nat.lt_or_ge n l.length
  · exact .inl (List.getElem?_append_left hn ▸ h)
  · have hlast : n < (l ++ [x]).length := (List.getElem?_eq_some_iff.mp h).1
    obtain rfl : n = l.length := by simp at hlast; omega
    exact .inr ⟨rfl, by simpa using h.symm⟩

theorem getElem?_set_some {α : Type} {l : List α} {x y : α} {n k : Nat}
    (h : (l.set n x)[k]? = some y) : k = n ∧ y = x ∨ k ≠ n ∧ l[k]? = some y := by
  by_cases hk : k = n
  · subst hk
    have hlength : k < l.length := by simpa using (List.getElem?_eq_some_iff.mp h).1
    exact .inl ⟨rfl, by simpa [hlength] using h.symm⟩
  · exact .inr ⟨hk, by rwa [List.getElem?_set_ne (Ne.symm hk)] at h⟩

inductive StandsFor (m : Memory) (es : List Expr) : Object → Item → Prop
  | set (kind : SetKind) {s : Slice} {children : List Expr} (h : s.Reads m es children) :
      StandsFor m es (.set kind s) (.expr (.set kind children))
  | builder (n : Nat) : StandsFor m es (.builder n) (.builder n)

-- Memory shows every result, with children that are among the results before it.
inductive Shown (m : Memory) : List Object → List Item → Prop
  | nil : Shown m [] []
  | push {objects : List Object} {items : List Item} {o : Object} {item : Item}
      (h : Shown m objects items) (ho : StandsFor m (items.map Item.whole) o item) :
      Shown m (objects ++ [o]) (items ++ [item])

variable {kind : SetKind} {children es : List Expr} {m m' : Memory} {o : Object} {item : Item}
  {objects : List Object} {items : List Item}

namespace StandsFor

theorem shown_eq (h : StandsFor m es o item) : o.shown m es = item.whole := by
  cases h with
  | set kind h => rw [Object.shown, h.shows.eq, Item.whole]
  | builder n => rfl

theorem later (h : StandsFor m es o item) (more : List Expr) : StandsFor m (es ++ more) o item := by
  cases h with
  | set kind h => exact .set kind (h.later more)
  | builder n => exact .builder n

theorem keep (h : StandsFor m es o item)
    (hkept : ∀ k t, o = .set k t → t.IsIn m → t.IsIn m' ∧ t.read m' = t.read m) :
    StandsFor m' es o item := by
  cases h with
  | set kind h =>
    obtain ⟨hin, hread⟩ := hkept kind _ rfl h.isIn
    exact .set kind (h.keep hin hread)
  | builder n => exact .builder n

end StandsFor

namespace Shown

theorem foldl_shown (h : Shown m objects items) :
    objects.foldl (fun es o => es ++ [o.shown m es]) [] = items.map Item.whole := by
  induction h with
  | nil => rfl
  | push h ho ih =>
    rw [List.foldl_append, ih, List.map_append, List.foldl_cons, ho.shown_eq]
    rfl

theorem length_eq (h : Shown m objects items) : objects.length = items.length := by
  induction h with
  | nil => rfl
  | push h ho ih => rw [List.length_append, List.length_append, ih]; rfl

theorem keep (h : Shown m objects items)
    (hkept : ∀ k t, .set k t ∈ objects → t.IsIn m → t.IsIn m' ∧ t.read m' = t.read m) :
    Shown m' objects items := by
  induction h with
  | nil => exact .nil
  | push h ho ih =>
    refine .push (ih fun k t ht => hkept k t (List.mem_append_left _ ht)) (ho.keep ?_)
    rintro k t rfl
    exact hkept k t (by simp)

theorem at_index (h : Shown m objects items) {i : Nat} (hitem : items[i]? = some item) :
    ∃ o, objects[i]? = some o ∧ StandsFor m (items.map Item.whole) o item := by
  induction h with
  | nil => cases hitem
  | push h ho ih =>
    rw [List.map_append]
    obtain hitem | ⟨rfl, rfl⟩ := getElem?_concat_some hitem
    · obtain ⟨o, ho, hstands⟩ := ih hitem
      have hi := (List.getElem?_eq_some_iff.mp ho).1
      exact ⟨o, by rw [List.getElem?_append_left hi, ho], hstands.later _⟩
    · exact ⟨_, by rw [← h.length_eq, List.getElem?_concat_length], ho.later _⟩

theorem isIn (h : Shown m objects items) {k : SetKind} {t : Slice} (ht : .set k t ∈ objects) :
    t.IsIn m := by
  induction h with
  | nil => cases ht
  | push h ho ih =>
    obtain ht | ht := List.mem_append.mp ht
    · exact ih ht
    · cases List.mem_singleton.mp ht
      cases ho with
      | set kind h => exact h.isIn

end Shown

theorem Shown.spliced {s : Session} (h : Shown m objects s.items) (kind : SetKind) (c : Child) :
    Shows (s.items.map Item.whole) (Store.spliced objects kind m (s.cell c))
      ((s.child c).given kind) := by
  cases c with
  | nothing | unset => exact .part _ .null
  | part e he =>
    rw [Session.child, given_part he]
    exact .part _ e
  | result i =>
    cases hitem : s.items[i]? with
    | none =>
      have hi : ¬ i < s.results.length := by simpa [Session.items] using hitem
      rw [Session.cell, if_neg hi, Session.child, Session.item, nth,
        List.getD_eq_getElem?_getD, hitem]
      exact .part _ .null
    | some item =>
      have hi : i < s.items.length := (List.getElem?_eq_some_iff.mp hitem).1
      have hwhole : (s.items.map Item.whole)[i]? = some item.whole := by simp [hitem]
      obtain ⟨o, ho, hstands⟩ := h.at_index hitem
      rw [Session.cell, if_pos (by simpa [Session.items] using hi), Session.child, Session.item,
        nth, List.getD_eq_getElem?_getD, hitem, Option.getD_some, Store.spliced, ho]
      cases hstands with
      | set k hreads =>
        -- A set of the kind gives its cells, any other set itself.
        dsimp only [Item.given]
        split
        · exact hreads.shows
        · exact .set hwhole
      | builder n => exact .set hwhole

theorem Shown.spliced_all {s : Session} (h : Shown m objects s.items) (kind : SetKind)
    (cs : List Child) :
    Shows (s.items.map Item.whole) ((cs.map s.cell).flatMap (Store.spliced objects kind m))
      ((cs.map s.child).flatMap (Item.given kind)) := by
  induction cs with
  | nil => exact .nil _
  | cons c cs ih => exact (h.spliced kind c).append ih

-- Memory holds every set and every builder. A builder shares its array with no set and no other
-- builder.
structure Mirrors (st : Store) (items : List Item) (bs : List SetBuilder) : Prop where
  objects : Shown st.memory st.objects items
  length : st.builders.length = bs.length
  builder : ∀ {n : Nat} {p : SetKind × Slice} {b : SetBuilder}, st.builders[n]? = some p →
    bs[n]? = some b → p.1 = b.kind ∧ p.2.Reads st.memory (items.map Item.whole) b.items
  apart : ∀ {k : SetKind} {t : Slice} {p : SetKind × Slice}, .set k t ∈ st.objects →
    p ∈ st.builders → t.Apart p.2
  separate : ∀ {n k : Nat} {p q : SetKind × Slice}, n ≠ k → st.builders[n]? = some p →
    st.builders[k]? = some q → p.2.Apart q.2

namespace Mirrors

variable {st : Store} {bs : List SetBuilder} {cells : List Cell} {out : Memory × Slice}

theorem isIn_builder (h : Mirrors st items bs) {p : SetKind × Slice} (hp : p ∈ st.builders) :
    p.2.IsIn st.memory := by
  obtain ⟨n, hn, rfl⟩ := List.getElem_of_mem hp
  exact (h.builder (List.getElem?_eq_getElem hn) (List.getElem?_eq_getElem (h.length ▸ hn))).2.isIn

-- A set with an array of its own.
theorem withSet (h : Mirrors st items bs) (kind : SetKind)
    (hout : Slice.Appends st.memory {} cells out)
    (hcells : Shows (items.map Item.whole) cells children) :
    Mirrors (st.withSet kind out) (items ++ [.expr (.set kind children)]) bs where
  objects := by
    have hkept : ∀ k t, .set k t ∈ st.objects → t.IsIn st.memory →
        t.IsIn out.1 ∧ t.read out.1 = t.read st.memory := fun k t _ ht =>
      ⟨(hout.frame t ht t.apart_empty).1, (hout.frame t ht t.apart_empty).2.2⟩
    exact (h.objects.keep hkept).push (.set kind ⟨hout.isIn, hout.read ▸ hcells⟩)
  length := h.length
  builder hp hb := by
    obtain ⟨hkind, hreads⟩ := h.builder hp hb
    obtain ⟨hin, -, hread⟩ := hout.frame _ hreads.isIn (Slice.apart_empty _)
    rw [List.map_append]
    exact ⟨hkind, (hreads.keep hin hread).later _⟩
  apart ht hp := by
    obtain ht | ht := List.mem_append.mp ht
    · exact h.apart ht hp
    · cases List.mem_singleton.mp ht
      exact (hout.frame _ (h.isIn_builder hp) (Slice.apart_empty _)).2.1.symm
  separate := h.separate

theorem newBuilder (h : Mirrors st items bs) (kind : SetKind) :
    Mirrors (st.newBuilder kind) (items ++ [.builder bs.length]) (bs ++ [⟨kind, []⟩]) where
  objects := by
    rw [← h.length]
    exact h.objects.push (.builder _)
  length := by simp [Store.newBuilder, h.length]
  builder {n p b} hp hb := by
    rw [List.map_append]
    obtain hb | ⟨hn, rfl⟩ := getElem?_concat_some hb <;>
      obtain hp | ⟨hn', rfl⟩ := getElem?_concat_some hp
    · obtain ⟨hkind, hreads⟩ := h.builder hp hb
      exact ⟨hkind, hreads.later _⟩
    · have := (List.getElem?_eq_some_iff.mp hb).1
      have := h.length
      omega
    · have := (List.getElem?_eq_some_iff.mp hp).1
      have := h.length
      omega
    · exact ⟨rfl, Slice.isIn_empty _, .nil _⟩
  apart ht hp := by
    obtain ht | ht := List.mem_append.mp ht
    · obtain hp | hp := List.mem_append.mp hp
      · exact h.apart ht hp
      · cases List.mem_singleton.mp hp
        exact Slice.apart_empty _
    · cases List.mem_singleton.mp ht
  separate hnk hp hq := by
    obtain hp | ⟨hn, rfl⟩ := getElem?_concat_some hp <;>
      obtain hq | ⟨hk, rfl⟩ := getElem?_concat_some hq
    · exact h.separate hnk hp hq
    · exact Slice.apart_empty _
    · exact (Slice.apart_empty _).symm
    · exact absurd (hn.trans hk.symm) hnk

-- A builder gets more children. What shares no array with it stays as it is.
theorem withBuilder (h : Mirrors st items bs) {n : Nat} {s : Slice} {b : SetBuilder}
    (hs : st.builders[n]? = some (kind, s)) (hb : bs[n]? = some b)
    (hout : s.Appends st.memory cells out)
    (hcells : Shows (items.map Item.whole) cells children) :
    Mirrors (st.withBuilder n kind out) (items ++ [.builder n])
      (bs.set n { b with items := b.items ++ children }) where
  objects := by
    have hkept : ∀ k t, .set k t ∈ st.objects → t.IsIn st.memory →
        t.IsIn out.1 ∧ t.read out.1 = t.read st.memory := fun k t hmem ht =>
      have hframe := hout.frame t ht (h.apart hmem (List.mem_of_getElem? hs))
      ⟨hframe.1, hframe.2.2⟩
    exact (h.objects.keep hkept).push (.builder n)
  length := by simp [Store.withBuilder, h.length]
  builder {k p b'} hp hb' := by
    rw [List.map_append]
    -- The builder reads the longer slice. Every other one has an array of its own.
    obtain ⟨hk, rfl⟩ | ⟨hk, hp⟩ := getElem?_set_some hp <;>
      obtain ⟨hk', rfl⟩ | ⟨hk', hb'⟩ := getElem?_set_some hb'
    · obtain ⟨hkind, hreads⟩ := h.builder hs hb
      exact ⟨hkind, (hreads.append hout hcells).later _⟩
    · exact absurd hk hk'
    · exact absurd hk' hk
    · obtain ⟨hkind, hreads⟩ := h.builder hp hb'
      obtain ⟨hin, -, hread⟩ := hout.frame _ hreads.isIn (h.separate hk hp hs)
      exact ⟨hkind, (hreads.keep hin hread).later _⟩
  apart ht hp := by
    obtain ht | ht := List.mem_append.mp ht
    · obtain hp | rfl := List.mem_or_eq_of_mem_set hp
      · exact h.apart ht hp
      · exact (hout.frame _ (h.objects.isIn ht) (h.apart ht (List.mem_of_getElem? hs))).2.1
    · cases List.mem_singleton.mp ht
  separate hjk hp hq := by
    have hother : ∀ {j p}, j ≠ n → st.builders[j]? = some p → p.2.Apart out.2 := fun hj hp =>
      (hout.frame _ (h.isIn_builder (List.mem_of_getElem? hp)) (h.separate hj hp hs)).2.1
    obtain ⟨hj, rfl⟩ | ⟨hj, hp⟩ := getElem?_set_some hp <;>
      obtain ⟨hk, rfl⟩ | ⟨hk, hq⟩ := getElem?_set_some hq
    · exact absurd (hj.trans hk.symm) hjk
    · exact (hother hk hq).symm
    · exact hother hj hp
    · exact h.separate hjk hp hq

variable {s : Session}

theorem item_some {i : Nat} (hitem : s.item i = item) (hnull : item ≠ .null) :
    s.items[i]? = some item := by
  rw [Session.item, nth, List.getD_eq_getElem?_getD] at hitem
  cases hi : s.items[i]? with
  | none => exact absurd (by rw [← hitem, hi]; rfl) hnull
  | some item' => rw [← hitem, hi, Option.getD_some]

theorem set_at (h : Mirrors st s.items bs) {i : Nat}
    (hitem : s.item i = .expr (.set kind children)) :
    ∃ t, st.objects[i]? = some (.set kind t) ∧
      t.Reads st.memory (s.items.map Item.whole) children := by
  obtain ⟨_, ho, hstands⟩ := h.objects.at_index (item_some hitem (by intro h; cases h))
  cases hstands with
  | set _ hreads => exact ⟨_, ho, hreads⟩

theorem builder_at (h : Mirrors st s.items bs) {i n : Nat} {b : SetBuilder}
    (hitem : s.item i = .builder n) (hb : bs[n]? = some b) :
    ∃ t, st.objects[i]? = some (.builder n) ∧ st.builders[n]? = some (b.kind, t) ∧
      t.Reads st.memory (s.items.map Item.whole) b.items := by
  obtain ⟨_, ho, hstands⟩ := h.objects.at_index (item_some hitem (by intro h; cases h))
  cases hstands with
  | builder _ =>
    have hn : n < st.builders.length := h.length ▸ (List.getElem?_eq_some_iff.mp hb).1
    have hp := List.getElem?_eq_getElem hn
    obtain ⟨hkind, hreads⟩ := h.builder hp hb
    exact ⟨_, ho, by rw [← hkind]; exact hp, hreads⟩

theorem store (grow : Nat → Nat → Nat) (hs : s.IsSound) (h : Mirrors st s.items s.builders)
    (c : SetCall) : Mirrors (s.store grow st c) (s.step c).items (s.step c).builders := by
  unfold Session.store Session.step
  cases hrun : (s.call c).run s.builders with
  | error e => exact h
  | ok p =>
    obtain ⟨out, bs⟩ := p
    simp only [Except.isOk, Except.toBool, if_true, Session.items, List.map_append, List.map_cons,
      List.map_nil]
    have hsets : ∀ k t, .set k t ∈ st.objects → t.IsIn st.memory ∧ t.Apart {} :=
      fun k t ht => ⟨h.objects.isIn ht, t.apart_empty⟩
    cases hs.gives hrun with
    | newSet kind cs =>
      have hmade := Store.flatten_appends grow kind (cs.map s.cell)
        (.nil (Slice.isIn_empty st.memory)) hsets
      exact h.withSet kind hmade (h.objects.spliced_all kind cs)
    | newBuilder kind => exact h.newBuilder kind
    | @addSet i kind children cs hitem _ =>
      obtain ⟨t, ho, hreads⟩ := h.set_at hitem
      have hmade := Store.flatten_appends grow kind (cs.map s.cell)
        (Slice.make_appends st.memory (t.read st.memory) (cs.map s.cell).length) hsets
      simp only [Store.add, ho]
      exact h.withSet kind hmade (hreads.shows.append (h.objects.spliced_all kind cs))
    | @addBuilder i n b cs hitem hb _ =>
      obtain ⟨t, ho, hp, hreads⟩ := h.builder_at hitem hb
      have hapart : ∀ k t', .set k t' ∈ st.objects → t'.IsIn st.memory ∧ t'.Apart t :=
        fun k t' ht' => ⟨h.objects.isIn ht', h.apart ht' (List.mem_of_getElem? hp)⟩
      have hmade := Store.flatten_appends grow b.kind (cs.map s.cell) (.nil hreads.isIn) hapart
      simp only [Store.add, ho, Store.pending_eq hp]
      exact h.withBuilder hp hb hmade (h.objects.spliced_all b.kind cs)
    | @build i n b hitem hb _ =>
      obtain ⟨t, ho, hp, hreads⟩ := h.builder_at hitem hb
      simp only [Store.build, ho, Store.pending_eq hp]
      exact h.withSet b.kind (Slice.make_appends _ _ 0) hreads.shows

end Mirrors

theorem stored_shown (grow : Nat → Nat → Nat) (cs : List SetCall) :
    (Session.stored grow cs).shown = (Session.run cs).items.map Item.whole := by
  have hall : ∀ (cs : List SetCall) (s : Session) (st : Store), s.IsSound →
      Mirrors st s.items s.builders →
      (Session.storeAll grow s st cs).shown = (cs.foldl Session.step s).items.map Item.whole := by
    intro cs
    induction cs with
    | nil => exact fun s st hs h => h.objects.foldl_shown
    | cons c cs ih => exact fun s st hs h => ih _ _ (hs.step c) (h.store grow hs c)
  refine hall cs {} {} ⟨by simp, .nil⟩ ⟨.nil, rfl, ?_, ?_, ?_⟩ <;> simp

end Memory

section Later

theorem results_isPrefix_step (s : Session) (c : SetCall) : s.results <+: (s.step c).results := by
  unfold Session.step
  split
  · exact List.prefix_append _ _
  · exact List.prefix_rfl

theorem results_isPrefix_run (cs ds : List SetCall) :
    (Session.run cs).results <+: (Session.run (cs ++ ds)).results := by
  rw [Session.run, Session.run, List.foldl_append]
  generalize List.foldl Session.step {} cs = s
  induction ds generalizing s with
  | nil => exact List.prefix_rfl
  | cons d ds ih => exact (results_isPrefix_step s d).trans (ih _)

end Later

-- The same children in other portions: some of them are handed over together, as a set of the
-- kind.
inductive Regrouped (kind : SetKind) : List Item → List Item → Prop
  | refl (xs : List Item) : Regrouped kind xs xs
  | nested (xs ys zs : List Item) : Regrouped kind (xs ++ ys ++ zs)
      (xs ++ [.expr (.set kind (ys.flatMap (Item.given kind)))] ++ zs)
  | symm {xs ys : List Item} : Regrouped kind xs ys → Regrouped kind ys xs
  | trans {xs ys zs : List Item} : Regrouped kind xs ys → Regrouped kind ys zs →
      Regrouped kind xs zs

theorem Regrouped.given_eq {kind : SetKind} {xs ys : List Item} (h : Regrouped kind xs ys) :
    xs.flatMap (Item.given kind) = ys.flatMap (Item.given kind) := by
  induction h with
  | refl xs => rfl
  | nested xs ys zs => simp [Item.given]
  | symm _ ih => exact ih.symm
  | trans _ _ ih₁ ih₂ => exact ih₁.trans ih₂

-- Whatever calls made a set of a kind: no child of it is a set of that kind, and its children are
-- what was handed over for it, in order, with sets of the kind replaced by their children and
-- nothing by the null literal. Whatever is called later, memory still holds the set with these
-- children, and any other calls that hand over the same children in other portions make the same
-- set.
theorem sets_flat_and_whole (cs : List SetCall) {i : Nat} {kind : SetKind} {children : List Expr}
    {handed : List Item}
    (h : (Session.run cs).results[i]? = some ⟨.expr (.set kind children), handed⟩) :
    (∀ e ∈ children, e.isSetOf kind = false) ∧
      children = handed.flatMap (Item.given kind) ∧
      (∀ (grow : Nat → Nat → Nat) (ds : List SetCall),
        (Session.run (cs ++ ds)).results[i]? = some ⟨.expr (.set kind children), handed⟩ ∧
          (Session.stored grow (cs ++ ds)).shown[i]? = some (.set kind children)) ∧
      ∀ (ds : List SetCall) (j : Nat) (children' : List Expr) (handed' : List Item),
        (Session.run ds).results[j]? = some ⟨.expr (.set kind children'), handed'⟩ →
        Regrouped kind handed' handed → children' = children := by
  have hgathers : ∀ {cs : List SetCall} {i : Nat} {children : List Expr} {handed : List Item},
      (Session.run cs).results[i]? = some ⟨.expr (.set kind children), handed⟩ →
      Gathers kind children handed := by
    intro cs i children handed h
    obtain ⟨_, _, ⟨⟩, hgathers⟩ | ⟨n, ⟨⟩, -⟩ :=
      (Session.isSound_run cs).result _ (List.mem_of_getElem? h)
    exact hgathers
  refine ⟨(hgathers h).flat, (hgathers h).eq, fun grow ds => ?_,
    fun ds j children' handed' h' hre => ?_⟩
  · obtain ⟨later, hlater⟩ := results_isPrefix_run cs ds
    have hresult : (Session.run (cs ++ ds)).results[i]? =
        some ⟨.expr (.set kind children), handed⟩ := by
      rw [← hlater, List.getElem?_append_left (List.getElem?_eq_some_iff.mp h).1, h]
    refine ⟨hresult, ?_⟩
    simp [stored_shown, Session.items, hresult, Item.whole]
  · rw [(hgathers h').eq, (hgathers h).eq, hre.given_eq]

-- A set in a set, to which one child and later another is added, and the same children collected by
-- a builder. Arrays have room for four more cells, so the second child would overwrite the first
-- without a copy.
theorem sets_flat_and_whole_nested :
    let a : Child := .part (.property "" "A") fun _ => rfl
    let b : Child := .part (.property "" "B") fun _ => rfl
    let first : Item := .expr (.set .and [.property "" "A", .null])
    let children : List Expr := [.property "" "A", .null, .property "" "B"]
    let nested : List SetCall :=
      [.newSet .and [a, .nothing], .newSet .and [.result 0], .add 1 [b]]
    let collected : List SetCall := [.newBuilder .and, .add 0 [a], .add 0 [.nothing, b], .build 0]
    (Session.run nested).results[2]? =
        some ⟨.expr (.set .and children), [first, .expr (.property "" "B")]⟩ ∧
      (∀ e ∈ children, e.isSetOf .and = false) ∧
      (Session.stored (fun _ _ => 4) (nested ++ [.add 1 [a]])).shown[2]? =
        some (.set .and children) ∧
      ∃ children', (Session.run collected).results[3]? = some ⟨.expr (.set .and children'),
        [.expr (.property "" "A"), .null, .expr (.property "" "B")]⟩ ∧ children' = children := by
  intro a b first children nested collected
  have hnested : (Session.run nested).results[2]? =
      some ⟨.expr (.set .and children), [first, .expr (.property "" "B")]⟩ := rfl
  have hregrouped : Regrouped .and [.expr (.property "" "A"), .null, .expr (.property "" "B")]
      [first, .expr (.property "" "B")] :=
    .nested [] [.expr (.property "" "A"), .null] [.expr (.property "" "B")]
  obtain ⟨hflat, -, hkept, hsame⟩ := sets_flat_and_whole nested hnested
  exact ⟨hnested, hflat, (hkept _ _).2, _, rfl, hsame collected 3 _ _ rfl hregrouped⟩

end QueryTree.Script
