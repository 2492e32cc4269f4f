import Mathlib.Data.List.Forall2
import QueryTree.Proofs.Expr.Slice
import QueryTree.Proofs.Expr.WellFormed
import QueryTree.Script.Operation

namespace QueryTree.Script

-- What a caller hands to a set: nothing, a literal never given a value, an expression that is no
-- set, or an earlier result.
inductive Child where
  | nothing
  | unset
  | part (e : Expr) (h : ∀ kind, e.isSetOf kind = false)
  | result (i : Nat)

-- The calls that make sets. Children are added to an earlier set or builder.
inductive SetCall where
  | newSet (kind : SetKind) (children : List Child)
  | newBuilder (kind : SetKind)
  | add (i : Nat) (children : List Child)
  | build (i : Nat)

-- A result, and all that was handed over for it up to the call that gave it.
structure Made where
  item : Item
  handed : List Item

-- The results of the calls so far and the builders, with what was handed over for each builder.
structure Session where
  results : List Made := []
  builders : List SetBuilder := []
  pending : List (List Item) := []

namespace Item

-- What a child gives to a set of a kind: the children of a set of that kind, else itself. Nothing
-- gives the null literal.
def given (kind : SetKind) : Item → List Expr
  | .expr (.set k items) => if k = kind then items else [.set k items]
  | .expr e => [e]
  | _ => [.null]

def whole : Item → Expr
  | .expr e => e
  | _ => .null

def ofKind (kind : SetKind) : Item := .value (.int .int kind.code.toNat)

end Item

namespace Session

def items (s : Session) : List Item := s.results.map (·.item)

def item (s : Session) (i : Nat) : Item := nth s.items i

def child (s : Session) : Child → Item
  | .nothing => .null
  | .unset => .unset
  | .part e _ => .expr e
  | .result i => s.item i

def call (s : Session) : SetCall → Run Item
  | .newSet kind cs => operation "NewSet" (.ofKind kind :: cs.map s.child)
  | .newBuilder kind => operation "NewSetBuilder" [.ofKind kind]
  | .add i cs => operation ".Add" (s.item i :: cs.map s.child)
  | .build i => operation ".Build" [s.item i]

-- All that was handed over for a result. A builder goes on collecting.
def handedTo (s : Session) (i : Nat) : List Item :=
  match s.item i with
  | .builder n => s.pending.getD n []
  | _ => (s.results[i]?.map (·.handed)).getD []

-- What a call hands over, after what was handed over before for the same set.
def handedBy (s : Session) : SetCall → List Item
  | .newSet _ cs => cs.map s.child
  | .newBuilder _ => []
  | .add i cs => s.handedTo i ++ cs.map s.child
  | .build i => s.handedTo i

def pendingAfter (s : Session) : SetCall → List (List Item)
  | .newBuilder kind => s.pending ++ [s.handedBy (.newBuilder kind)]
  | .add i cs =>
    match s.item i with
    | .builder n => s.pending.set n (s.handedBy (.add i cs))
    | _ => s.pending
  | _ => s.pending

-- A call that fails leaves everything as it was.
def step (s : Session) (c : SetCall) : Session :=
  match (s.call c).run s.builders with
  | .ok (item, builders) =>
    { results := s.results ++ [⟨item, s.handedBy c⟩], builders, pending := s.pendingAfter c }
  | .error _ => s

def run (cs : List SetCall) : Session := cs.foldl step {}

def cell (s : Session) : Child → Cell
  | .nothing => .part .null
  | .unset => .part .null
  | .part e _ => .part e
  | .result i => if i < s.results.length then .set i else .part .null

-- What a call does to memory.
def store (grow : Nat → Nat → Nat) (s : Session) (st : Store) (c : SetCall) : Store :=
  if ((s.call c).run s.builders).isOk then
    match c with
    | .newSet kind cs => st.newSet grow kind (cs.map s.cell)
    | .newBuilder kind => st.newBuilder kind
    | .add i cs => st.add grow i (cs.map s.cell)
    | .build i => st.build i
  else st

def storeAll (grow : Nat → Nat → Nat) : Session → Store → List SetCall → Store
  | _, st, [] => st
  | s, st, c :: cs => storeAll grow (s.step c) (s.store grow st c) cs

-- Memory after some calls.
def stored (grow : Nat → Nat → Nat) (cs : List SetCall) : Store := storeAll grow {} {} cs

end Session

section Operations

variable {kind : SetKind} {items : List Item} {bs bs' : List SetBuilder} {out : Item}

theorem bind_ok {α β : Type} {x : Run α} {f : α → Run β} {b : β}
    (h : (x >>= f).run bs = .ok (b, bs')) :
    ∃ a bs'', x.run bs = .ok (a, bs'') ∧ (f a).run bs'' = .ok (b, bs') := by
  rw [StateT.run_bind] at h
  cases hx : x.run bs with
  | error e => simp [hx, Bind.bind, Except.bind] at h
  | ok p => exact ⟨p.1, p.2, rfl, by simpa [hx, Bind.bind, Except.bind] using h⟩

theorem code_ofKind (kind : SetKind) : (Item.ofKind kind).code = pure kind.code := by
  have hcode : (kind.code.toNat : Int) % 256 = kind.code.toNat := by
    have := kind.code.toNat_lt
    omega
  rw [Item.ofKind, Item.code, hcode, Int.toNat_natCast, UInt8.ofNat_toNat]

theorem exprOrNull_ok (kind : SetKind) {i : Item} {e : Expr}
    (h : i.exprOrNull.run bs = .ok (e, bs')) : bs' = bs ∧ Expr.spliced kind e = i.given kind := by
  cases i with
  | expr e' =>
    cases h
    refine ⟨rfl, ?_⟩
    cases e <;> simp [Item.given, Expr.spliced]
  | unset =>
    cases h
    exact ⟨rfl, rfl⟩
  | value v =>
    cases v with
    | null =>
      cases h
      exact ⟨rfl, rfl⟩
    | _ => cases h
  | _ => cases h

theorem children_ok (kind : SetKind) {es : List Expr}
    (h : (items.mapM Item.exprOrNull).run bs = .ok (es, bs')) :
    bs' = bs ∧ es.flatMap (Expr.spliced kind) = items.flatMap (Item.given kind) := by
  induction items generalizing bs es with
  | nil =>
    cases h
    exact ⟨rfl, rfl⟩
  | cons i items ih =>
    rw [List.mapM_cons] at h
    obtain ⟨e, bs₁, he, h⟩ := bind_ok h
    obtain ⟨es', bs₂, hes, h⟩ := bind_ok h
    cases h
    obtain ⟨rfl, hfirst⟩ := exprOrNull_ok kind he
    obtain ⟨rfl, hrest⟩ := ih hes
    exact ⟨rfl, by rw [List.flatMap_cons, List.flatMap_cons, hfirst, hrest]⟩

theorem newSet_ok (h : (operation "NewSet" (.ofKind kind :: items)).run bs = .ok (out, bs')) :
    bs' = bs ∧ out = .expr (.set kind (items.flatMap (Item.given kind))) := by
  have hop : operation "NewSet" (.ofKind kind :: items) = do
      let code ← (Item.ofKind kind).code
      return .expr (Expr.join ⟨code⟩ (← items.mapM Item.exprOrNull)) := rfl
  rw [hop, code_ofKind, pure_bind] at h
  obtain ⟨es, bs₁, hes, h⟩ := bind_ok h
  cases h
  obtain ⟨rfl, hgiven⟩ := children_ok kind hes
  exact ⟨rfl, by rw [← hgiven]; rfl⟩

theorem newSetBuilder_ok (h : (operation "NewSetBuilder" [.ofKind kind]).run bs = .ok (out, bs')) :
    bs' = bs ++ [⟨kind, []⟩] ∧ out = .builder bs.length := by
  have hop : operation "NewSetBuilder" [.ofKind kind] = do
      let code ← (Item.ofKind kind).code
      let n := (← get).length
      modify (· ++ [{ kind := ⟨code⟩ }])
      return .builder n := rfl
  rw [hop, code_ofKind, pure_bind] at h
  cases h
  exact ⟨rfl, rfl⟩

theorem add_set_ok {children : List Expr}
    (h : (operation ".Add" (.expr (.set kind children) :: items)).run bs = .ok (out, bs')) :
    bs' = bs ∧ out = .expr (.set kind (children ++ items.flatMap (Item.given kind))) := by
  have hop : operation ".Add" (.expr (.set kind children) :: items) = do
      return .expr (Expr.add kind children (← items.mapM Item.exprOrNull)) := rfl
  rw [hop] at h
  obtain ⟨es, bs₁, hes, h⟩ := bind_ok h
  cases h
  obtain ⟨rfl, hgiven⟩ := children_ok kind hes
  exact ⟨rfl, by rw [← hgiven]; rfl⟩

theorem add_builder_ok {n : Nat} {b : SetBuilder} (hb : bs[n]? = some b)
    (h : (operation ".Add" (.builder n :: items)).run bs = .ok (out, bs')) :
    bs' = bs.set n { b with items := b.items ++ items.flatMap (Item.given b.kind) } ∧
      out = .builder n := by
  have hop : operation ".Add" (.builder n :: items) = do
      let b := (← get).getD n default
      let b := b.add (← items.mapM Item.exprOrNull)
      modify fun bs => bs.set n b
      return .builder n := rfl
  rw [hop] at h
  obtain ⟨_, _, ⟨⟩, h⟩ := bind_ok h
  obtain ⟨es, bs₁, hes, h⟩ := bind_ok h
  cases h
  obtain ⟨rfl, hgiven⟩ := children_ok b.kind hes
  have hget : bs₁.getD n default = b := by rw [List.getD_eq_getElem?_getD, hb]; rfl
  rw [hget]
  exact ⟨by rw [← hgiven]; rfl, rfl⟩

theorem build_ok {n : Nat} {b : SetBuilder} (hb : bs[n]? = some b)
    (h : (operation ".Build" [.builder n]).run bs = .ok (out, bs')) :
    bs' = bs ∧ out = .expr (.set b.kind b.items) := by
  have hop : operation ".Build" [.builder n] = do
      let b := (← get).getD n default
      return .expr b.build := rfl
  have hget : bs.getD n default = b := by rw [List.getD_eq_getElem?_getD, hb]; rfl
  rw [hop] at h
  cases h
  exact ⟨rfl, by rw [hget]; rfl⟩

end Operations

section Invariant

theorem given_part {e : Expr} (h : ∀ kind, e.isSetOf kind = false) (kind : SetKind) :
    (Item.expr e).given kind = [e] := by
  cases e with
  | set k children => exact absurd (h k) (by simp [Expr.isSetOf])
  | _ => rfl

-- The children of a set are what was handed over for it, and none is a set of its kind.
structure Gathers (kind : SetKind) (children : List Expr) (handed : List Item) : Prop where
  eq : children = handed.flatMap (Item.given kind)
  flat : ∀ e ∈ children, e.isSetOf kind = false

theorem Gathers.nil (kind : SetKind) : Gathers kind [] [] := ⟨rfl, by simp⟩

theorem Gathers.append {kind : SetKind} {children : List Expr} {handed more : List Item}
    (h : Gathers kind children handed)
    (hmore : ∀ i ∈ more, ∀ e ∈ i.given kind, e.isSetOf kind = false) :
    Gathers kind (children ++ more.flatMap (Item.given kind)) (handed ++ more) where
  eq := by rw [h.eq, List.flatMap_append]
  flat := List.forall_mem_append.mpr ⟨h.flat, List.forall_mem_flatMap.mpr hmore⟩

theorem forall₂_set {α β : Type} {R : α → β → Prop} {as : List α} {bs : List β} {a : α} {b : β}
    (h : List.Forall₂ R as bs) (hab : R a b) (n : Nat) :
    List.Forall₂ R (as.set n a) (bs.set n b) := by
  induction h generalizing n with
  | nil => exact .nil
  | cons hxy hrest ih =>
    cases n with
    | zero => exact .cons hab hrest
    | succ n => exact .cons hxy (ih n)

namespace Session

variable {s : Session}

-- Every set and every builder holds what was handed over for it.
structure IsSound (s : Session) : Prop where
  result : ∀ r ∈ s.results,
    (∃ kind children, r.item = .expr (.set kind children) ∧ Gathers kind children r.handed) ∨
      ∃ n, r.item = .builder n ∧ n < s.builders.length
  pending : List.Forall₂ (fun b handed => Gathers b.kind b.items handed) s.builders s.pending

theorem IsSound.pending_at (hs : s.IsSound) {n : Nat} (hn : n < s.builders.length) :
    ∃ b, s.builders[n]? = some b ∧ Gathers b.kind b.items (s.pending.getD n []) := by
  obtain ⟨hlength, hall⟩ := List.forall₂_iff_get.mp hs.pending
  refine ⟨s.builders[n], List.getElem?_eq_getElem hn, ?_⟩
  have hn' : n < s.pending.length := hlength ▸ hn
  rw [List.getD_eq_getElem?_getD, List.getElem?_eq_getElem hn', Option.getD_some]
  exact hall n hn hn'

theorem IsSound.item_cases (hs : s.IsSound) (i : Nat) :
    s.item i = .null ∨
      (∃ kind children, s.item i = .expr (.set kind children) ∧
        Gathers kind children (s.handedTo i)) ∨
      ∃ n b, s.item i = .builder n ∧ s.builders[n]? = some b ∧
        Gathers b.kind b.items (s.handedTo i) := by
  cases hr : s.results[i]? with
  | none => exact .inl (by simp [item, items, nth, hr])
  | some r =>
    have hitem : s.item i = r.item := by simp [item, items, nth, hr]
    right
    obtain ⟨kind, children, hset, hgathers⟩ | ⟨n, hbuilder, hn⟩ :=
      hs.result r (List.mem_of_getElem? hr)
    · refine .inl ⟨kind, children, hitem.trans hset, ?_⟩
      simpa [handedTo, hitem, hset, hr] using hgathers
    · obtain ⟨b, hb, hgathers⟩ := hs.pending_at hn
      refine .inr ⟨n, b, hitem.trans hbuilder, hb, ?_⟩
      simpa [handedTo, hitem, hbuilder] using hgathers

-- No child gives a set of a kind to a set of that kind, as earlier sets are flat.
theorem IsSound.child_flat (hs : s.IsSound) (kind : SetKind) (c : Child) :
    ∀ e ∈ (s.child c).given kind, e.isSetOf kind = false := by
  have hset : ∀ {k children handed}, Gathers k children handed →
      ∀ e ∈ (Item.expr (.set k children)).given kind, e.isSetOf kind = false := by
    intro k children handed hgathers
    rw [Item.given]
    split
    · next hk => exact hk ▸ hgathers.flat
    · next hk => simpa [Expr.isSetOf] using hk
  cases c with
  | nothing | unset => exact List.forall_mem_singleton.mpr rfl
  | part e h =>
    rw [child, given_part h]
    exact List.forall_mem_singleton.mpr (h kind)
  | result i =>
    rw [child]
    obtain hnull | ⟨k, children, hitem, hgathers⟩ | ⟨n, b, hitem, -⟩ := hs.item_cases i
    · rw [hnull]
      exact List.forall_mem_singleton.mpr rfl
    · rw [hitem]
      exact hset hgathers
    · rw [hitem]
      exact List.forall_mem_singleton.mpr rfl

theorem IsSound.children_flat (hs : s.IsSound) (kind : SetKind) (cs : List Child) :
    ∀ i ∈ cs.map s.child, ∀ e ∈ i.given kind, e.isSetOf kind = false :=
  List.forall_mem_map.mpr fun c _ => hs.child_flat kind c

theorem IsSound.extend (hs : s.IsSound) {out : Item} {handed : List Item} {bs : List SetBuilder}
    {pending : List (List Item)} (hlength : s.builders.length ≤ bs.length)
    (hout : (∃ kind children, out = .expr (.set kind children) ∧ Gathers kind children handed) ∨
      ∃ n, out = .builder n ∧ n < bs.length)
    (hpending : List.Forall₂ (fun b handed => Gathers b.kind b.items handed) bs pending) :
    IsSound ⟨s.results ++ [⟨out, handed⟩], bs, pending⟩ where
  result := by
    refine List.forall_mem_append.mpr ⟨fun r hr => ?_, List.forall_mem_singleton.mpr hout⟩
    exact (hs.result r hr).imp_right fun ⟨n, hitem, hn⟩ => ⟨n, hitem, hn.trans_le hlength⟩
  pending := hpending

-- What a call that succeeds gives, and the builders after it.
inductive Gives (s : Session) : SetCall → Item → List SetBuilder → Prop
  | newSet (kind : SetKind) (cs : List Child) : Gives s (.newSet kind cs)
      (.expr (.set kind ((cs.map s.child).flatMap (Item.given kind)))) s.builders
  | newBuilder (kind : SetKind) : Gives s (.newBuilder kind)
      (.builder s.builders.length) (s.builders ++ [⟨kind, []⟩])
  | addSet {i : Nat} {kind : SetKind} {children : List Expr} (cs : List Child)
      (hitem : s.item i = .expr (.set kind children))
      (hgathers : Gathers kind children (s.handedTo i)) : Gives s (.add i cs)
      (.expr (.set kind (children ++ (cs.map s.child).flatMap (Item.given kind)))) s.builders
  | addBuilder {i n : Nat} {b : SetBuilder} (cs : List Child) (hitem : s.item i = .builder n)
      (hb : s.builders[n]? = some b) (hgathers : Gathers b.kind b.items (s.handedTo i)) :
      Gives s (.add i cs) (.builder n) (s.builders.set n
        { b with items := b.items ++ (cs.map s.child).flatMap (Item.given b.kind) })
  | build {i n : Nat} {b : SetBuilder} (hitem : s.item i = .builder n)
      (hb : s.builders[n]? = some b) (hgathers : Gathers b.kind b.items (s.handedTo i)) :
      Gives s (.build i) (.expr (.set b.kind b.items)) s.builders

theorem IsSound.gives (hs : s.IsSound) {c : SetCall} {out : Item} {bs : List SetBuilder}
    (hrun : (s.call c).run s.builders = .ok (out, bs)) : s.Gives c out bs := by
  cases c with
  | newSet kind cs =>
    obtain ⟨rfl, rfl⟩ := newSet_ok hrun
    exact .newSet kind cs
  | newBuilder kind =>
    obtain ⟨rfl, rfl⟩ := newSetBuilder_ok hrun
    exact .newBuilder kind
  | add i cs =>
    obtain hitem | ⟨kind, children, hitem, hgathers⟩ | ⟨n, b, hitem, hb, hgathers⟩ :=
      hs.item_cases i
    all_goals simp only [call, hitem] at hrun
    · cases hrun
    · obtain ⟨rfl, rfl⟩ := add_set_ok hrun
      exact .addSet cs hitem hgathers
    · obtain ⟨rfl, rfl⟩ := add_builder_ok hb hrun
      exact .addBuilder cs hitem hb hgathers
  | build i =>
    obtain hitem | ⟨kind, children, hitem, -⟩ | ⟨n, b, hitem, hb, hgathers⟩ := hs.item_cases i
    all_goals simp only [call, hitem] at hrun
    · cases hrun
    · cases hrun
    · obtain ⟨rfl, rfl⟩ := build_ok hb hrun
      exact .build hitem hb hgathers

theorem IsSound.step (hs : s.IsSound) (c : SetCall) : (s.step c).IsSound := by
  unfold Session.step
  cases hrun : (s.call c).run s.builders with
  | error e => exact hs
  | ok p =>
    obtain ⟨out, bs⟩ := p
    dsimp only
    cases hs.gives hrun with
    | newSet kind cs =>
      have hgathers := (Gathers.nil kind).append (hs.children_flat kind cs)
      exact hs.extend le_rfl (.inl ⟨kind, _, rfl, hgathers⟩) hs.pending
    | newBuilder kind =>
      refine hs.extend (by simp) (.inr ⟨_, rfl, by simp⟩) ?_
      exact List.rel_append hs.pending (.cons (Gathers.nil kind) .nil)
    | @addSet i kind children cs hitem hgathers =>
      have hmore := hgathers.append (hs.children_flat kind cs)
      simp only [pendingAfter, hitem]
      exact hs.extend le_rfl (.inl ⟨kind, _, rfl, hmore⟩) hs.pending
    | @addBuilder i n b cs hitem hb hgathers =>
      have hmore := hgathers.append (hs.children_flat b.kind cs)
      have hn : n < s.builders.length := (List.getElem?_eq_some_iff.mp hb).1
      simp only [pendingAfter, hitem]
      exact hs.extend (by simp) (.inr ⟨n, rfl, by simpa using hn⟩)
        (forall₂_set hs.pending hmore n)
    | @build i n b hitem hb hgathers =>
      exact hs.extend le_rfl (.inl ⟨b.kind, b.items, rfl, hgathers⟩) hs.pending

theorem isSound_run (cs : List SetCall) : (run cs).IsSound := by
  have hfold : ∀ (cs : List SetCall) (s : Session), s.IsSound → (cs.foldl Session.step s).IsSound := by
    intro cs
    induction cs with
    | nil => exact fun _ hs => hs
    | cons c cs ih => exact fun s hs => ih _ (hs.step c)
  exact hfold cs {} ⟨by simp, .nil⟩

end Session
end Invariant

end QueryTree.Script
