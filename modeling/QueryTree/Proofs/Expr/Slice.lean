import QueryTree.Expr.Build

namespace QueryTree

-- A child as memory holds it: an expression that is no set, or a set by its number.
inductive Cell where
  | part (e : Expr)
  | set (i : Nat)

-- The arrays behind slices, each as long as its capacity.
abbrev Memory := List (List Cell)

-- The first cells of an array. A slice without an array is empty.
structure Slice where
  array : Option Nat := none
  length : Nat := 0

namespace Slice

def cells (m : Memory) (s : Slice) : List Cell := (s.array.bind (m[·]?)).getD []

def read (m : Memory) (s : Slice) : List Cell := (s.cells m).take s.length

def write (m : Memory) (s : Slice) (cells : List Cell) : Memory :=
  (s.array.map (m.set · cells)).getD m

-- A new array for some cells, with room for more.
def make (m : Memory) (cells : List Cell) (room : Nat) : Memory × Slice :=
  (m ++ [cells ++ List.replicate room (.part .null)], ⟨some m.length, cells.length⟩)

-- Appends in place while the array has room, and to a copy of it otherwise. How much room the copy
-- has is for the allocator to say.
def append (grow : Nat → Nat → Nat) (m : Memory) (s : Slice) (more : List Cell) : Memory × Slice :=
  let cells := s.cells m
  let all := s.read m ++ more
  if all.length ≤ cells.length then
    (s.write m (all ++ cells.drop all.length), { s with length := all.length })
  else make m all (grow cells.length all.length)

end Slice

-- What a call gives: a set, or a builder by its number.
inductive Object where
  | set (kind : SetKind) (children : Slice)
  | builder (n : Nat)

-- Sets and builders as memory holds them.
structure Store where
  memory : Memory := []
  objects : List Object := []
  builders : List (SetKind × Slice) := []

namespace Store

-- The cells that a child gives to a set of a kind: those of a set of that kind, else its own.
def spliced (objects : List Object) (kind : SetKind) (m : Memory) : Cell → List Cell
  | .part e => [.part e]
  | .set i =>
    match objects[i]? with
    | some (.set k s) => if k = kind then s.read m else [.set i]
    | _ => [.set i]

def flatten (grow : Nat → Nat → Nat) (objects : List Object) (kind : SetKind) :
    Memory → Slice → List Cell → Memory × Slice
  | m, dst, [] => (m, dst)
  | m, dst, c :: cs =>
    let (m, dst) := dst.append grow m (spliced objects kind m c)
    flatten grow objects kind m dst cs

section Calls

variable (grow : Nat → Nat → Nat) (st : Store)

def pending (n : Nat) : SetKind × Slice := st.builders.getD n (.and, {})

def withSet (kind : SetKind) (made : Memory × Slice) : Store :=
  { st with memory := made.1, objects := st.objects ++ [.set kind made.2] }

def withBuilder (n : Nat) (kind : SetKind) (made : Memory × Slice) : Store where
  memory := made.1
  objects := st.objects ++ [.builder n]
  builders := st.builders.set n (kind, made.2)

def newSet (kind : SetKind) (children : List Cell) : Store :=
  st.withSet kind (flatten grow st.objects kind st.memory {} children)

def newBuilder (kind : SetKind) : Store :=
  { st with
    objects := st.objects ++ [.builder st.builders.length],
    builders := st.builders ++ [(kind, {})] }

-- More children for a set go to a copy, more children for a builder to its own slice.
def add (i : Nat) (children : List Cell) : Store :=
  match st.objects[i]? with
  | some (.set kind s) =>
    let (m, copy) := Slice.make st.memory (s.read st.memory) children.length
    st.withSet kind (flatten grow st.objects kind m copy children)
  | some (.builder n) =>
    let (kind, s) := st.pending n
    st.withBuilder n kind (flatten grow st.objects kind st.memory s children)
  | none => st

-- A built set has a copy of what the builder has collected.
def build (i : Nat) : Store :=
  match st.objects[i]? with
  | some (.builder n) =>
    let (kind, s) := st.pending n
    st.withSet kind (Slice.make st.memory (s.read st.memory) 0)
  | _ => st

end Calls

end Store

namespace Cell

def shown (es : List Expr) : Cell → Expr
  | .part e => e
  | .set i => es.getD i .null

def isBelow (n : Nat) : Cell → Bool
  | .part _ => true
  | .set i => i < n

end Cell

def Object.shown (m : Memory) (es : List Expr) : Object → Expr
  | .set kind s => .set kind ((s.read m).map (Cell.shown es))
  | .builder _ => .null

-- The sets as expressions, with the children that memory holds now.
def Store.shown (st : Store) : List Expr :=
  st.objects.foldl (fun es o => es ++ [o.shown st.memory es]) []

namespace Slice

variable {m m' : Memory} {s t : Slice} {cs more : List Cell} {out : Memory × Slice}

structure IsIn (m : Memory) (s : Slice) : Prop where
  array : ∀ a ∈ s.array, a < m.length
  length : s.length ≤ (s.cells m).length

def Apart (s t : Slice) : Prop := ∀ a ∈ s.array, a ∉ t.array

theorem Apart.symm (h : s.Apart t) : t.Apart s := fun a ht hs => h a hs ht

theorem isIn_empty (m : Memory) : IsIn m {} := ⟨by simp, Nat.zero_le _⟩

theorem apart_empty (s : Slice) : s.Apart {} := fun a _ => Option.not_mem_none a

-- Some cells are appended to a slice. Whatever has no array in common with it stays as it is and
-- has none in common with the new slice.
structure Appends (m : Memory) (s : Slice) (more : List Cell) (out : Memory × Slice) : Prop where
  isIn : out.2.IsIn out.1
  read : out.2.read out.1 = s.read m ++ more
  frame : ∀ t : Slice, t.IsIn m → t.Apart s →
    t.IsIn out.1 ∧ t.Apart out.2 ∧ t.read out.1 = t.read m

theorem Appends.nil (h : s.IsIn m) : Appends m s [] (m, s) :=
  ⟨h, (List.append_nil _).symm, fun _ ht hts => ⟨ht, hts, rfl⟩⟩

theorem Appends.trans {out' : Memory × Slice} (h : Appends m s cs out)
    (h' : Appends out.1 out.2 more out') : Appends m s (cs ++ more) out' where
  isIn := h'.isIn
  read := by rw [h'.read, h.read, List.append_assoc]
  frame t ht hts := by
    obtain ⟨hin, hapart, hread⟩ := h.frame t ht hts
    obtain ⟨hin', hapart', hread'⟩ := h'.frame t hin hapart
    exact ⟨hin', hapart', hread'.trans hread⟩

theorem length_write (m : Memory) (s : Slice) (cs : List Cell) :
    (s.write m cs).length = m.length := by
  cases harray : s.array <;> simp [write, harray]

theorem cells_write (h : s.IsIn m) (hlength : cs.length = (s.cells m).length) :
    s.cells (s.write m cs) = cs := by
  cases harray : s.array with
  | none =>
    have hcs : cs.length = 0 := by simpa [cells, harray] using hlength
    simp [cells, harray, List.eq_nil_of_length_eq_zero hcs]
  | some a => simp [cells, write, harray, h.array a harray]

theorem cells_write_of_apart (h : t.Apart s) (m : Memory) (cs : List Cell) :
    t.cells (s.write m cs) = t.cells m := by
  cases ht : t.array with
  | none => simp [cells, ht]
  | some a =>
    cases hs : s.array with
    | none => simp [cells, write, hs]
    | some b =>
      have hne : b ≠ a := fun hba => h a ht (hba ▸ hs)
      simp [cells, write, ht, hs, List.getElem?_set_ne hne]

-- Arrays are never taken away, so a slice whose cells are the same reads the same.
theorem keeps_of_cells_eq (ht : t.IsIn m) (hlength : m.length ≤ m'.length)
    (hcells : t.cells m' = t.cells m) : t.IsIn m' ∧ t.read m' = t.read m :=
  ⟨⟨fun a ha => Nat.lt_of_lt_of_le (ht.array a ha) hlength, hcells ▸ ht.length⟩,
    by rw [read, hcells, read]⟩

theorem make_appends (m : Memory) (cs : List Cell) (room : Nat) :
    Appends m {} cs (make m cs room) where
  isIn := ⟨by simp [make], by simp [make, cells]⟩
  read := by simp [Slice.read, make, cells]
  frame t ht _ := by
    have hcells : t.cells (m ++ [cs ++ List.replicate room (.part .null)]) = t.cells m := by
      cases harray : t.array with
      | none => simp [cells, harray]
      | some a => simp [cells, harray, List.getElem?_append_left (ht.array a harray)]
    obtain ⟨hin, hread⟩ := keeps_of_cells_eq ht (by simp) hcells
    refine ⟨hin, fun a ha hfresh => ?_, hread⟩
    exact absurd (ht.array a ha) (by simp [make] at hfresh; omega)

-- An array with room is written beyond the slice, and no other slice has it.
theorem write_appends (h : s.IsIn m) (hroom : (s.read m ++ more).length ≤ (s.cells m).length) :
    Appends m s more
      (s.write m (s.read m ++ more ++ (s.cells m).drop (s.read m ++ more).length),
        { s with length := (s.read m ++ more).length }) := by
  generalize hall : s.read m ++ more = all at hroom ⊢
  have hcells : s.cells (s.write m (all ++ (s.cells m).drop all.length)) =
      all ++ (s.cells m).drop all.length :=
    cells_write h (by simp; omega)
  refine ⟨⟨fun a ha => ?_, ?_⟩, ?_, fun t ht hts => ?_⟩
  · exact length_write m s _ ▸ h.array a ha
  · change all.length ≤ (s.cells _).length
    simp [hcells]
  · change (s.cells _).take all.length = _
    rw [hcells, List.take_left, hall]
  · obtain ⟨hin, hread⟩ :=
      keeps_of_cells_eq ht (Nat.le_of_eq (length_write m s _).symm) (cells_write_of_apart hts m _)
    exact ⟨hin, hts, hread⟩

theorem append_appends (grow : Nat → Nat → Nat) (more : List Cell) (h : s.IsIn m) :
    Appends m s more (append grow m s more) := by
  unfold append
  dsimp only
  split
  · next hroom => exact write_appends h hroom
  · have hmade := make_appends m (s.read m ++ more)
      (grow (s.cells m).length (s.read m ++ more).length)
    exact ⟨hmade.isIn, hmade.read, fun t ht _ => hmade.frame t ht (apart_empty t)⟩

end Slice

namespace Store

open Slice

variable {objects : List Object} {kind : SetKind} {m m' : Memory} {s : Slice} {cs : List Cell}
  {out : Memory × Slice}

theorem pending_eq {st : Store} {n : Nat} {p : SetKind × Slice} (h : st.builders[n]? = some p) :
    st.pending n = p := by
  rw [pending, List.getD_eq_getElem?_getD, h, Option.getD_some]

theorem spliced_congr (h : ∀ k t, .set k t ∈ objects → t.read m' = t.read m) :
    spliced objects kind m' = spliced objects kind m := by
  funext c
  cases c with
  | part e => rfl
  | set i =>
    unfold spliced
    dsimp only
    split
    · next k t hi => rw [h k t (List.mem_of_getElem? hi)]
    · rfl

-- The sets that are spliced in have no array in common with the slice that grows, so each gives
-- what it held at first.
theorem flatten_appends (grow : Nat → Nat → Nat) (kind : SetKind) (children : List Cell)
    (h : Appends m s cs out) (hsets : ∀ k t, .set k t ∈ objects → t.IsIn m ∧ t.Apart s) :
    Appends m s (cs ++ children.flatMap (spliced objects kind m))
      (flatten grow objects kind out.1 out.2 children) := by
  induction children generalizing cs out with
  | nil => rwa [List.flatMap_nil, List.append_nil]
  | cons c children ih =>
    have hread : ∀ k t, .set k t ∈ objects → t.read out.1 = t.read m :=
      fun k t ht => (h.frame t (hsets k t ht).1 (hsets k t ht).2).2.2
    have hstep := append_appends grow (spliced objects kind m c) h.isIn
    rw [flatten, spliced_congr hread, List.flatMap_cons, ← List.append_assoc]
    exact ih (h.trans hstep)

end Store

section Shows

variable {es more children children' : List Expr} {cs cs' : List Cell} {m m' : Memory} {s : Slice}

-- Some cells stand for some children, and the sets among them are numbered.
structure Shows (es : List Expr) (cs : List Cell) (children : List Expr) : Prop where
  below : ∀ c ∈ cs, c.isBelow es.length
  eq : cs.map (Cell.shown es) = children

theorem Shows.nil (es : List Expr) : Shows es [] [] := ⟨by simp, rfl⟩

theorem Shows.part (es : List Expr) (e : Expr) : Shows es [.part e] [e] :=
  ⟨List.forall_mem_singleton.mpr rfl, rfl⟩

theorem Shows.set {i : Nat} {e : Expr} (h : es[i]? = some e) : Shows es [.set i] [e] where
  below := List.forall_mem_singleton.mpr (decide_eq_true (List.getElem?_eq_some_iff.mp h).1)
  eq := by simp [Cell.shown, h]

theorem Shows.append (h : Shows es cs children) (h' : Shows es cs' children') :
    Shows es (cs ++ cs') (children ++ children') :=
  ⟨List.forall_mem_append.mpr ⟨h.below, h'.below⟩, by rw [List.map_append, h.eq, h'.eq]⟩

theorem Cell.shown_append {c : Cell} (h : c.isBelow es.length) (more : List Expr) :
    c.shown (es ++ more) = c.shown es := by
  cases c with
  | part e => rfl
  | set i => simp_all [Cell.shown, Cell.isBelow, List.getElem?_append_left]

theorem Cell.isBelow_mono {c : Cell} {n k : Nat} (hnk : n ≤ k) (h : c.isBelow n) : c.isBelow k := by
  cases c with
  | part e => rfl
  | set i =>
    simp only [Cell.isBelow, decide_eq_true_eq] at h ⊢
    omega

-- Later sets change nothing.
theorem Shows.later (h : Shows es cs children) (more : List Expr) :
    Shows (es ++ more) cs children where
  below c hc := Cell.isBelow_mono (by simp) (h.below c hc)
  eq := (List.map_congr_left fun c hc => Cell.shown_append (h.below c hc) more).trans h.eq

structure Slice.Reads (m : Memory) (es : List Expr) (s : Slice) (children : List Expr) : Prop where
  isIn : s.IsIn m
  shows : Shows es (s.read m) children

theorem Slice.Reads.later (h : s.Reads m es children) (more : List Expr) :
    s.Reads m (es ++ more) children := ⟨h.isIn, h.shows.later more⟩

theorem Slice.Reads.keep (h : s.Reads m es children) (hin : s.IsIn m')
    (hread : s.read m' = s.read m) : s.Reads m' es children := ⟨hin, hread ▸ h.shows⟩

theorem Slice.Reads.append (h : s.Reads m es children) {out : Memory × Slice}
    (hout : s.Appends m cs out) (hcs : Shows es cs children') :
    out.2.Reads out.1 es (children ++ children') :=
  ⟨hout.isIn, hout.read ▸ h.shows.append hcs⟩

end Shows

end QueryTree
