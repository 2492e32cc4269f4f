import QueryTree.Lambda.Node

namespace QueryTree.Lambda.Node

def parts : Node → List Node
  | .ident .. | .literal .. => []
  | .selector _ x _ | .prefixed _ _ x | .star _ x | .paren _ x => [x]
  | .call _ fn args => fn :: args
  | .infixed _ _ x y | .index _ x y | .pair _ x y => [x, y]
  | .composite _ type items => type.toList ++ items
  | .lambda _ _ _ result => result.toList
  | .arrayType _ size elem => size.toList ++ [elem]
  | .other _ _ parts => parts

section Induction

variable {motive : Node → Prop}

mutual

-- What passes from the parts of a node to the node holds for every node.
theorem ofParts (step : ∀ n, (∀ m ∈ n.parts, motive m) → motive n) : (n : Node) → motive n
  | .ident s n => step (.ident s n) (by simp [parts])
  | .literal s v => step (.literal s v) (by simp [parts])
  | .selector s x n => step (.selector s x n) (by simpa [parts] using ofParts step x)
  | .prefixed s op x => step (.prefixed s op x) (by simpa [parts] using ofParts step x)
  | .star s x => step (.star s x) (by simpa [parts] using ofParts step x)
  | .paren s x => step (.paren s x) (by simpa [parts] using ofParts step x)
  | .call s fn args =>
    step (.call s fn args) (List.forall_mem_cons.mpr ⟨ofParts step fn, ofPartsAll step args⟩)
  | .infixed s op x y =>
    step (.infixed s op x y) (by simpa [parts] using ⟨ofParts step x, ofParts step y⟩)
  | .index s x y => step (.index s x y) (by simpa [parts] using ⟨ofParts step x, ofParts step y⟩)
  | .pair s x y => step (.pair s x y) (by simpa [parts] using ⟨ofParts step x, ofParts step y⟩)
  | .composite s type items =>
    step (.composite s type items)
      (List.forall_mem_append.mpr ⟨ofPartsOption step type, ofPartsAll step items⟩)
  | .lambda s param count result => step (.lambda s param count result) (ofPartsOption step result)
  | .arrayType s size elem =>
    step (.arrayType s size elem) (List.forall_mem_append.mpr
      ⟨ofPartsOption step size, by simpa using ofParts step elem⟩)
  | .other s kind ps => step (.other s kind ps) (ofPartsAll step ps)

theorem ofPartsAll (step : ∀ n, (∀ m ∈ n.parts, motive m) → motive n) :
    (ns : List Node) → ∀ m ∈ ns, motive m
  | [] => by simp
  | n :: ns => by simpa using ⟨ofParts step n, ofPartsAll step ns⟩

theorem ofPartsOption (step : ∀ n, (∀ m ∈ n.parts, motive m) → motive n) :
    (o : Option Node) → ∀ m ∈ o.toList, motive m
  | none => by simp
  | some n => by simpa using ofParts step n

end

end Induction

mutual

-- A node and all nodes inside it.
def nodes : Node → List Node
  | .ident s n => [.ident s n]
  | .literal s v => [.literal s v]
  | .selector s x n => .selector s x n :: x.nodes
  | .prefixed s op x => .prefixed s op x :: x.nodes
  | .star s x => .star s x :: x.nodes
  | .paren s x => .paren s x :: x.nodes
  | .call s fn args => .call s fn args :: (fn.nodes ++ nodesAll args)
  | .infixed s op x y => .infixed s op x y :: (x.nodes ++ y.nodes)
  | .index s x y => .index s x y :: (x.nodes ++ y.nodes)
  | .pair s x y => .pair s x y :: (x.nodes ++ y.nodes)
  | .composite s type items => .composite s type items :: (nodesOption type ++ nodesAll items)
  | .lambda s param count result => .lambda s param count result :: nodesOption result
  | .arrayType s size elem => .arrayType s size elem :: (nodesOption size ++ elem.nodes)
  | .other s kind ps => .other s kind ps :: nodesAll ps

def nodesAll : List Node → List Node
  | [] => []
  | n :: ns => n.nodes ++ nodesAll ns

def nodesOption : Option Node → List Node
  | none => []
  | some n => n.nodes

end

theorem nodesAll_eq (ns : List Node) : nodesAll ns = ns.flatMap nodes := by
  induction ns with
  | nil => rfl
  | cons n ns ih => rw [nodesAll, ih, List.flatMap_cons]

theorem nodesOption_eq (o : Option Node) : nodesOption o = o.toList.flatMap nodes := by
  cases o <;> simp [nodesOption]

theorem nodes_eq (n : Node) : n.nodes = n :: n.parts.flatMap nodes := by
  cases n <;> simp [nodes, parts, nodesAll_eq, nodesOption_eq]

theorem mem_nodes_self (n : Node) : n ∈ n.nodes := by
  rw [nodes_eq]
  exact List.mem_cons_self

theorem nodes_subset {n m : Node} (h : m ∈ n.parts) : ∀ x ∈ m.nodes, x ∈ n.nodes := by
  intro x hx
  rw [nodes_eq]
  exact List.mem_cons_of_mem n (List.mem_flatMap.mpr ⟨m, h, hx⟩)

theorem part_mem_nodes {n m : Node} (h : m ∈ n.parts) : m ∈ n.nodes :=
  nodes_subset h m (mem_nodes_self m)

theorem nodes_trans {n m : Node} (h : m ∈ n.nodes) : ∀ x ∈ m.nodes, x ∈ n.nodes := by
  induction n using ofParts with
  | step n ih =>
    rw [nodes_eq, List.mem_cons] at h
    obtain rfl | h := h
    · exact fun x hx => hx
    · obtain ⟨k, hk, hm⟩ := List.mem_flatMap.mp h
      exact fun x hx => nodes_subset hk x (ih k hk hm x hx)

-- The nodes inside a node, at any depth.
def inner (n : Node) : List Node := n.parts.flatMap nodes

theorem nodes_of_inner {n m : Node} (h : m ∈ n.inner) : m ∈ n.nodes := by
  rw [nodes_eq]
  exact List.mem_cons_of_mem n h

theorem inner_of_part {n m x : Node} (hm : m ∈ n.parts) (hx : x ∈ m.nodes) : x ∈ n.inner :=
  List.mem_flatMap.mpr ⟨m, hm, hx⟩

theorem unparen_mem_nodes (n : Node) : n.unparen ∈ n.nodes := by
  induction n using unparen.induct with
  | case1 s x ih => exact nodes_subset List.mem_cons_self _ ih
  | case2 n hparen =>
    rw [unparen]
    · exact mem_nodes_self n
    · exact hparen

-- What passes to a node from all that is inside holds for every node.
theorem ofInner {motive : Node → Prop} (step : ∀ n, (∀ m ∈ n.inner, motive m) → motive n)
    (n : Node) : motive n := by
  have hall : ∀ n : Node, ∀ m ∈ n.nodes, motive m := by
    intro n
    induction n using ofParts with
    | step n ih =>
      have hinner : ∀ m ∈ n.inner, motive m := by
        intro m hm
        obtain ⟨k, hk, hm⟩ := List.mem_flatMap.mp hm
        exact ih k hk m hm
      intro m hm
      rw [nodes_eq, List.mem_cons] at hm
      obtain rfl | hm := hm
      · exact step m hinner
      · exact hinner m hm
  exact hall n n (mem_nodes_self n)

end QueryTree.Lambda.Node
