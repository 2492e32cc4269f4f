import QueryTree.Sql.Render

namespace QueryTree

namespace Pattern

-- A character behind the escape character, or one by itself.
inductive Item where
  | escaped (c : Char)
  | bare (c : Char)
deriving DecidableEq

-- A pattern that ends in an escape character cannot be read.
def read (escape : Char) : List Char → Option (List Item)
  | [] => some []
  | c :: cs =>
    if c == escape then
      match cs with
      | [] => none
      | d :: cs => (read escape cs).map (.escaped d :: ·)
    else (read escape cs).map (.bare c :: ·)

def spelled (escape : Char) (items : List Item) : List Char :=
  items.flatMap fun
    | .escaped c => [escape, c]
    | .bare c => [c]

-- A percent sign by itself matches any text, and an underscore any character.
def fits : List Item → List Char → Bool
  | [], cs => cs.isEmpty
  | .escaped c :: items, cs => cs.head? == some c && fits items cs.tail
  | .bare c :: items, cs =>
    if c == '%' then (List.range (cs.length + 1)).any fun n => fits items (cs.drop n)
    else (cs.head? == some c || (c == '_' && !cs.isEmpty)) && fits items cs.tail

def accepts (escape : Char) (pattern text : String) : Bool :=
  (read escape pattern.toList).any (fits · text.toList)

theorem spelled_of_read {escape : Char} {cs : List Char} {items : List Item}
    (h : read escape cs = some items) : spelled escape items = cs := by
  fun_induction read escape cs generalizing items with
  | case1 =>
    cases h
    rfl
  | case2 c hc => cases h
  | case3 c hc d cs ih =>
    obtain ⟨rest, hrest, rfl⟩ := Option.map_eq_some_iff.mp h
    have hescape : c = escape := by simpa using hc
    rw [spelled, List.flatMap_cons, ← spelled, ih hrest, hescape]
    rfl
  | case4 c cs hc ih =>
    obtain ⟨rest, hrest, rfl⟩ := Option.map_eq_some_iff.mp h
    rw [spelled, List.flatMap_cons, ← spelled, ih hrest]
    rfl

section Reading

variable {escape : Char}

theorem read_escape (d : Char) (cs : List Char) :
    read escape (escape :: d :: cs) = (read escape cs).map (.escaped d :: ·) := by
  simp [read]

theorem read_bare {c : Char} (hc : c ≠ escape) (cs : List Char) :
    read escape (c :: cs) = (read escape cs).map (.bare c :: ·) := by
  cases cs <;> simp [read, hc]

def ofText (escape : Char) (cs : List Char) : List Item :=
  cs.map fun c => if c == escape || likeSpecials.contains c then .escaped c else .bare c

theorem read_escapeLike (cs rest : List Char) :
    read escape (escapeLikeChars escape cs ++ rest) =
      (read escape rest).map (ofText escape cs ++ ·) := by
  induction cs with
  | nil => simp [escapeLikeChars, ofText]
  | cons c cs ih =>
    have hcons : escapeLikeChars escape (c :: cs) =
        (if c == escape || likeSpecials.contains c then [escape, c] else [c]) ++
          escapeLikeChars escape cs := rfl
    rw [hcons, List.append_assoc, ofText, List.map_cons, ← ofText]
    by_cases hc : (c == escape || likeSpecials.contains c) = true
    · rw [if_pos hc, if_pos hc, List.cons_append, List.cons_append, List.nil_append, read_escape,
        ih, Option.map_map]
      rfl
    · have hescape : c ≠ escape := by
        intro h
        simp [h] at hc
      rw [if_neg hc, if_neg hc, List.cons_append, List.nil_append, read_bare hescape, ih,
        Option.map_map]
      rfl

theorem bracket_not_mem_ofText (cs : List Char) : Item.bare '[' ∉ ofText escape cs := by
  intro h
  obtain ⟨c, -, hitem⟩ := List.mem_map.mp h
  split at hitem
  · cases hitem
  · next hc =>
    cases hitem
    exact hc (by simp [likeSpecials])

end Reading

section Matching

variable {escape : Char} {items : List Item} {cs : List Char}

theorem fits_any :
    fits (.bare '%' :: items) cs = true ↔ ∃ us vs, cs = us ++ vs ∧ fits items vs = true := by
  simp only [fits, beq_self_eq_true, if_true, List.any_eq_true, List.mem_range]
  constructor
  · rintro ⟨n, -, hn⟩
    exact ⟨cs.take n, cs.drop n, (List.take_append_drop n cs).symm, hn⟩
  · rintro ⟨us, vs, rfl, hvs⟩
    refine ⟨us.length, by simp only [List.length_append]; omega, ?_⟩
    rwa [List.drop_left]

theorem fits_ofText (us : List Char) :
    fits (ofText escape us ++ items) cs = true ↔ ∃ vs, cs = us ++ vs ∧ fits items vs = true := by
  induction us generalizing cs with
  | nil => simp [ofText]
  | cons c us ih =>
    -- Either the character is escaped, or it is no wildcard.
    have hstep : fits (ofText escape (c :: us) ++ items) cs =
        (cs.head? == some c && fits (ofText escape us ++ items) cs.tail) := by
      rw [ofText, List.map_cons, ← ofText, List.cons_append]
      split
      · rfl
      · next hc =>
        have hspecial : c ≠ '%' ∧ c ≠ '_' := by
          constructor
          all_goals
            rintro rfl
            simp [likeSpecials] at hc
        have hone : (c == '_') = false := by simpa using hspecial.2
        simp [fits, hspecial.1, hone]
    rw [hstep, Bool.and_eq_true, ih]
    cases cs with
    | nil => simp
    | cons x xs =>
      simp only [List.head?_cons, beq_iff_eq, Option.some.injEq, List.tail_cons, List.cons_append,
        List.cons.injEq]
      constructor
      · rintro ⟨rfl, vs, rfl, hvs⟩
        exact ⟨vs, ⟨rfl, rfl⟩, hvs⟩
      · rintro ⟨vs, ⟨rfl, rfl⟩, hvs⟩
        exact ⟨rfl, vs, rfl, hvs⟩

theorem fits_nil : fits [] cs = true ↔ cs = [] := by simp [fits]

end Matching

def leading (op : LogicOp) : List Char := if op.positive == .startsWith then [] else ['%']

def trailing (op : LogicOp) : List Char :=
  if op.positive != .startsWith && op.positive == .endsWith then [] else ['%']

theorem leading_subset (op : LogicOp) : leading op ⊆ ['%'] := by
  unfold leading
  split <;> simp

theorem trailing_subset (op : LogicOp) : trailing op ⊆ ['%'] := by
  unfold trailing
  split <;> simp

theorem toList_wrapPattern (op : LogicOp) (s : String) :
    (wrapPattern op s).toList = leading op ++ s.toList ++ trailing op := by
  unfold wrapPattern leading trailing
  by_cases hstart : op.positive = .startsWith
  · simp [hstart]
  · by_cases hend : op.positive = .endsWith <;> simp [hstart, hend]

theorem read_wildcards {escape : Char} (hescape : escape ≠ '%') {cs : List Char}
    (hcs : cs ⊆ ['%']) (rest : List Char) :
    read escape (cs ++ rest) = (read escape rest).map (cs.map .bare ++ ·) := by
  induction cs with
  | nil => simp
  | cons c cs ih =>
    obtain ⟨hc, hrest⟩ := List.cons_subset.mp hcs
    have hne : c ≠ escape := by
      rw [List.mem_singleton.mp hc]
      exact hescape.symm
    rw [List.cons_append, read_bare hne, ih hrest, Option.map_map]
    rfl

def itemsOf (escape : Char) (op : LogicOp) (s : String) : List Item :=
  (leading op).map .bare ++ ofText escape s.toList ++ (trailing op).map .bare

theorem read_wrapPattern {escape : Char} (hescape : escape ≠ '%') (op : LogicOp) (s : String) :
    read escape (wrapPattern op (escapeLike s escape)).toList = some (itemsOf escape op s) := by
  have hlast := read_wildcards hescape (trailing_subset op) []
  rw [List.append_nil] at hlast
  rw [toList_wrapPattern, List.append_assoc, read_wildcards hescape (leading_subset op), escapeLike,
    String.toList_ofList, read_escapeLike, hlast]
  simp [read, itemsOf]

theorem bracket_not_mem_itemsOf (escape : Char) (op : LogicOp) (s : String) :
    Item.bare '[' ∉ itemsOf escape op s := by
  have hwild : ∀ cs : List Char, cs ⊆ ['%'] → Item.bare '[' ∉ cs.map Item.bare := by
    intro cs hcs h
    obtain ⟨c, hc, hitem⟩ := List.mem_map.mp h
    cases hitem
    exact absurd (List.mem_singleton.mp (hcs hc)) (by decide)
  simp only [itemsOf, List.mem_append, not_or]
  exact ⟨⟨hwild _ (leading_subset op), bracket_not_mem_ofText _⟩, hwild _ (trailing_subset op)⟩

section Finding

variable {escape : Char} {op : LogicOp} {s : String} {cs : List Char}

theorem fits_startsWith (hop : op.positive = .startsWith) :
    fits (itemsOf escape op s) cs = true ↔ s.toList <+: cs := by
  have hitems : itemsOf escape op s = ofText escape s.toList ++ [.bare '%'] := by
    simp [itemsOf, leading, trailing, hop]
  rw [hitems, fits_ofText]
  simp only [fits_any, fits_nil]
  constructor
  · rintro ⟨vs, rfl, -⟩
    exact List.prefix_append _ _
  · rintro ⟨vs, rfl⟩
    exact ⟨vs, rfl, vs, [], (List.append_nil vs).symm, rfl⟩

theorem fits_endsWith (hop : op.positive = .endsWith) :
    fits (itemsOf escape op s) cs = true ↔ s.toList <:+ cs := by
  have hitems : itemsOf escape op s = .bare '%' :: (ofText escape s.toList ++ []) := by
    simp [itemsOf, leading, trailing, hop]
  rw [hitems, fits_any]
  simp only [fits_ofText, fits_nil]
  constructor
  · rintro ⟨us, -, rfl, -, rfl, rfl⟩
    rw [List.append_nil]
    exact List.suffix_append _ _
  · rintro ⟨us, rfl⟩
    exact ⟨us, s.toList, rfl, [], (List.append_nil _).symm, rfl⟩

theorem fits_contains (hop : op.positive = .contains) :
    fits (itemsOf escape op s) cs = true ↔ s.toList <:+: cs := by
  have hitems : itemsOf escape op s =
      .bare '%' :: (ofText escape s.toList ++ [.bare '%']) := by
    simp [itemsOf, leading, trailing, hop]
  rw [hitems, fits_any]
  simp only [fits_ofText, fits_any, fits_nil]
  constructor
  · rintro ⟨us, -, rfl, vs, rfl, -⟩
    exact ⟨us, vs, List.append_assoc _ _ _⟩
  · rintro ⟨us, vs, rfl⟩
    exact ⟨us, s.toList ++ vs, List.append_assoc _ _ _, vs, rfl, vs, [],
      (List.append_nil vs).symm, rfl⟩

end Finding

-- A text made into a pattern matches where the text begins, ends or is found, and every bracket in
-- the pattern is an escape character or behind one.
theorem escaped_pattern_matches (escape : Char) (hescape : escape ≠ '%') (op : LogicOp)
    (s text : String) :
    let pattern := wrapPattern op (escapeLike s escape)
    (op.positive = .startsWith → (accepts escape pattern text = true ↔ s.toList <+: text.toList)) ∧
    (op.positive = .endsWith → (accepts escape pattern text = true ↔ s.toList <:+ text.toList)) ∧
    (op.positive = .contains → (accepts escape pattern text = true ↔ s.toList <:+: text.toList)) ∧
    ∃ items, read escape pattern.toList = some items ∧ spelled escape items = pattern.toList ∧
      Item.bare '[' ∉ items := by
  intro pattern
  have hread : read escape pattern.toList = some (itemsOf escape op s) :=
    read_wrapPattern hescape op s
  have haccepts : accepts escape pattern text = fits (itemsOf escape op s) text.toList := by
    simp only [accepts, hread, Option.any_some]
  rw [haccepts]
  refine ⟨fits_startsWith, fits_endsWith, fits_contains, ?_⟩
  exact ⟨_, hread, spelled_of_read hread, bracket_not_mem_itemsOf escape op s⟩

-- The escape character may be a wildcard or the bracket itself.
theorem escaped_pattern_matches_underscore :
    wrapPattern .contains (escapeLike "_[%" '_') = "%___[_%%" ∧
    (accepts '_' "%___[_%%" "a_[%b" = true ↔ "_[%".toList <:+: "a_[%b".toList) ∧
    wrapPattern .notStartsWith (escapeLike "[a" '[') = "[[a%" ∧
    (accepts '[' "[[a%" "[ab" = true ↔ "[a".toList <+: "[ab".toList) :=
  ⟨by decide +kernel,
    (escaped_pattern_matches '_' (by decide) .contains "_[%" "a_[%b").2.2.1 (by decide),
    by decide +kernel,
    (escaped_pattern_matches '[' (by decide) .notStartsWith "[a" "[ab").1 (by decide)⟩

-- A literal whose octets are not UTF-8 becomes a pattern of replacement characters, which a text
-- without those octets matches.
theorem escaped_pattern_stray :
    ∃ (bs : List UInt8) (s text : String), Text.Utf8.decode? bs = none ∧
      Render.patternText? (.value (.octets bs) false) = some s ∧
      accepts '/' (wrapPattern .contains (escapeLike s '/')) text = true ∧
      ¬ bs <:+: Text.Utf8.encode text :=
  ⟨[0xff], "\uFFFD", "\uFFFD", by decide +kernel, by decide +kernel, by decide +kernel,
    by decide +kernel⟩

end Pattern
end QueryTree
