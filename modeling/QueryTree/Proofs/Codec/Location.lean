import QueryTree.Proofs.Codec.Validity
import QueryTree.Proofs.Json.RoundTrip

namespace QueryTree

theorem Json.resolve?_isSome_of_prefix {j : Json} {steps way : List Step} (hway : way <+: steps)
    (h : (j.resolve? steps).isSome = true) : (j.resolve? way).isSome = true := by
  obtain ⟨rest, rfl⟩ := hway
  rw [resolve?_append, Option.isSome_bind] at h
  exact (Option.any_eq_true_iff_get _ _).mp h |>.1

namespace Codec

open Json (Step)

section Paths

def spelled : Step → List Char
  | .member key => '.' :: key.toList
  | .item i => '[' :: (toString i).toList ++ [']']

theorem toList_pathOf (path : String) (steps : List Step) :
    (pathOf path steps).toList = path.toList ++ steps.flatMap spelled := by
  induction steps generalizing path with
  | nil => simp [pathOf]
  | cons s steps ih =>
    rw [pathOf, List.foldl_cons, ← pathOf, ih]
    cases s <;> simp [after, child, index, spelled]

theorem eq_of_append_eq {p : Char → Bool} {xs ys rest rest' : List Char}
    (hxs : ∀ c ∈ xs, p c = true) (hys : ∀ c ∈ ys, p c = true)
    (hrest : ∀ c ∈ rest.head?, p c = false) (hrest' : ∀ c ∈ rest'.head?, p c = false)
    (h : xs ++ rest = ys ++ rest') : xs = ys ∧ rest = rest' := by
  have hfront : ∀ {xs rest : List Char}, (∀ c ∈ xs, p c = true) → (∀ c ∈ rest.head?, p c = false) →
      (xs ++ rest).takeWhile p = xs := by
    intro xs rest hxs hrest
    rw [List.takeWhile_append_of_pos hxs]
    cases rest with
    | nil => simp
    | cons c rest => simp [hrest c rfl]
  have heq : xs = ys := by rw [← hfront hxs hrest, h, hfront hys hrest']
  exact ⟨heq, List.append_cancel_left (heq ▸ h)⟩

theorem isDigit_of_mem_toString (n : Nat) : ∀ c ∈ (toString n).toList, c.isDigit = true :=
  fun _ hc => Nat.isDigit_of_mem_toDigits (by decide) (by decide) (Nat.toList_repr ▸ hc)

theorem toString_toList_inj {n m : Nat} (h : (toString n).toList = (toString m).toList) :
    n = m := by
  have hread : ∀ n : Nat, Nat.ofDigitChars 10 (toString n).toList 0 = n := fun n =>
    Nat.toList_repr ▸ Nat.ofDigitChars_toDigits (by decide) (by decide)
  rw [← hread n, h, hread]

theorem opensStep_of_head? (steps : List Step) :
    ∀ c ∈ (steps.flatMap spelled).head?, opensStep c = true := by
  intro c hc
  cases steps with
  | nil => cases hc
  | cons s steps => cases s <;> cases hc <;> rfl

-- The text of a path tells its steps.
theorem spelled_inj {steps steps' : List Step} (h : ∀ s ∈ steps, isPlain s = true)
    (h' : ∀ s ∈ steps', isPlain s = true) (heq : steps.flatMap spelled = steps'.flatMap spelled) :
    steps = steps' := by
  induction steps generalizing steps' with
  | nil =>
    cases steps' with
    | nil => rfl
    | cons s' steps' => cases s' <;> cases heq
  | cons s steps ih =>
    obtain ⟨hs, hsteps⟩ := List.forall_mem_cons.mp h
    cases steps' with
    | nil => cases s <;> cases heq
    | cons s' steps' =>
      obtain ⟨hs', hsteps'⟩ := List.forall_mem_cons.mp h'
      rw [List.flatMap_cons, List.flatMap_cons] at heq
      cases s with
      | member key =>
        cases s' with
        | item i => simp [spelled] at heq
        | member key' =>
          obtain ⟨hkey, hrest⟩ := eq_of_append_eq (p := fun c => !opensStep c)
            (by simpa [isPlain] using hs) (by simpa [isPlain] using hs')
            (by simpa using opensStep_of_head? steps) (by simpa using opensStep_of_head? steps')
            (List.cons.inj heq).2
          rw [String.toList_inj.mp hkey, ih hsteps hsteps' hrest]
      | item i =>
        cases s' with
        | member key => simp [spelled] at heq
        | item i' =>
          have hclosed : ∀ (n : Nat) (rest : List Char), spelled (.item n) ++ rest =
              '[' :: ((toString n).toList ++ ']' :: rest) := by simp [spelled]
          rw [hclosed, hclosed] at heq
          obtain ⟨hi, hrest⟩ := eq_of_append_eq (p := Char.isDigit) (isDigit_of_mem_toString i)
            (isDigit_of_mem_toString i') (by simp) (by simp) (List.cons.inj heq).2
          rw [toString_toList_inj hi, ih hsteps hsteps' (List.cons.inj hrest).2]

theorem pathOf_inj {path : String} {steps steps' : List Step} (h : ∀ s ∈ steps, isPlain s = true)
    (h' : ∀ s ∈ steps', isPlain s = true) (heq : pathOf path steps = pathOf path steps') :
    steps = steps' := by
  have hlist := congrArg String.toList heq
  rw [toList_pathOf, toList_pathOf] at hlist
  exact spelled_inj h h' (List.append_cancel_left hlist)

end Paths

theorem present?_eq_none_iff {ms : Members} {key : String} :
    present? ms key = none ↔ Json.last? ms key = none ∨ Json.last? ms key = some .null := by
  unfold present?
  split
  · next h => simp [h]
  · next h => simp [h]
  · next hnull h => simpa [h] using hnull

def placeOf? : Error → Option String
  | .decode path _ => some path
  | .decodeCause path _ => some path
  | _ => none

def isMissing : Error → Bool
  | .decode _ reason => reason == missing
  | _ => false

-- What a document that can be parsed is refused for has its place in it. The path of the error tells
-- its steps; all places on the way are there, and so is the last one, unless the error says that it
-- is missing: then the object before it has no such member, or null in it.
theorem decode_error_located {text : String} {j : Json} {rest : List Char} {e : Error}
    (hread : Json.readPrefix text = .ok (j, rest)) (h : decodeText text = .error e) :
    ∃ steps : List Step, placeOf? e = some (pathOf "$" steps) ∧
      ((∀ s ∈ steps, isPlain s = true) ∧
        ∀ steps', (∀ s ∈ steps', isPlain s = true) → pathOf "$" steps' = pathOf "$" steps →
          steps' = steps) ∧
      (∀ way, way <+: steps → way ≠ steps → (j.resolve? way).isSome = true) ∧
      (isMissing e = false → (j.resolve? steps).isSome = true) ∧
      (isMissing e = true → ∃ front key ms, steps = front ++ [.member key] ∧
        j.resolve? front = some (.object ms) ∧
        (Json.last? ms key = none ∨ Json.last? ms key = some .null)) := by
  have hdecode : decodeAt "$" j = .error e := by
    unfold decodeText at h
    rw [hread] at h
    exact h
  have hwell := readsWell j (Json.hasNumeric_of_readPrefix hread)
  have hlocated : Located "$" j e := (hwell.expr "$").located e hdecode
  have htold : ∀ {steps : List Step}, (∀ s ∈ steps, isPlain s = true) → ∀ steps' : List Step,
      (∀ s ∈ steps', isPlain s = true) → pathOf "$" steps' = pathOf "$" steps → steps' = steps :=
    fun hplain _ hplain' heq => pathOf_inj hplain' hplain heq
  cases hlocated with
  | value steps reason hplain hvalue hreason =>
    refine ⟨steps, rfl, ⟨hplain, htold hplain⟩, fun way hway _ => ?_, fun _ => hvalue, fun hm => ?_⟩
    · exact Json.resolve?_isSome_of_prefix hway hvalue
    · exact absurd (beq_iff_eq.mp hm) hreason
  | refused steps cause hplain hvalue =>
    refine ⟨steps, rfl, ⟨hplain, htold hplain⟩, fun way hway _ => ?_, fun _ => hvalue, fun hm => ?_⟩
    · exact Json.resolve?_isSome_of_prefix hway hvalue
    · cases hm
  | absent steps key ms hplain hobject hkey =>
    have hfront : (j.resolve? steps).isSome = true := by rw [hobject]; rfl
    refine ⟨_, rfl, ⟨hplain, htold hplain⟩, fun way hway hne => ?_, fun hm => ?_, fun _ => ?_⟩
    · have hbefore : way <+: steps := (List.prefix_concat_iff.mp hway).resolve_left hne
      exact Json.resolve?_isSome_of_prefix hbefore hfront
    · exact absurd hm (by simp [isMissing])
    · exact ⟨steps, key, ms, rfl, hobject, present?_eq_none_iff.mp hkey⟩

-- A comparison without its right side, as the second item of a set.
def incomplete : Json :=
  .object [("$", .string "set"), ("kind", .string "and"), ("items", .array
    [.object [("@", .string "A")],
      .object [("$", .string "bin"), ("op", .string "eq"), ("l", .bool true)]])]

theorem decode_error_located_nested :
    decodeText incomplete.write = .error (.decode "$.items[1].r" "missing") ∧
      ∃ steps front key ms, pathOf "$" steps = "$.items[1].r" ∧
        steps = front ++ [.member key] ∧ incomplete.resolve? front = some (.object ms) := by
  have hread : Json.readPrefix incomplete.write = .ok (incomplete, []) :=
    Json.readPrefix_write incomplete fun t ht => nomatch ht
  have hdecode : decodeText incomplete.write = .error (.decode "$.items[1].r" "missing") := by
    have hkind : SetKind.ofName? "and" = some .and := rfl
    have hfirst : Expr.ofPath "A" = .ok (.property "" "A") := by rfl
    have hpath : child (index (child "$" "items") 1) "r" = "$.items[1].r" := by rfl
    rw [decodeText, hread]
    simp [incomplete, decode, decodeAt, decodeNode, decodeList, decodeItems, decodeMember,
      decodeProperty, Json.last?, requiredText, present?, items, fail, bind, Except.bind, hkind,
      hfirst, hpath, refused, Except.mapError]
  obtain ⟨steps, hplace, -, -, -, hmissing⟩ := decode_error_located hread hdecode
  obtain ⟨front, key, ms, hsteps, hobject, -⟩ := hmissing rfl
  exact ⟨hdecode, steps, front, key, ms, (Option.some.inj hplace).symm, hsteps, hobject⟩

end Codec
end QueryTree
