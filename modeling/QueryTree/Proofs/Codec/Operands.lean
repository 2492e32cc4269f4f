import QueryTree.Proofs.Codec.Transmission
import QueryTree.Proofs.Codec.Validity

namespace QueryTree

namespace Codec

theorem isSendable_of_isRead {e : Expr} (hvalid : e.IsValidNode) (hread : e.IsReadNode) :
    IsSendable Value.reread e := by
  cases e with
  | value v const =>
    obtain ⟨hv, hnull⟩ := hread
    refine ⟨Value.hasDocument_of_isRead hv, hnull, fun hconst => ?_⟩
    exact (hvalid.2 hconst).imp_right (Value.isPrimitive_reread hv)
  | property owner name => exact Bool.and_eq_true_iff.mpr hvalid
  | aggregate name arg distinct => exact hvalid
  | set kind items =>
    obtain ⟨hkind, hflat, hlogic⟩ := hvalid
    have hitems : items.all (!·.isSetOf kind) = true :=
      List.all_eq_true.mpr fun x hx => by rw [hflat x hx]; rfl
    have hpredicates : (!kind.isLogical || items.all Expr.isLogic) = true := by
      cases hk : kind.isLogical with
      | true => exact List.all_eq_true.mpr (hlogic hk)
      | false => rfl
    simp only [IsSendable, Expr.isProper, hkind, hitems, hpredicates, Bool.and_self]
  | fragment key arg => exact ⟨hvalid.1, Value.hasDocument_of_isRead hread⟩
  | _ => exact hvalid

theorem decodeText_reread {e : Expr} (he : e.IsRead) :
    ∃ s, encodeText e = .ok s ∧ decodeText s = .ok (e.relayed Value.reread) :=
  decodeText_relayed fun x hx => isSendable_of_isRead (he x hx).1 (he x hx).2

end Codec

namespace Value

theorem areDefinite_of_forall {vs : List Value} (h : ∀ v ∈ vs, v.isDefinite = true) :
    areDefinite vs = true := by
  induction vs with
  | nil => rfl
  | cons v vs ih =>
    obtain ⟨hv, hvs⟩ := List.forall_mem_cons.mp h
    rw [areDefinite, hv, ih hvs]
    rfl

theorem haveDefiniteEntries_of_forall {es : List (Value × Value)}
    (htexts : ∀ e ∈ es, ∃ s, e.1 = .text s) (h : ∀ e ∈ es, e.2.isDefinite = true) :
    haveDefiniteEntries es = true := by
  induction es with
  | nil => rfl
  | cons e es ih =>
    obtain ⟨k, v⟩ := e
    obtain ⟨⟨s, hs⟩, hrest⟩ := List.forall_mem_cons.mp htexts
    obtain ⟨hv, hes⟩ := List.forall_mem_cons.mp h
    cases hs
    rw [haveDefiniteEntries, hv, ih hrest hes]
    rfl

theorem reread_of_portable {v : Value} (hv : v.isPortable = true) (hnormal : v.normalize = v) :
    v.reread = v := by
  obtain ⟨j, hj, -, hvalue, -⟩ := hasDocument_of_portable hv
  rw [reread, hj]
  exact hvalue.trans hnormal

theorem IsRead.isDefinite {v : Value} (hv : v.IsRead) : v.isDefinite = true := by
  induction hv with
  | null | bool | text | int | float => rfl
  | items _ ih => exact areDefinite_of_forall ih
  | map htexts _ ih => exact haveDefiniteEntries_of_forall htexts ih

end Value

namespace Expr

theorem IsRead.isNull_reread {e : Expr} (he : e.IsRead) :
    ∀ x ∈ e.nodes, x.Carries fun v => v.reread.isNull = v.isNull := by
  intro x hx
  have hread := (he x hx).2
  cases x with
  | value v const => exact (Value.hasDocument_of_isRead hread.1).isNull
  | fragment key arg => exact (Value.hasDocument_of_isRead hread).isNull
  | _ => trivial

theorem IsRead.isDefinite {e : Expr} (he : e.IsRead) : e.isDefinite = true := by
  refine List.all_eq_true.mpr fun x hx => ?_
  obtain ⟨hvalid, hread⟩ := he x hx
  cases x with
  | value v const =>
    rw [carriesDefinite, hvalid.1]
    exact hread.1.isDefinite
  | fragment key arg =>
    rw [carriesDefinite, hvalid.2]
    exact hread.isDefinite
  | _ => rfl

end Expr

-- Every decoded expression can be written, and what is read from its text has the same optional
-- operands, each relayed in its place, but for those that are the null literal, which are absent.
-- So the operands that are present stay present exactly if none is null. With a null operand the
-- two expressions are not equal; without one they differ in literals only, and are equal when the
-- literals are read back as they are.
theorem operands_survive_iff (text : String) (e : Expr) (h : Codec.decodeText text = .ok e) :
    ∃ s e', Codec.encodeText e = .ok s ∧ Codec.decodeText s = .ok e' ∧
      e' = e.relayed Value.reread ∧
      (e'.operands = e.operands.map fun o => (Expr.shown o).map (Expr.relayed Value.reread)) ∧
      (e'.operands.map Option.isSome = e.operands.map Option.isSome ↔
        e.hasNullOperand = false) ∧
      (e.same e' = true → e.hasNullOperand = false) ∧
      (e.hasNullOperand = false → e' = e.withValues Value.reread ∧
        ((∀ x ∈ e.nodes, x.Carries fun v => v.reread = v) → e.same e' = true)) := by
  have he : e.IsRead := Codec.isRead_of_decodeText h
  obtain ⟨s, hencode, hdecode⟩ := Codec.decodeText_reread he
  refine ⟨s, _, hencode, hdecode, rfl, e.operands_relayed _, e.present_relayed_iff _, ?_, ?_⟩
  · intro hsame
    by_contra hnull
    have hrelayed := Expr.hasNullOperand_of_same hsame (Bool.not_eq_false _ ▸ hnull)
    rw [Expr.hasNullOperand_relayed he.isNull_reread] at hrelayed
    cases hrelayed
  · intro hoperands
    have hrelayed : e.relayed Value.reread = e.withValues Value.reread := by
      rw [Expr.relayed, Expr.trimmed_eq_self hoperands]
    refine ⟨hrelayed, fun hliterals => ?_⟩
    rw [hrelayed, Expr.withValues_eq_self hliterals]
    exact Expr.same_self he.isDefinite

-- Rows that have related rows among which a sum is present and a count has no argument.
theorem operands_survive_nested :
    ∃ (text s : String) (e e' : Expr), Codec.decodeText text = .ok e ∧
      Codec.encodeText e = .ok s ∧ Codec.decodeText s = .ok e' ∧
      e.operands.map Option.isSome = [true, true, false] ∧
      e'.operands.map Option.isSome = [true, true, false] ∧ e.same e' = true := by
  let tree : Expr := .query (.filter (.rows "Order") (.related "Lines" "l" (some (.set .and
    [.compare .greater (.aggregate "SUM" (some (.property "" "price")) true)
        (.value (.int64 100) true),
      .compare .less (.aggregate "COUNT" none false) (.value (.int64 7) false)])) []))
  have hwell : tree.isWellFormed = true := by decide +kernel
  have hnormal : tree.normal = tree := rfl
  obtain ⟨text, -, hdecode⟩ := Codec.decodeText_encodeText hwell
  rw [hnormal] at hdecode
  obtain ⟨s, e', hencode, hagain, -, -, hpresent, -, hequal⟩ :=
    operands_survive_iff text tree hdecode
  have hoperands : tree.hasNullOperand = false := by decide +kernel
  have hliterals : ∀ x ∈ tree.nodes, x.Carries fun v => v.reread = v := by
    intro x hx
    have hproper : x.isProper = true := List.all_eq_true.mp hwell x hx
    have hread := (Codec.isRead_of_decodeText hdecode x hx).1
    cases x with
    | value v const =>
      rw [Expr.isProper, Bool.and_eq_true] at hproper
      exact Value.reread_of_portable hproper.1 hread.1
    | fragment key arg =>
      rw [Expr.isProper, Bool.and_eq_true] at hproper
      exact Value.reread_of_portable hproper.2 hread.2
    | _ => trivial
  have hsome : tree.operands.map Option.isSome = [true, true, false] := by decide +kernel
  exact ⟨text, s, tree, e', hdecode, hencode, hagain, hsome, (hpresent.mpr hoperands).trans hsome,
    (hequal hoperands).2 hliterals⟩

namespace Codec

def countNull : Json :=
  .object [("$", .string "aggregate"), ("name", .string "COUNT"),
    ("arg", .object [("$", .string "const")])]

def countNullSent : Json :=
  .object [("$", .string "aggregate"), ("arg", .null), ("name", .string "COUNT")]

theorem decodeAt_countNull (path : String) :
    decodeAt path countNull = .ok (.aggregate "COUNT" (some .null) false) := by
  have harg : ∀ path, decodeAt path (.object [("$", .string "const")]) = .ok .null := by
    intro path
    rw [decodeAt_node rfl, decodeNode]
    rfl
  rw [countNull, decodeAt_node rfl, decodeNode, requiredText_eq "COUNT" rfl,
    decodeOption_some (j := .object [("$", .string "const")]) rfl rfl, harg]
  rfl

theorem decodeAt_countNullSent (path : String) :
    decodeAt path countNullSent = .ok (.aggregate "COUNT" none false) := by
  rw [countNullSent, decodeAt_node rfl, decodeNode, requiredText_eq "COUNT" rfl,
    decodeOption_null rfl]
  rfl

theorem decodeText_write {j : Json} (hj : ∀ t ∈ j.numbers, Json.IsNumber t) :
    decodeText j.write = decodeAt "$" j := by
  rw [decodeText, Json.readPrefix_write j hj]
  rfl

end Codec

open Codec in
-- A count of nulls comes back as a count of rows.
theorem count_of_null_read_as_rows :
    decodeText "\x7b\"$\":\"aggregate\",\"name\":\"COUNT\",\"arg\":\x7b\"$\":\"const\"\x7d\x7d" =
        .ok (.aggregate "COUNT" (some .null) false) ∧
      encodeText (.aggregate "COUNT" (some .null) false) =
        .ok "\x7b\"$\":\"aggregate\",\"arg\":null,\"name\":\"COUNT\"\x7d" ∧
      decodeText "\x7b\"$\":\"aggregate\",\"arg\":null,\"name\":\"COUNT\"\x7d" =
        .ok (.aggregate "COUNT" none false) ∧
      (Expr.aggregate "COUNT" (some .null) false).same (.aggregate "COUNT" none false) = false := by
  have hfirst : countNull.write =
      "\x7b\"$\":\"aggregate\",\"name\":\"COUNT\",\"arg\":\x7b\"$\":\"const\"\x7d\x7d" := by
    decide +kernel
  have hsent : countNullSent.write =
      "\x7b\"$\":\"aggregate\",\"arg\":null,\"name\":\"COUNT\"\x7d" := by
    decide +kernel
  have hencode : encodeText (.aggregate "COUNT" (some .null) false) = .ok countNullSent.write := by
    rw [encodeText, encode, draft, draftOption, Expr.null, draft_value]
    rfl
  rw [← hfirst, ← hsent]
  refine ⟨?_, hencode, ?_, ?_⟩
  · rw [decodeText_write (by simp [countNull, Json.numbers, Json.memberNumbers]),
      decodeAt_countNull]
  · rw [decodeText_write (by simp [countNullSent, Json.numbers, Json.memberNumbers]),
      decodeAt_countNullSent]
  · simp [Expr.same, Expr.sameOption]

end QueryTree
