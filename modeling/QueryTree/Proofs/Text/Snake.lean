import QueryTree.Proofs.Expr.Path
import QueryTree.Text.Snake

namespace QueryTree.Text

def IsPathChar (c : Char) : Prop := IsNameChar c ∨ c = '.'

def IsColumnChar (c : Char) : Prop := ('a' ≤ c ∧ c ≤ 'z') ∨ ('0' ≤ c ∧ c ≤ '9') ∨ c = '_'

-- What a character of a path becomes, apart from an underscore before it.
def columnChar (c : Char) : Char := if c = '.' then '_' else c.toLower

instance : DecidablePred IsPathChar := fun _ => inferInstanceAs (Decidable (_ ∨ _))

instance : DecidablePred IsColumnChar := fun _ => inferInstanceAs (Decidable (_ ∨ _))

variable {c : Char} {cs : List Char}

section Characters

theorem IsColumnChar.isPathChar (h : IsColumnChar c) : IsPathChar c := .inl (.inr h)

theorem toNat_lt_of_isPathChar (h : IsPathChar c) : c.toNat < 128 := by
  rcases h with (h | h | h | rfl) | rfl
  · exact Nat.lt_of_le_of_lt h.2 (by decide)
  · exact Nat.lt_of_le_of_lt h.2 (by decide)
  · exact Nat.lt_of_le_of_lt h.2 (by decide)
  · decide
  · decide

theorem of_ascii {P : Char → Prop} (table : ∀ n < 128, P (Char.ofNat n)) (hc : c.toNat < 128) :
    P c := by
  simpa using table c.toNat hc

theorem isColumnChar_columnChar (h : IsPathChar c) : IsColumnChar (columnChar c) :=
  of_ascii (P := fun c => IsPathChar c → IsColumnChar (columnChar c)) (by decide +kernel)
    (toNat_lt_of_isPathChar h) h

theorem columnChar_eq_iff (h : IsPathChar c) : columnChar c = '_' ↔ c = '.' ∨ c = '_' :=
  of_ascii (P := fun c => columnChar c = '_' ↔ c = '.' ∨ c = '_') (by decide +kernel)
    (toNat_lt_of_isPathChar h)

theorem IsColumnChar.isUpper_eq_false (h : IsColumnChar c) : isUpper c = false ∧ c ≠ '.' :=
  of_ascii (P := fun c => IsColumnChar c → isUpper c = false ∧ c ≠ '.') (by decide +kernel)
    (toNat_lt_of_isPathChar h.isPathChar) h

end Characters

section Spelling

-- A character is spelled by itself, perhaps after an underscore. Its neighbours decide only that.
theorem snakeChars_cons (h : IsPathChar c) (before : Option Char) (cs : List Char) :
    ∃ lead, (lead = [] ∨ lead = ['_']) ∧
      snakeChars before (c :: cs) = lead ++ columnChar c :: snakeChars (some c) cs := by
  have hascii := toNat_lt_of_isPathChar h
  have hisUpper : isUpper c = c.isUpper := if_pos hascii
  have htoLower : toLower c = c.toLower := if_pos hascii
  rw [snakeChars, columnChar, hisUpper, htoLower]
  by_cases hdot : c = '.'
  · exact ⟨[], .inl rfl, by simp [hdot]⟩
  by_cases hupper : c.isUpper = true
  · by_cases hbegins : beginsWord before cs.head? = true
    · exact ⟨['_'], .inr rfl, by simp [hdot, hupper, hbegins]⟩
    · exact ⟨[], .inl rfl, by simp [hdot, hupper, hbegins]⟩
  · have hlower : c.toLower = c := dif_neg fun h => hupper (decide_eq_true h)
    exact ⟨[], .inl rfl, by simp [hdot, hupper, hlower]⟩

theorem isColumnChar_of_mem_snakeChars (h : ∀ c ∈ cs, IsPathChar c) (before : Option Char) :
    ∀ d ∈ snakeChars before cs, IsColumnChar d := by
  induction cs generalizing before with
  | nil => exact fun _ hd => absurd hd List.not_mem_nil
  | cons c cs ih =>
    obtain ⟨hc, hcs⟩ := List.forall_mem_cons.mp h
    obtain ⟨lead, hlead, heq⟩ := snakeChars_cons hc before cs
    rw [heq, List.forall_mem_append, List.forall_mem_cons]
    refine ⟨?_, isColumnChar_columnChar hc, ih hcs (some c)⟩
    rcases hlead with rfl | rfl <;> simp [IsColumnChar]

-- Underscores apart, no character is lost, doubled or moved.
theorem filter_snakeChars (h : ∀ c ∈ cs, IsPathChar c) (before : Option Char) :
    (snakeChars before cs).filter (· ≠ '_') =
      (cs.filter fun c => c ≠ '.' ∧ c ≠ '_').map Char.toLower := by
  induction cs generalizing before with
  | nil => rfl
  | cons c cs ih =>
    obtain ⟨hc, hcs⟩ := List.forall_mem_cons.mp h
    obtain ⟨lead, hlead, heq⟩ := snakeChars_cons hc before cs
    have hblank : lead.filter (· ≠ '_') = [] := by rcases hlead with rfl | rfl <;> rfl
    rw [heq, List.filter_append, hblank, List.nil_append, List.filter_cons, List.filter_cons,
      ih hcs]
    by_cases hmark : c = '.' ∨ c = '_'
    · simp [(columnChar_eq_iff hc).mpr hmark, hmark, ← not_or]
    · have hne := mt (columnChar_eq_iff hc).mp hmark
      have hchar : columnChar c = c.toLower := if_neg fun h => hmark (.inl h)
      rw [hchar] at hne ⊢
      simp [hne, hmark, ← not_or]

theorem snakeChars_of_isColumnChar (h : ∀ c ∈ cs, IsColumnChar c) (before : Option Char) :
    snakeChars before cs = cs := by
  induction cs generalizing before with
  | nil => rfl
  | cons c cs ih =>
    obtain ⟨hc, hcs⟩ := List.forall_mem_cons.mp h
    obtain ⟨hupper, hdot⟩ := hc.isUpper_eq_false
    simp [snakeChars, hdot, hupper, ih hcs]

end Spelling

theorem isPathChar_of_isPath {p : String} (h : IsPath p) : ∀ c ∈ p.toList, IsPathChar c := by
  obtain ⟨parts, -, hparts, rfl⟩ := h
  induction parts with
  | nil => exact fun _ hc => absurd hc List.not_mem_nil
  | cons s parts ih =>
    obtain ⟨hs, hparts⟩ := List.forall_mem_cons.mp hparts
    have hfirst c (hc : c ∈ s.toList) : IsPathChar c := .inl (hs.2 c hc)
    cases parts with
    | nil => simpa [String.intercalate_singleton] using hfirst
    | cons t parts =>
      simp only [String.intercalate_cons_cons, String.toList_append, List.forall_mem_append]
      exact ⟨⟨hfirst, by simp [IsPathChar]⟩, ih hparts⟩

-- The column spelling of a path is over its alphabet, keeps what is no dot and no underscore, and is
-- its own spelling.
theorem snakeCase_stable {p : String} {e : Expr} (h : Expr.ofPath p = .ok e) :
    (∀ c ∈ (snakeCase p).toList, IsColumnChar c) ∧
      (snakeCase p).toList.filter (· ≠ '_') =
        (p.toList.filter fun c => c ≠ '.' ∧ c ≠ '_').map Char.toLower ∧
      snakeCase (snakeCase p) = snakeCase p := by
  have hchars := isPathChar_of_isPath ((Expr.exists_ofPath_iff p).mp ⟨e, h⟩)
  have hcolumn := isColumnChar_of_mem_snakeChars hchars none
  have htext : (snakeCase p).toList = snakeChars none p.toList := String.toList_ofList
  have hsame : snakeCase (snakeCase p) = snakeCase p := by
    rw [snakeCase, htext, snakeChars_of_isColumnChar hcolumn, ← htext, String.ofList_toList]
  rw [htext]
  exact ⟨hcolumn, filter_snakeChars hchars none, hsame⟩

theorem snakeCase_stable_acronym :
    snakeCase "_HTTPServer2.user__IDs" = "_http_server2_user__i_ds" ∧
      (∃ e, Expr.ofPath "_HTTPServer2.user__IDs" = .ok e) ∧
      snakeCase "_http_server2_user__i_ds" = "_http_server2_user__i_ds" := by
  have hspelled : snakeCase "_HTTPServer2.user__IDs" = "_http_server2_user__i_ds" := by
    decide +kernel
  obtain ⟨e, he⟩ := (Expr.exists_ofPath_iff "_HTTPServer2.user__IDs").mpr
    ((Expr.isPath_iff _).mpr (by decide +kernel))
  exact ⟨hspelled, ⟨e, he⟩, hspelled ▸ (snakeCase_stable he).2.2⟩

end QueryTree.Text
