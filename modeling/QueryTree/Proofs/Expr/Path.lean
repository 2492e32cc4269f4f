import QueryTree.Proofs.Expr.WellFormed
import QueryTree.Proofs.Sql.Outcome

namespace QueryTree

open Text (isIdentifier)

section Grammar

def IsNameChar (c : Char) : Prop :=
  ('A' ≤ c ∧ c ≤ 'Z') ∨ ('a' ≤ c ∧ c ≤ 'z') ∨ ('0' ≤ c ∧ c ≤ '9') ∨ c = '_'

instance : DecidablePred IsNameChar := fun _ => inferInstanceAs (Decidable (_ ∨ _))

-- A nonempty run of letters, digits and underscores.
def IsName (s : String) : Prop := s ≠ "" ∧ ∀ c ∈ s.toList, IsNameChar c

-- One name or more, joined by single dots.
def IsPath (p : String) : Prop :=
  ∃ parts : List String, parts ≠ [] ∧ (∀ s ∈ parts, IsName s) ∧ p = ".".intercalate parts

theorem isWordChar_iff (c : Char) : Text.isWordChar c = true ↔ IsNameChar c := by
  have hword : Text.isWordChar c = (c.isUpper || c.isLower || c.isDigit || c == '_') := rfl
  have hupper : c.isUpper = true ↔ 'A' ≤ c ∧ c ≤ 'Z' := decide_eq_true_iff
  have hlower : c.isLower = true ↔ 'a' ≤ c ∧ c ≤ 'z' :=
    Bool.and_eq_true_iff.trans (and_congr decide_eq_true_iff decide_eq_true_iff)
  have hdigit : c.isDigit = true ↔ '0' ≤ c ∧ c ≤ '9' :=
    Bool.and_eq_true_iff.trans (and_congr decide_eq_true_iff decide_eq_true_iff)
  simp only [hword, Bool.or_eq_true, hupper, hlower, hdigit, beq_iff_eq, or_assoc, IsNameChar]

theorem isIdentifier_iff (s : String) : isIdentifier s = true ↔ IsName s := by
  simp [isIdentifier, IsName, ← isWordChar_iff]

end Grammar

section Checks

theorem isIdentifier_of_check {kind name : String} (h : checkIdentifier kind name = .ok ()) :
    isIdentifier name = true := by
  unfold checkIdentifier at h
  split at h
  · assumption
  · cases h

theorem isIdentifier_of_checks {kind : String} {names : List String}
    (h : names.forM (checkIdentifier kind) = .ok ()) : ∀ s ∈ names, isIdentifier s = true := by
  induction names with
  | nil => exact fun _ hs => absurd hs List.not_mem_nil
  | cons name names ih =>
    obtain ⟨⟨⟩, hname, hnames⟩ := Compilation.bind_ok h
    exact List.forall_mem_cons.mpr ⟨isIdentifier_of_check hname, ih hnames⟩

end Checks

namespace Expr

section Names

variable {parts : List String}

theorem segments_eq_splitOn (cs : List Char) : segments cs = cs.splitOn '.' := by
  induction cs with
  | nil => rfl
  | cons c cs ih =>
    rw [segments, ih, List.splitOn_cons_eq_if_modifyHead]
    cases hcs : cs.splitOn '.' with
    | nil => exact absurd hcs (List.splitOn_ne_nil '.' cs)
    | cons seg segs => rfl

-- The names between the dots of a path.
def names (p : String) : List String := (segments p.toList).map String.ofList

theorem names_ne_nil (p : String) : names p ≠ [] := by
  simp [names, segments_eq_splitOn]

theorem intercalate_names (p : String) : ".".intercalate (names p) = p := by
  apply String.toList_inj.1
  rw [String.toList_intercalate, names, List.map_map, segments_eq_splitOn]
  simp [Function.comp_def]

theorem names_dot {s : String} (hs : '.' ∉ s.toList) (p : String) :
    names (s ++ "." ++ p) = s :: names p := by
  have htext : (s ++ "." ++ p).toList = s.toList ++ '.' :: p.toList := by simp
  simp only [names, htext, segments_eq_splitOn, List.splitOn_append_cons_self_of_not_mem hs,
    List.map_cons, String.ofList_toList]

theorem dot_notMem_of_isIdentifier {s : String} (hs : isIdentifier s = true) : '.' ∉ s.toList := by
  intro hdot
  rw [isIdentifier, Bool.and_eq_true] at hs
  have hword := List.all_eq_true.mp hs.2 '.' hdot
  exact absurd hword (by decide)

theorem names_intercalate (hne : parts ≠ []) (hparts : ∀ s ∈ parts, isIdentifier s = true) :
    names (".".intercalate parts) = parts := by
  have hplain : ∀ cs ∈ parts.map String.toList, '.' ∉ cs :=
    List.forall_mem_map.mpr fun s hs => dot_notMem_of_isIdentifier (hparts s hs)
  have htext : (".".intercalate parts).toList = ['.'].intercalate (parts.map String.toList) := by
    rw [String.toList_intercalate]
    rfl
  rw [names, htext, segments_eq_splitOn, List.splitOn_intercalate '.' hplain (by simpa using hne)]
  simp [Function.comp_def]

theorem isPath_iff (p : String) : IsPath p ↔ ∀ s ∈ names p, isIdentifier s = true := by
  constructor
  · rintro ⟨parts, hne, hparts, rfl⟩
    have hidentifiers s (hs : s ∈ parts) := (isIdentifier_iff s).mpr (hparts s hs)
    rwa [names_intercalate hne hidentifiers]
  · intro h
    exact ⟨names p, names_ne_nil p, fun s hs => (isIdentifier_iff s).mp (h s hs),
      (intercalate_names p).symm⟩

-- An owner may also be joined from no names at all.
theorem isOwner_intercalate (hparts : ∀ s ∈ parts, isIdentifier s = true) :
    isOwner (".".intercalate parts) = true := by
  rw [isOwner, Bool.or_eq_true]
  by_cases hne : parts = []
  · subst hne
    exact .inl rfl
  · have hall : ∀ s ∈ names (".".intercalate parts), isIdentifier s = true := by
      rwa [names_intercalate hne hparts]
    exact .inr (List.all_eq_true.mpr (List.forall_mem_map.mp hall))

theorem exists_parts_of_isOwner {owner : String} (h : isOwner owner = true) :
    ∃ parts, (∀ s ∈ parts, isIdentifier s = true) ∧ owner = ".".intercalate parts := by
  rw [isOwner, Bool.or_eq_true] at h
  rcases h with hempty | hall
  · exact ⟨[], by simp, String.isEmpty_iff.mp hempty⟩
  · exact ⟨names owner, List.forall_mem_map.mpr (List.all_eq_true.mp hall),
      (intercalate_names owner).symm⟩

theorem intercalate_isEmpty (hne : parts ≠ []) (hparts : ∀ s ∈ parts, isIdentifier s = true) :
    (".".intercalate parts).isEmpty = false := by
  cases parts with
  | nil => exact absurd rfl hne
  | cons s parts =>
    have hs : s ≠ "" := by
      rintro rfl
      exact absurd (hparts "" List.mem_cons_self) (by decide)
    cases parts with
    | nil => simpa [String.intercalate_singleton] using hs
    | cons t parts => simp [String.intercalate_cons_cons, hs]

theorem path_intercalate (hparts : ∀ s ∈ parts, isIdentifier s = true) (name : String) :
    path (".".intercalate parts) name = ".".intercalate (parts ++ [name]) := by
  by_cases hne : parts = []
  · subst hne
    simp [path, String.intercalate_nil, String.intercalate_singleton]
  · rw [path, intercalate_isEmpty hne hparts,
      String.intercalate_append_of_ne_nil hne (by simp), String.intercalate_singleton]
    rfl

end Names

section Reading

variable {p owner name : String} {e : Expr}

theorem ofPath_ok_iff : ofPath p = .ok e ↔
    ∃ owner name, names p = owner ++ [name] ∧ (∀ s ∈ names p, isIdentifier s = true) ∧
      e = .property (".".intercalate owner) name := by
  constructor
  · intro h
    have hne := names_ne_nil p
    unfold ofPath at h
    obtain ⟨⟨⟩, hname, h⟩ := Compilation.bind_ok h
    obtain ⟨⟨⟩, howner, h⟩ := Compilation.bind_ok h
    cases h
    have hnames : names p = (names p).dropLast ++ [(names p).getLastD ""] := by
      rw [List.getLastD_eq_getLast?, List.getLast?_eq_some_getLast hne, Option.getD_some,
        List.dropLast_concat_getLast hne]
    refine ⟨_, _, hnames, ?_, rfl⟩
    rw [hnames, List.forall_mem_append, List.forall_mem_singleton]
    exact ⟨isIdentifier_of_checks howner, isIdentifier_of_check hname⟩
  · rintro ⟨owner, name, hnames, hidentifiers, rfl⟩
    rw [hnames, List.forall_mem_append, List.forall_mem_singleton] at hidentifiers
    rw [names] at hnames
    simp only [ofPath, hnames, List.getLastD_concat, List.dropLast_concat,
      checkIdentifier_eq_ok hidentifiers.2, forM_checkIdentifier hidentifiers.1]
    rfl

theorem exists_ofPath_iff (p : String) : (∃ e, ofPath p = .ok e) ↔ IsPath p := by
  rw [isPath_iff]
  constructor
  · rintro ⟨e, h⟩
    obtain ⟨_, _, _, hidentifiers, _⟩ := ofPath_ok_iff.mp h
    exact hidentifiers
  · intro h
    have hnames := (List.dropLast_concat_getLast (names_ne_nil p)).symm
    exact ⟨_, ofPath_ok_iff.mpr ⟨_, _, hnames, h, rfl⟩⟩

theorem path_of_ofPath (h : ofPath p = .ok e) :
    ∃ owner name, e = .property owner name ∧ isOwner owner = true ∧ isIdentifier name = true ∧
      path owner name = p := by
  obtain ⟨owner, name, hnames, hidentifiers, rfl⟩ := ofPath_ok_iff.mp h
  rw [hnames, List.forall_mem_append, List.forall_mem_singleton] at hidentifiers
  refine ⟨_, _, rfl, isOwner_intercalate hidentifiers.1, hidentifiers.2, ?_⟩
  rw [path_intercalate hidentifiers.1, ← hnames, intercalate_names]

theorem ofPath_path (howner : isOwner owner = true) (hname : isIdentifier name = true) :
    ofPath (path owner name) = .ok (.property owner name) := by
  obtain ⟨parts, hparts, rfl⟩ := exists_parts_of_isOwner howner
  have hall : ∀ s ∈ parts ++ [name], isIdentifier s = true := by
    rw [List.forall_mem_append, List.forall_mem_singleton]
    exact ⟨hparts, hname⟩
  have hnames := names_intercalate (by simp) hall
  rw [path_intercalate hparts]
  exact ofPath_ok_iff.mpr ⟨parts, name, hnames, hnames.symm ▸ hall, rfl⟩

end Reading

-- A text is read exactly if it is a path; its property has this path, and what has an owner, or
-- none, and a name is read back from its path.
theorem ofPath_reads_paths :
    (∀ p, (∃ e, ofPath p = .ok e) ↔ IsPath p) ∧
      (∀ p e, ofPath p = .ok e → ∃ owner name, e = .property owner name ∧ path owner name = p) ∧
      ∀ owner name, owner = "" ∨ IsPath owner → IsName name →
        ofPath (path owner name) = .ok (.property owner name) := by
  refine ⟨exists_ofPath_iff, fun p e h => ?_, fun owner name howner hname => ?_⟩
  · obtain ⟨owner, name, he, -, -, hp⟩ := path_of_ofPath h
    exact ⟨owner, name, he, hp⟩
  · have hisOwner : isOwner owner = true := by
      rcases howner with rfl | ⟨parts, -, hparts, rfl⟩
      · rfl
      · exact isOwner_intercalate fun s hs => (isIdentifier_iff s).mpr (hparts s hs)
    exact ofPath_path hisOwner ((isIdentifier_iff name).mpr hname)

theorem ofPath_reads_paths_nested :
    IsPath "Order_2.Address" ∧ IsName "0" ∧
      ofPath "Order_2.Address.0" = .ok (.property "Order_2.Address" "0") := by
  have howner : IsPath "Order_2.Address" := (isPath_iff _).mpr (by decide +kernel)
  have hname : IsName "0" := (isIdentifier_iff _).mp (by decide +kernel)
  exact ⟨howner, hname, ofPath_reads_paths.2.2 "Order_2.Address" "0" (.inr howner) hname⟩

end Expr
end QueryTree
