import QueryTree.Lambda.Convert
import QueryTree.Proofs.Codec.Validity

namespace QueryTree

variable {name : String}

-- The columns that members lead to from a row, and the type of the last one. All members but the
-- last are records.
def Types.columnPath? (ts : Types) (row : Option Ty) : List String → Option (List String × Ty)
  | [] => none
  | name :: rest =>
    match ts.column? row name with
    | some (column, some type) =>
      if rest.isEmpty then some ([column], type)
      else if ts.isLeaf (some type) then none
      else (ts.columnPath? (some type) rest).map fun (path, last) => (column :: path, last)
    | _ => none

theorem Types.columnPath?_cons {ts : Types} {row : Option Ty} {rest path : List String} {t : Ty}
    (h : ts.columnPath? row (name :: rest) = some (path, t)) :
    ∃ column type, ts.column? row name = some (column, some type) ∧
      (rest = [] ∧ path = [column] ∧ type = t ∨
        rest ≠ [] ∧ ts.isLeaf (some type) = false ∧
          ∃ path', ts.columnPath? (some type) rest = some (path', t) ∧ path = column :: path') := by
  rw [columnPath?] at h
  split at h
  case h_2 => cases h
  case h_1 column type hcolumn =>
    refine ⟨column, type, hcolumn, ?_⟩
    split at h
    case isTrue hlast =>
      cases h
      exact .inl ⟨List.isEmpty_iff.mp hlast, rfl, rfl⟩
    case isFalse hlast =>
      split at h
      case isTrue => cases h
      case isFalse hleaf =>
        obtain ⟨p, hrest, hp⟩ := Option.map_eq_some_iff.mp h
        cases hp
        exact .inr ⟨by simpa using hlast, by simpa using hleaf, p.1, hrest, rfl⟩

theorem Types.mem_names_of_column? {ts : Types} {fields : List (Field Ty)}
    {column : String × Option Ty} (hplain : fields.all (!·.embedded) = true)
    (h : ts.column? (some (.record fields)) name = some column) : name ∈ fields.map (·.name) := by
  by_contra hnone
  have hfilter : fields.filter (·.name == name) = [] := by
    rw [List.filter_eq_nil_iff]
    intro f hf hname
    exact hnone (List.mem_map.2 ⟨f, hf, eq_of_beq hname⟩)
  have hembedded : fields.filter (·.embedded) = [] := by
    rw [List.filter_eq_nil_iff]
    intro f hf
    simpa using List.all_eq_true.1 hplain f hf
  simp [Types.column?, Types.member?, Types.members?, Types.under, Ty.indirect, Types.search,
    hfilter, hembedded] at h

namespace Lambda.Scope

variable {sc : Scope}
variable {n : Node} {names : List String} {depth : Nat} {frame : Frame}

theorem checked_ok {r : Except Error Expr} {e : Expr} (h : sc.checked n r = .ok e) : r = .ok e := by
  unfold checked at h
  split at h
  · exact h
  · cases h

theorem asLogic_ok {x : Node} {r : Except Error Expr} {e : Expr} (h : sc.asLogic x r = .ok e) :
    r = .ok e := by
  obtain ⟨l, hl, h⟩ := Compilation.bind_ok h
  split at h
  · cases h
    exact hl
  · cases h

theorem getElem?_of_frame? {i : Nat} {f : Frame} (h : sc.frame? name = some (i, f)) :
    sc.frames[i]? = some f ∧ f.name = name := by
  simp only [frame?, Option.map_eq_some_iff, Prod.mk.injEq] at h
  obtain ⟨⟨g, j⟩, hfind, rfl, rfl⟩ := h
  have hmem := List.mem_of_find?_eq_some hfind
  have hname := List.find?_some hfind
  exact ⟨List.mem_zipIdx_iff_getElem?.1 hmem, eq_of_beq hname⟩

theorem isParam_of_frame? {i : Nat} {f : Frame} (h : sc.frame? name = some (i, f)) :
    sc.isParam name = true := by
  obtain ⟨hget, hname⟩ := getElem?_of_frame? h
  exact List.any_eq_true.2 ⟨f, List.mem_of_getElem? hget, beq_iff_eq.2 hname⟩

theorem depends_of_chain {root : String} (h : chain n = some (root, names)) :
    sc.depends n = sc.isParam root := by
  induction n using chain.induct generalizing names with
  | case1 s name =>
    obtain ⟨rfl, rfl⟩ : name = root ∧ [] = names := by simpa [chain] using h
    rw [depends]
  | case2 s x name ih =>
    simp only [chain, Option.map_eq_some_iff, Prod.mk.injEq] at h
    obtain ⟨⟨root', names'⟩, hx, rfl, rfl⟩ := h
    rw [depends, ih hx]
  | case3 s x ih | case4 s x ih =>
    rw [chain] at h
    rw [depends, ih h]
  | case5 n => simp_all [chain]

theorem rowChain?_eq_some (h : sc.rowChain? n = some (depth, frame, names)) :
    ∃ root, chain n = some (root, names) ∧ sc.frame? root = some (depth, frame) := by
  simp only [rowChain?, Option.bind_eq_bind, Option.bind_eq_some_iff] at h
  obtain ⟨⟨root, names'⟩, hchain, ⟨depth', frame'⟩, hframe, hresult⟩ := h
  simp only [Option.pure_def, Option.some.injEq, Prod.mk.injEq] at hresult
  obtain ⟨rfl, rfl, rfl⟩ := hresult
  exact ⟨root, hchain, hframe⟩

theorem depends_of_rowChain (h : sc.rowChain? n = some (depth, frame, names)) :
    sc.depends n = true := by
  obtain ⟨root, hchain, hframe⟩ := rowChain?_eq_some h
  rw [depends_of_chain hchain, isParam_of_frame? hframe]

theorem rowMembers_of_columnPath {row : Option Ty} {before path : List String} {t : Ty}
    (h : sc.world.types.columnPath? row names = some (path, t)) :
    sc.rowMembers n depth frame row before names = sc.property n depth frame (before ++ path) := by
  induction names generalizing row before path with
  | nil => simp [Types.columnPath?] at h
  | cons name rest ih =>
    obtain ⟨column, type, hcolumn, hlast⟩ := Types.columnPath?_cons h
    -- a row without a type gives its members none
    have hrow : row.isNone = false := by
      cases row with
      | none => simp [Types.column?] at hcolumn
      | some r => rfl
    rw [rowMembers]
    simp only [hrow, Bool.false_and, Bool.false_eq_true, if_false, hcolumn]
    obtain ⟨rfl, rfl, rfl⟩ | ⟨hmore, hleaf, path', hrest, rfl⟩ := hlast
    · simp only [List.isEmpty_nil, Bool.true_or, if_true]
      cases sc.property n depth frame (before ++ [column]) <;>
        simp [bind, Except.bind, columnMembers]
    · rw [if_neg (by simp [hmore, hleaf]), ih hrest, List.append_assoc]
      rfl

theorem convert_of_rowChain (h : sc.rowChain? n = some (depth, frame, names))
    (hnames : names ≠ []) : ∃ m, sc.convert n = sc.rowMembers m depth frame frame.row [] names := by
  induction n using chain.induct generalizing names with
  | case1 s name =>
    obtain ⟨root, hchain, _⟩ := rowChain?_eq_some h
    simp [chain, hnames.symm] at hchain
  | case2 s x name ih =>
    refine ⟨.selector s x name, ?_⟩
    rw [convert]
    simp only [depends_of_rowChain h, if_true, selection, h]
  | case3 s x ih =>
    rw [convert]
    exact ih h hnames
  | case4 s x ih =>
    have hx : sc.rowChain? x = some (depth, frame, names) := h
    rw [convert, if_pos (depends_of_rowChain hx)]
    exact ih hx hnames
  | case5 n =>
    obtain ⟨root, hchain, _⟩ := rowChain?_eq_some h
    simp_all [chain]

theorem convert_of_columnPath {path : List String} {t : Ty}
    (h : sc.rowChain? n = some (depth, frame, names))
    (hpath : sc.world.types.columnPath? frame.row names = some (path, t)) :
    ∃ m, sc.convert n = sc.property m depth frame path := by
  have hnames : names ≠ [] := by
    rintro rfl
    simp [Types.columnPath?] at hpath
  obtain ⟨m, hm⟩ := convert_of_rowChain h hnames
  exact ⟨m, by rw [hm, rowMembers_of_columnPath hpath, List.nil_append]⟩

end Lambda.Scope
end QueryTree
