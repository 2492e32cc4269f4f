import QueryTree.Lambda.Query
import QueryTree.Proofs.Lambda.Folding

namespace QueryTree.Lambda

variable {k : Kind} {n : Node} {names path : List String}

-- The properties of a row: at the path of its columns each chain of members has its datum.
def Converter.Row.Fills {c : Converter} (row : c.Row) (props : String → Datum) : Prop :=
  ∀ {names path t}, c.world.types.columnPath? c.row names = some (path, t) →
    props (".".intercalate path) = row.datum names

namespace Scope

variable {e : Expr} {op : InfixOp} {s : Span} {o : LogicOp} {d : Datum}

section Operators

theorem result?_comparison (h : comparison? op = some o) (d e : Datum) :
    o.result? d e = op.result? d e := by
  cases op <;> simp [comparison?] at h <;> subst h <;> rfl

theorem less?_cases {e : Datum} (h : d.kind = e.kind) (hd : d.kind ≠ .bool) :
    d.less? e = some true ∧ e.less? d = some false ∧ d ≠ e ∨
      d.less? e = some false ∧ e.less? d = some true ∧ d ≠ e ∨
      d.less? e = some false ∧ e.less? d = some false ∧ d = e := by
  cases d <;> cases e <;> simp [Datum.kind] at h hd
  case int.int m n =>
    simp only [Datum.less?, Option.some.injEq, decide_eq_true_eq, decide_eq_false_iff_not, ne_eq,
      Datum.int.injEq]
    omega
  case text.text s t =>
    simp only [Datum.less?, Option.some.injEq, decide_eq_true_eq, decide_eq_false_iff_not, ne_eq,
      Datum.text.injEq]
    rcases Constant.octets_trichotomy s t with hlt | rfl | hgt
    · exact .inl ⟨hlt, List.lt_asymm hlt, fun heq => List.lt_irrefl t (heq ▸ hlt)⟩
    · exact .inr (.inr ⟨List.lt_irrefl s, List.lt_irrefl s, rfl⟩)
    · exact .inr (.inl ⟨List.lt_asymm hgt, hgt, fun heq => List.lt_irrefl t (heq ▸ hgt)⟩)

theorem result?_order {e f : Datum} (ho : comparison? op = some o) (hkind : d.kind = e.kind)
    (hd : d.kind ≠ .bool) (hf : d.order? e = some f) : op.result? f (.int 0) = o.result? d e := by
  rw [result?_comparison ho]
  rcases less?_cases hkind hd with ⟨hlt, hgt, hne⟩ | ⟨hlt, hgt, hne⟩ | ⟨hlt, hgt, rfl⟩ <;>
    simp only [Datum.order?, hlt, hgt, Option.bind_some, Option.map_some,
      Option.some.injEq] at hf <;>
    subst hf <;> cases op <;> simp [comparison?] at ho <;>
    simp_all [InfixOp.result?, Datum.same?, Datum.kind, Datum.less?]

theorem result?_mirrored (ho : comparison? op = some o) (d e : Datum) :
    op.result? d e = (mirrored op).result? e d := by
  cases op <;> simp [comparison?] at ho <;>
    simp [mirrored, InfixOp.result?, Datum.same?, eq_comm]

theorem comparison?_mirrored (ho : comparison? op = some o) :
    ∃ o', comparison? (mirrored op) = some o' := by
  cases op <;> simp [comparison?] at ho <;> exact ⟨_, rfl⟩

end Operators

section Parts

variable {sc : Scope} {row : sc.toConverter.Row} {props : String → Datum}
variable {x y : Node}

-- An expression that has for a row the value that a node has.
def Agrees (sc : Scope) (row : sc.toConverter.Row) (props : String → Datum) (n : Node)
    (e : Expr) : Prop :=
  e.value? props = sc.value? row.datum n

-- Whatever the node converts to agrees with it.
abbrev Preserves (sc : Scope) (row : sc.toConverter.Row) (props : String → Datum) (n : Node) :
    Prop :=
  ∀ e, sc.convert n = .ok e → sc.Agrees row props n e

theorem agrees_fold (horder : sc.toConverter.HasPlainOrder) (hflat : sc.IsFlat)
    (hn : sc.Typed n k) (hclosed : sc.depends n = false) (h : sc.fold n = .ok e) :
    sc.Agrees row props n e := by
  obtain ⟨r, hr, h⟩ := Compilation.bind_ok h
  unfold evalResult at hr
  split at hr
  case h_2 => cases hr
  case h_1 r' heval =>
    cases hr
    obtain ⟨v, hv, hvalue⟩ := eval_sound row horder hflat hn hclosed heval
    obtain ⟨d, hd, -⟩ := hn.value row hflat
    simp only [hv] at h
    split at h
    case h_1 e' hexpr => cases hexpr
    case h_2 hnull =>
      cases hnull
      rw [hd] at hvalue
      cases hvalue
    case h_3 w _ hw =>
      cases hw
      cases h
      exact hvalue
    case h_4 hfunc => cases hfunc

theorem agrees_property {m : Node} {depth : Nat} {frame : Frame} {t : Ty} (hflat : sc.IsFlat)
    (hfills : row.Fills props) (hchain : sc.rowChain? n = some (depth, frame, names))
    (hpath : sc.world.types.columnPath? frame.row names = some (path, t))
    (hvalue : sc.value? row.datum n = some (row.datum names))
    (h : sc.property m depth frame path = .ok e) : sc.Agrees row props n e := by
  obtain ⟨rfl, hrow⟩ := hflat.rowChain? hchain
  rw [hrow] at hpath
  have hofPath : Expr.ofPath (".".intercalate path) = .ok e := by
    simpa only [property, beq_self_eq_true, if_true] using checked_ok h
  obtain ⟨owner, name, rfl, -, -, hp⟩ := Expr.path_of_ofPath hofPath
  rw [Agrees, Expr.value?, hp, hvalue, hfills hpath]

theorem agrees_compared (ho : comparison? op = some o)
    (hx : sc.Preserves row props x) (hy : sc.Preserves row props y)
    (h : compared o (sc.convert x) (sc.convert y) = .ok e) :
    sc.Agrees row props (.infixed s op x y) e := by
  obtain ⟨l, hl, h⟩ := Compilation.bind_ok h
  obtain ⟨r, hr, h⟩ := Compilation.bind_ok h
  cases h
  rw [Agrees, Expr.value?, value?, hx l hl, hy r hr]
  simp only [result?_comparison ho]

theorem agrees_junction {kind : SetKind} {b c : Bool}
    (hop : op = .both ∧ kind = .and ∨ op = .either ∧ kind = .or)
    (hb : sc.value? row.datum x = some (.bool b)) (hc : sc.value? row.datum y = some (.bool c))
    (hx : sc.Preserves row props x) (hy : sc.Preserves row props y)
    (h : sc.junction kind x y (sc.convert x) (sc.convert y) = .ok e) :
    sc.Agrees row props (.infixed s op x y) e := by
  obtain ⟨l, hl, h⟩ := Compilation.bind_ok h
  obtain ⟨r, hr, h⟩ := Compilation.bind_ok h
  cases h
  have hlvalue := (hx l (asLogic_ok hl)).trans hb
  have hrvalue := (hy r (asLogic_ok hr)).trans hc
  have hkind : kind = .and ∨ kind = .or := hop.imp And.right And.right
  rw [Agrees, Expr.value?_join hkind hlvalue hrvalue, value?, hb, hc]
  rcases hop with ⟨rfl, rfl⟩ | ⟨rfl, rfl⟩ <;> rfl

theorem isText_of_kind {ts : Types} {t : Ty} (h : t.kind? = some k) :
    ts.isText (some t) = decide (k = .text) := by
  cases t <;> simp [Ty.kind?] at h <;> subst h <;> rfl

theorem kind?_of_datum {v : Value} (h : v.datum? = some d) :
    ∃ t, v.ty? = some t ∧ t.kind? = some d.kind := by
  cases v <;> simp [Value.datum?] at h <;> subst h <;> exact ⟨_, rfl, rfl⟩

theorem chainType_of_columnPath {row : Option Ty} {t : Ty}
    (h : sc.world.types.columnPath? row names = some (path, t)) :
    sc.chainType row names = some t := by
  induction names generalizing row path with
  | nil => simp [Types.columnPath?] at h
  | cons name rest ih =>
    obtain ⟨column, type, hcolumn, ⟨rfl, -, rfl⟩ | ⟨-, -, path', hrest, -⟩⟩ :=
      Types.columnPath?_cons h
    · simp only [chainType, hcolumn]
    · simp only [chainType, hcolumn, ih hrest]

theorem isText_or {ts : Types} {t u : Option Ty} (h : ts.isText t = ts.isText u) :
    ts.isText (t.or u) = ts.isText t := by
  cases t with
  | none => exact h.symm
  | some t => rfl

theorem isText_staticType (hn : sc.Typed n k) :
    sc.world.types.isText (sc.staticType n) = decide (k = .text) := by
  induction hn with
  | paren _ ih =>
    rw [staticType]
    exact ih
  | int => rfl
  | text => rfl
  | octets => rfl
  | truth hname => rcases hname with rfl | rfl <;> rfl
  | @bound s name v d hname _ henv hd =>
    simp only [List.mem_cons, not_or] at hname
    obtain ⟨t, ht, hkind⟩ := kind?_of_datum hd
    simp only [staticType, beq_iff_eq, hname, or_self, if_false, Bool.or_eq_true, henv,
      Option.bind_some, Host.ty?, ht]
    exact isText_of_kind hkind
  | field hchain hpath hkind =>
    simp only [staticType, hchain, chainType_of_columnPath hpath]
    exact isText_of_kind hkind
  | @prefixed s op x k l _ hop ih =>
    rw [staticType]
    cases op <;> cases k <;> simp [PrefixOp.kind?] at hop <;> subst hop
    · rfl
    · exact ih
    · exact ih
  | @infixed s op x y k l m _ _ hop ihx ihy =>
    rw [staticType]
    cases op <;> cases k <;> cases l <;> simp [InfixOp.kind?] at hop <;> subst hop <;>
      first | rfl | exact (isText_or (ihx.trans ihy.symm)).trans ihx
  | order =>
    rw [staticType]
    split <;> rfl

theorem concatenate_of_result? {op : ValueOp} {e f : Datum} (h : op.result? d e = some f) :
    (op == .concatenate) = decide (f.kind = .text) := by
  cases d <;> cases e <;> simp only [ValueOp.result?, reduceCtorEq] at h
  case int.int =>
    split_ifs at h with hadd hsub hmul <;> cases h
    · rw [hadd]
      rfl
    · rw [hsub]
      rfl
    · rw [hmul]
      rfl
  case text.text =>
    split_ifs at h with hop
    cases h
    rw [hop]
    rfl

theorem concat_of_result? {kind : SetKind} {bs : List Bool} (h : kind.result? bs = some d) :
    (kind == .concat) = decide (d.kind = .text) := by
  simp only [SetKind.result?] at h
  split_ifs at h with hand hor <;> cases h
  · rw [hand]
    rfl
  · rw [hor]
    rfl

theorem isStringy_eq (hn : sc.Typed n d.kind) (hd : e.value? props = some d) :
    sc.isStringy n e = decide (d.kind = .text) := by
  cases e with
  | value v const =>
    rw [Expr.value?] at hd
    cases v <;> simp [Value.datum?] at hd <;> subst hd <;> rfl
  | compute op l r =>
    rw [Expr.value?] at hd
    obtain ⟨x, -, hd⟩ := Option.bind_eq_some_iff.1 hd
    obtain ⟨y, -, hop⟩ := Option.bind_eq_some_iff.1 hd
    exact concatenate_of_result? hop
  | set kind items =>
    rw [Expr.value?] at hd
    obtain ⟨bs, -, hkind⟩ := Option.bind_eq_some_iff.1 hd
    exact concat_of_result? hkind
  | _ => exact isText_staticType hn

theorem agrees_computed {f : Datum} (hop : op = .add ∨ op = .sub ∨ op = .mul)
    (hxtyped : sc.Typed x d.kind) (hytyped : sc.Typed y f.kind)
    (hd : sc.value? row.datum x = some d) (hf : sc.value? row.datum y = some f)
    (hdefined : (op.result? d f).isSome)
    (hx : sc.Preserves row props x) (hy : sc.Preserves row props y)
    (h : sc.computed n op x y (sc.convert x) (sc.convert y) = .ok e) :
    sc.Agrees row props (.infixed s op x y) e := by
  obtain ⟨l, hl, h⟩ := Compilation.bind_ok h
  obtain ⟨r, hr, h⟩ := Compilation.bind_ok h
  have hlvalue := (hx l hl).trans hd
  have hrvalue := (hy r hr).trans hf
  have hbits : (op == InfixOp.bitAnd || op == InfixOp.bitOr) = false := by
    rcases hop with rfl | rfl | rfl <;> rfl
  simp only [hbits, Bool.false_and, Bool.false_eq_true, if_false, isStringy_eq hxtyped hlvalue,
    isStringy_eq hytyped hrvalue] at h
  rw [Agrees, value?, hd, hf]
  cases d <;> cases f
  case int.int =>
    rcases hop with rfl | rfl | rfl <;> cases h <;> rw [Expr.value?, hlvalue, hrvalue] <;> rfl
  case text.text =>
    rcases hop with rfl | rfl | rfl
    · cases h
      rw [Expr.value?, hlvalue, hrvalue]
      rfl
    · cases hdefined
    · cases hdefined
  all_goals rcases hop with rfl | rfl | rfl <;> cases hdefined

variable (row) in
theorem value?_of_isZero (horder : sc.toConverter.HasPlainOrder) (hflat : sc.IsFlat)
    (hn : sc.Typed n k) (h : sc.isZero n = .ok true) : sc.value? row.datum n = some (.int 0) := by
  unfold isZero at h
  split at h
  case isTrue => cases h
  case isFalse hclosed =>
    split at h
    case h_1 => cases h
    case h_2 => cases h
    case h_3 r heval =>
      obtain ⟨v, hv, hvalue⟩ :=
        eval_sound row horder hflat hn (by simpa using hclosed) heval
      obtain ⟨d, hd, -⟩ := hn.value row hflat
      rw [hd] at hvalue ⊢
      obtain ⟨c, hc, hdatum⟩ := Constant.ofValue?_of_datum hvalue
      have hzero : c.isZero = true := by simpa [hv, constant?, hc] using h
      cases c <;> simp_all [Constant.isZero, Constant.datum?]

-- What a call for the order of two data gives a comparison with zero: the comparison of the data.
def Compares (sc : Scope) (row : sc.toConverter.Row) (props : String → Datum) (n : Node) : Prop :=
  ∀ o e, sc.isCompareCall n = true → sc.comparands o n = .ok e →
    ∃ d f, sc.value? row.datum n = d.order? f ∧ d.kind = f.kind ∧ d.kind ≠ .bool ∧
      e.value? props = o.result? d f

theorem agrees_comparison {l : Kind} (ho : comparison? op = some o)
    (horder : sc.toConverter.HasPlainOrder) (hflat : sc.IsFlat) (hxtyped : sc.Typed x k)
    (hytyped : sc.Typed y l) (hx : sc.Preserves row props x) (hy : sc.Preserves row props y)
    (hxorder : sc.Compares row props x) (hyorder : sc.Compares row props y)
    (hdepends : sc.depends (.infixed s op x y) = true)
    (h : sc.convert (.infixed s op x y) = .ok e) : sc.Agrees row props (.infixed s op x y) e := by
  obtain ⟨yzero, hzero, ⟨hboth, h⟩ | ⟨-, xzero, hzero, ⟨hboth, h⟩ | ⟨-, h⟩⟩⟩ :=
    comparison_ok ho hdepends h
  · obtain ⟨hcall, rfl⟩ := Bool.and_eq_true_iff.mp hboth
    obtain ⟨d, f, hvalue, hkind, hbool, he⟩ := hxorder o e hcall h
    obtain ⟨g, hg, -⟩ := kind_order hkind hbool
    have hzero := value?_of_isZero row horder hflat hytyped hzero
    rw [Agrees, he, value?, hvalue, hg, hzero]
    exact (result?_order ho hkind hbool hg).symm
  · obtain ⟨hcall, rfl⟩ := Bool.and_eq_true_iff.mp hboth
    obtain ⟨o', ho'⟩ := comparison?_mirrored ho
    rw [ho', Option.getD_some] at h
    obtain ⟨d, f, hvalue, hkind, hbool, he⟩ := hyorder o' e hcall h
    obtain ⟨g, hg, -⟩ := kind_order hkind hbool
    have hzero := value?_of_isZero row horder hflat hxtyped hzero
    rw [Agrees, he, value?, hvalue, hg, hzero]
    exact ((result?_mirrored ho _ _).trans (result?_order ho' hkind hbool hg)).symm
  · exact agrees_compared ho hx hy h

theorem agrees_prefixed {op : PrefixOp} {l : Kind} (hflat : sc.IsFlat) (hxtyped : sc.Typed x k)
    (hop : op.kind? k = some l) (hx : sc.Preserves row props x)
    (hdepends : sc.depends (.prefixed s op x) = true) (h : sc.convert (.prefixed s op x) = .ok e) :
    sc.Agrees row props (.prefixed s op x) e := by
  obtain ⟨d, hd, rfl⟩ := hxtyped.value row hflat
  rw [convert.eq_def] at h
  simp only [hdepends, if_true] at h
  cases op <;> cases d <;> simp [PrefixOp.kind?, Datum.kind] at hop
  case not.bool b =>
    obtain ⟨l, hl, h⟩ := Compilation.bind_ok h
    cases h
    rw [Agrees, Expr.value?, value?, hx l (asLogic_ok hl), hd]
    rfl
  case minus.int n =>
    obtain ⟨l, hl, h⟩ := Compilation.bind_ok h
    cases h
    rw [Agrees, Expr.value?, value?, hx l hl, hd]
    rfl
  case plus.int n =>
    rw [Agrees, value?, hx e h, hd]
    rfl

theorem agrees_infixed {l m : Kind} (horder : sc.toConverter.HasPlainOrder) (hflat : sc.IsFlat)
    (hxtyped : sc.Typed x k) (hytyped : sc.Typed y l) (hop : op.kind? k l = some m)
    (hx : sc.Preserves row props x) (hy : sc.Preserves row props y)
    (hxorder : sc.Compares row props x) (hyorder : sc.Compares row props y)
    (hdepends : sc.depends (.infixed s op x y) = true)
    (h : sc.convert (.infixed s op x y) = .ok e) : sc.Agrees row props (.infixed s op x y) e := by
  cases ho : comparison? op with
  | some o =>
    exact agrees_comparison ho horder hflat hxtyped hytyped hx hy hxorder hyorder hdepends h
  | none =>
    obtain ⟨d, hd, rfl⟩ := hxtyped.value row hflat
    obtain ⟨f, hf, rfl⟩ := hytyped.value row hflat
    obtain ⟨g, hg, -⟩ := InfixOp.result?_of_kind hop
    rw [convert.eq_def] at h
    simp only [hdepends, if_true, ho] at h
    cases op <;> cases d <;> cases f <;> simp [InfixOp.kind?, Datum.kind, comparison?] at hop ho
    case both.bool.bool => exact agrees_junction (.inl ⟨rfl, rfl⟩) hd hf hx hy h
    case either.bool.bool => exact agrees_junction (.inr ⟨rfl, rfl⟩) hd hf hx hy h
    all_goals exact agrees_computed (by decide) hxtyped hytyped hd hf (by rw [hg]; rfl) hx hy h

end Parts

section Main

variable {sc : Scope} {row : sc.toConverter.Row} {props : String → Datum}

theorem convert_order {t u : Span} {pkg : String} {a b : Node} (hpkg : sc.isPackage pkg = true)
    (hk : pkg = "strings" ∧ k = .text ∨ pkg = "cmp" ∧ k ≠ .bool)
    (hdepends : sc.depends (.call s (.selector t (.ident u pkg) "Compare") [a, b]) = true) :
    sc.convert (.call s (.selector t (.ident u pkg) "Compare") [a, b]) ≠ .ok e := by
  intro h
  have hfunc : sc.isContainsFunc (.selector t (.ident u pkg) "Compare") = false := by
    unfold isContainsFunc
    split <;> simp_all
  rw [convert.eq_def] at h
  simp only [hdepends, hfunc, if_true, Bool.false_eq_true, if_false, package?, hpkg] at h
  rcases hk with ⟨rfl, -⟩ | ⟨rfl, -⟩ <;> cases h

theorem convert_sound (horder : sc.toConverter.HasPlainOrder) (hflat : sc.IsFlat)
    (hfills : row.Fills props) (hn : sc.Typed n k) :
    sc.Preserves row props n ∧ sc.Compares row props n := by
  induction hn with
  | paren _ ih =>
    refine ⟨fun e h => ?_, fun o e hcall h => ?_⟩
    · rw [convert] at h
      rw [Agrees, value?, ih.1 e h]
    · rw [comparands] at h
      rw [value?]
      exact ih.2 o e hcall h
  | int =>
    refine ⟨fun e h => ?_, fun o e hcall => ?_⟩
    · exact agrees_fold horder hflat .int rfl h
    · cases hcall
  | text =>
    refine ⟨fun e h => ?_, fun o e hcall => ?_⟩
    · exact agrees_fold horder hflat .text rfl h
    · cases hcall
  | octets =>
    refine ⟨fun e h => ?_, fun o e hcall => ?_⟩
    · exact agrees_fold horder hflat .octets rfl h
    · cases hcall
  | truth hname =>
    refine ⟨fun e h => ?_, fun o e hcall => ?_⟩
    · rw [convert] at h
      split at h
      · cases h
      · next hparam =>
        exact agrees_fold horder hflat (.truth hname) (by simpa [depends] using hparam) h
    · cases hcall
  | bound hname hparam henv hd =>
    refine ⟨fun e h => ?_, fun o e hcall => ?_⟩
    · rw [convert, if_neg (by simp [hparam])] at h
      exact agrees_fold horder hflat (.bound hname hparam henv hd) (by rw [depends, hparam]) h
    · cases hcall
  | field hchain hpath hkind =>
    refine ⟨fun e h => ?_, fun o e hcall => ?_⟩
    · obtain ⟨m, hm⟩ := convert_of_columnPath hchain hpath
      rw [hm] at h
      exact agrees_property hflat hfills hchain hpath (by rw [value?, hchain]; rfl) h
    · cases hcall
  | @prefixed s op x k l hx hop ih =>
    refine ⟨fun e h => ?_, fun o e hcall => ?_⟩
    · by_cases hdepends : sc.depends (.prefixed s op x) = true
      · exact agrees_prefixed hflat hx hop ih.1 hdepends h
      · rw [convert.eq_def] at h
        simp only [hdepends, Bool.false_eq_true, if_false] at h
        exact agrees_fold horder hflat (.prefixed hx hop) (by simpa using hdepends) h
    · cases hcall
  | @infixed s op x y k l m hx hy hop ihx ihy =>
    refine ⟨fun e h => ?_, fun o e hcall => ?_⟩
    · by_cases hdepends : sc.depends (.infixed s op x y) = true
      · exact agrees_infixed horder hflat hx hy hop ihx.1 ihy.1 ihx.2 ihy.2 hdepends h
      · rw [convert.eq_def] at h
        simp only [hdepends, Bool.false_eq_true, if_false] at h
        exact agrees_fold horder hflat (.infixed hx hy hop) (by simpa using hdepends) h
    · cases hcall
  | @order s t u pkg a b k hpkg hk ha hb iha ihb =>
    refine ⟨fun e h => ?_, fun o e hcall h => ?_⟩
    · by_cases hdepends : sc.depends (.call s (.selector t (.ident u pkg) "Compare") [a, b]) = true
      · exact absurd h (convert_order hpkg hk hdepends)
      · rw [convert.eq_def] at h
        simp only [hdepends, Bool.false_eq_true, if_false] at h
        exact agrees_fold horder hflat (.order hpkg hk ha hb) (by simpa using hdepends) h
    · rw [comparands] at h
      obtain ⟨l, hl, h⟩ := Compilation.bind_ok h
      obtain ⟨r, hr, h⟩ := Compilation.bind_ok h
      cases h
      obtain ⟨d, hd, rfl⟩ := ha.value row hflat
      obtain ⟨f, hf, hkind⟩ := hb.value row hflat
      obtain ⟨hordering, hbool⟩ := isOrdering_of_package (t := t) (u := u) hpkg hk
      refine ⟨d, f, ?_, hkind.symm, hbool, ?_⟩
      · rw [value?, if_pos hordering, hd, hf]
        rfl
      · rw [Expr.value?, iha.1 l hl, ihb.1 r hr, hd, hf]
        rfl

end Main

end Scope

namespace Converter

theorem read_ok {c : Converter} {source param : String} {sc : Scope}
    (h : c.read source param = .ok (sc, n)) : sc.toConverter = c ∧ sc.IsFlat := by
  unfold read at h
  simp only at h
  split at h
  · cases h
  · split at h
    · cases h
      exact ⟨rfl, _, rfl⟩
    · unfold Scope.lambdaFault at h
      split_ifs at h <;> cases h
    · cases h
      exact ⟨rfl, _, rfl⟩

-- Conversion preserves meaning: the expression that a source over the data of a row is converted
-- to has for every row the value that the source has, whatever parts of it were evaluated.
theorem expression_value (c : Converter) (horder : c.HasPlainOrder) (row : c.Row)
    {props : String → Datum} (hfills : row.Fills props) {source : String} {sc : Scope} {n : Node}
    {k : Kind} (hread : c.read source c.param = .ok (sc, n)) (hn : sc.Typed n k) {e : Expr}
    (h : c.expression source = .ok e) :
    ∃ d, d.kind = k ∧ sc.value? row.datum n = some d ∧ e.value? props = some d := by
  obtain ⟨rfl, hflat⟩ := read_ok hread
  have hconvert : sc.convert n = .ok e := by
    simpa [expression, hread, bind, Except.bind] using h
  obtain ⟨d, hd, hkind⟩ := hn.value row hflat
  exact ⟨d, hkind, hd, ((Scope.convert_sound horder hflat hfills hn).1 e hconvert).trans hd⟩

def ofMembers : Converter where
  row := some (.record [⟨"Age", .int .int, some "age", false⟩, ⟨"Name", .text, none, false⟩,
    ⟨"Active", .bool, some "is_active", false⟩])
  env := [("limit", .value (.int .int 3)), ("suffix", .value (.text "b"))]

theorem columnPath?_ofMembers {t : Ty}
    (h : ofMembers.world.types.columnPath? ofMembers.row names = some (path, t)) :
    names = ["Age"] ∧ path = ["age"] ∧ t = .int .int ∨
      names = ["Name"] ∧ path = ["Name"] ∧ t = .text ∨
      names = ["Active"] ∧ path = ["is_active"] ∧ t = .bool := by
  cases names with
  | nil => cases h
  | cons name rest =>
    obtain ⟨column, type, hcolumn, -⟩ := Types.columnPath?_cons h
    have hname := Types.mem_names_of_column? (by decide) hcolumn
    simp only [List.map_cons, List.map_nil, List.mem_cons, List.not_mem_nil, or_false] at hname
    rcases hname with rfl | rfl | rfl <;> cases rest <;> cases h
    · exact .inl ⟨rfl, rfl, rfl⟩
    · exact .inr (.inl ⟨rfl, rfl, rfl⟩)
    · exact .inr (.inr ⟨rfl, rfl, rfl⟩)

def sampleProps : String → Datum
  | "age" => .int 41
  | "Name" => .text (Text.Utf8.encode "Bobby")
  | _ => .bool true

def sampleRow : ofMembers.Row where
  datum
    | ["Age"] => .int 41
    | ["Name"] => .text (Text.Utf8.encode "Bobby")
    | _ => .bool true
  kind := by
    intro names path t k hpath hkind
    rcases columnPath?_ofMembers hpath with ⟨rfl, -, rfl⟩ | ⟨rfl, -, rfl⟩ | ⟨rfl, -, rfl⟩ <;>
      cases hkind <;> rfl

-- Order calls on both sides of zero, both kinds of sums, a folded product and nested junctions.
def mixedSource : String :=
  "func(m Member) bool \x7b return strings.Compare(m.Name, \"Bo\" + suffix) > 0 && " ++
    "!(-m.Age + 2*limit <= 3) || 0 == cmp.Compare(m.Age, 7) && m.Active == true \x7d"

theorem exists_typed {c : Converter} {source text : String} {k : Kind}
    (h : ((c.read source c.param).toOption.bind fun r => (r.1.kind? r.2).bind fun k =>
      (r.1.convert r.2).toOption.map fun e => (k, e.display)) = some (k, text)) :
    ∃ sc n e, c.read source c.param = .ok (sc, n) ∧ sc.Typed n k ∧
      c.expression source = .ok e ∧ e.display = text := by
  cases hread : c.read source c.param with
  | error e => simp [hread, Except.toOption] at h
  | ok r =>
    obtain ⟨sc, n⟩ := r
    simp only [hread, Except.toOption, Option.bind_some, Option.bind_eq_some_iff,
      Option.map_eq_some_iff, Prod.mk.injEq] at h
    obtain ⟨k', hkind, e, hconvert, rfl, hdisplay⟩ := h
    have he : sc.convert n = .ok e := by
      cases hc : sc.convert n with
      | error err => simp [hc] at hconvert
      | ok e' => simpa [hc] using hconvert
    refine ⟨sc, n, e, rfl, Scope.typed_of_kind? hkind, ?_, hdisplay⟩
    simpa [expression, hread, bind, Except.bind] using he

theorem expression_value_mixed :
    ofMembers.HasPlainOrder ∧ sampleRow.Fills sampleProps ∧
      ∃ sc n e, ofMembers.read mixedSource ofMembers.param = .ok (sc, n) ∧ sc.Typed n .bool ∧
        ofMembers.expression mixedSource = .ok e ∧
        e.display = "(((Name > @\"Bob\") AND NOT ((-age + @6) <= 3)) OR " ++
          "((age = 7) AND (is_active = true)))" ∧
        ∃ d, d.kind = .bool ∧ sc.value? sampleRow.datum n = some d ∧
          e.value? sampleProps = some d := by
  have horder : ofMembers.HasPlainOrder := fun _ _ => rfl
  have hfills : sampleRow.Fills sampleProps := by
    intro names path t hpath
    rcases columnPath?_ofMembers hpath with ⟨rfl, rfl, -⟩ | ⟨rfl, rfl, -⟩ | ⟨rfl, rfl, -⟩ <;> rfl
  obtain ⟨sc, n, e, hread, hn, he, hdisplay⟩ := @exists_typed ofMembers mixedSource
    ("(((Name > @\"Bob\") AND NOT ((-age + @6) <= 3)) OR " ++
      "((age = 7) AND (is_active = true)))") .bool (by decide +kernel)
  exact ⟨horder, hfills, sc, n, e, hread, hn, he, hdisplay,
    expression_value ofMembers horder sampleRow hfills hread hn he⟩

end Converter
end QueryTree.Lambda
