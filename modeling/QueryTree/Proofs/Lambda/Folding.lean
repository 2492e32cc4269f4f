import QueryTree.Proofs.Lambda.Arithmetic
import QueryTree.Proofs.Lambda.Member
import QueryTree.Proofs.Sql.Outcome

namespace QueryTree.Lambda

namespace Converter

-- A row of the type that a converter is for: a datum for each chain of members down to a column,
-- of the kind that the type of the column has.
structure Row (c : Converter) where
  datum : List String → Datum
  kind : ∀ {names path t k}, c.world.types.columnPath? c.row names = some (path, t) →
    t.kind? = some k → (datum names).kind = k

-- The host adds nothing that would stand for the order of data.
def HasPlainOrder (c : Converter) : Prop :=
  ∀ name ∈ ["strings.Compare", "cmp.Compare", "cmp"], c.funcs.lookup name = none

end Converter

namespace Scope

variable {s : Span} {r : Result} {enclosed : Bool}

def named? (sc : Scope) (name : String) : Option Datum :=
  if name = "true" then some (.bool true)
  else if name = "false" then some (.bool false)
  else match sc.env.lookup name with
    | some (.value v) => v.datum?
    | _ => none

def isOrdering (sc : Scope) : Node → Bool
  | .selector _ (.ident _ pkg) name =>
    name == "Compare" && sc.isPackage pkg && (pkg == "strings" || pkg == "cmp")
  | _ => false

-- What a lambda stands for where the members of its row have values.
def value? (sc : Scope) (row : List String → Datum) : Node → Option Datum
  | .paren _ x => sc.value? row x
  | .literal _ (.int n) => some (.int n)
  | .literal _ (.text s) => some (.text (Text.Utf8.encode s))
  | .literal _ (.octets bs) => some (.text bs)
  | .ident _ name => sc.named? name
  | .selector s x name => (sc.rowChain? (.selector s x name)).map fun chain => row chain.2.2
  | .prefixed _ op x => (sc.value? row x).bind op.result?
  | .infixed _ op x y =>
    (sc.value? row x).bind fun d => (sc.value? row y).bind fun e => op.result? d e
  | .call _ fn [a, b] =>
    if sc.isOrdering fn then
      (sc.value? row a).bind fun d => (sc.value? row b).bind fun e => d.order? e
    else none
  | _ => none

-- The lambdas over the data of a row, each with its kind: literals, variables of the host,
-- members of the row down to columns, and operators on all of these.
inductive Typed (sc : Scope) : Node → Kind → Prop where
  | paren {s x k} : Typed sc x k → Typed sc (.paren s x) k
  | int {s n} : Typed sc (.literal s (.int n)) .int
  | text {s t} : Typed sc (.literal s (.text t)) .text
  | octets {s bs} : Typed sc (.literal s (.octets bs)) .text
  | truth {s name} : name = "true" ∨ name = "false" → Typed sc (.ident s name) .bool
  | bound {s name v d} : name ∉ ["true", "false", "nil"] → sc.isParam name = false →
      sc.env.lookup name = some (.value v) → v.datum? = some d → Typed sc (.ident s name) d.kind
  | field {s x name depth frame names path t k} :
      sc.rowChain? (.selector s x name) = some (depth, frame, names) →
      sc.world.types.columnPath? frame.row names = some (path, t) → t.kind? = some k →
      Typed sc (.selector s x name) k
  | prefixed {s op x k l} : Typed sc x k → op.kind? k = some l → Typed sc (.prefixed s op x) l
  | infixed {s op x y k l m} : Typed sc x k → Typed sc y l → op.kind? k l = some m →
      Typed sc (.infixed s op x y) m
  | order {s t u pkg a b k} : sc.isPackage pkg = true →
      pkg = "strings" ∧ k = .text ∨ pkg = "cmp" ∧ k ≠ .bool → Typed sc a k → Typed sc b k →
      Typed sc (.call s (.selector t (.ident u pkg) "Compare") [a, b]) .int

def ordersKind (sc : Scope) (k : Kind) : Node → Bool
  | .selector _ (.ident _ pkg) "Compare" =>
    sc.isPackage pkg && (pkg == "strings" && k == .text || pkg == "cmp" && k != .bool)
  | _ => false

def kind? (sc : Scope) : Node → Option Kind
  | .paren _ x => sc.kind? x
  | .literal _ (.int _) => some .int
  | .literal _ (.text _) | .literal _ (.octets _) => some .text
  | .ident _ name =>
    if name = "true" ∨ name = "false" then some .bool
    else if name = "nil" ∨ sc.isParam name then none
    else (sc.named? name).map Datum.kind
  | .selector s x name =>
    (sc.rowChain? (.selector s x name)).bind fun chain =>
      (sc.world.types.columnPath? chain.2.1.row chain.2.2).bind fun column => column.2.kind?
  | .prefixed _ op x => (sc.kind? x).bind op.kind?
  | .infixed _ op x y => (sc.kind? x).bind fun k => (sc.kind? y).bind fun l => op.kind? k l
  | .call _ fn [a, b] =>
    (sc.kind? a).bind fun k =>
      if sc.kind? b = some k ∧ sc.ordersKind k fn then some .int else none
  | _ => none

theorem typed_of_kind? {sc : Scope} {n : Node} {k : Kind} (h : sc.kind? n = some k) :
    sc.Typed n k := by
  fun_induction kind? sc n generalizing k with
  | case1 s x ih => exact .paren (ih h)
  | case2 s n =>
    cases h
    exact .int
  | case3 s t =>
    cases h
    exact .text
  | case4 s bs =>
    cases h
    exact .octets
  | case5 s name hname =>
    cases h
    exact .truth hname
  | case6 => cases h
  | case7 s name hname hother =>
    obtain ⟨d, hd, rfl⟩ := Option.map_eq_some_iff.1 h
    obtain ⟨htrue, hfalse⟩ := not_or.1 hname
    obtain ⟨hnil, hparam⟩ := not_or.1 hother
    simp only [named?, htrue, hfalse, if_false] at hd
    split at hd
    case h_1 v henv => exact .bound (by simp_all) (by simpa using hparam) henv hd
    case h_2 => cases hd
  | case8 s x name =>
    obtain ⟨⟨depth, frame, names⟩, hchain, h⟩ := Option.bind_eq_some_iff.1 h
    obtain ⟨⟨path, t⟩, hpath, h⟩ := Option.bind_eq_some_iff.1 h
    exact .field hchain hpath h
  | case9 s op x ih =>
    obtain ⟨l, hl, h⟩ := Option.bind_eq_some_iff.1 h
    exact .prefixed (ih hl) h
  | case10 s op x y ihx ihy =>
    obtain ⟨l, hl, h⟩ := Option.bind_eq_some_iff.1 h
    obtain ⟨m, hm, h⟩ := Option.bind_eq_some_iff.1 h
    exact .infixed (ihx hl) (ihy hm) h
  | case11 s fn a b iha ihb =>
    obtain ⟨l, hl, h⟩ := Option.bind_eq_some_iff.1 h
    split at h
    case isTrue hboth =>
      cases h
      obtain ⟨hm, horders⟩ := hboth
      unfold ordersKind at horders
      split at horders
      · simp only [Bool.and_eq_true, Bool.or_eq_true, beq_iff_eq, bne_iff_ne, ne_eq] at horders
        exact .order horders.1 horders.2 (iha hl) (ihb hm)
      · cases horders
    case isFalse => cases h
  | case12 => cases h

theorem orderOctets_eq (as bs : List UInt8) :
    Datum.order? (.text as) (.text bs) = some (.int (orderOctets as bs)) := by
  induction as generalizing bs with
  | nil => cases bs <;> simp [Datum.order?, Datum.less?, orderOctets]
  | cons a as ih =>
    cases bs with
    | nil => simp [Datum.order?, Datum.less?, orderOctets]
    | cons b bs =>
      have hrest := ih bs
      simp only [Datum.order?, Datum.less?, Option.bind_some, Option.map_some, Option.some.injEq,
        Datum.int.injEq, decide_eq_true_eq, List.cons_lt_cons_iff] at hrest ⊢
      rw [orderOctets, ← hrest]
      grind

def IsFlat (sc : Scope) : Prop := ∃ name, sc.frames = [⟨name, sc.row⟩]

variable {sc : Scope}

theorem IsFlat.rowChain? (hflat : sc.IsFlat) {n : Node} {depth : Nat} {frame : Frame}
    {names : List String} (h : sc.rowChain? n = some (depth, frame, names)) :
    depth = 0 ∧ frame.row = sc.row := by
  obtain ⟨name, hframes⟩ := hflat
  obtain ⟨root, -, hframe⟩ := rowChain?_eq_some h
  have hget := (getElem?_of_frame? hframe).1
  rw [hframes] at hget
  cases depth with
  | zero =>
    obtain rfl : (⟨name, sc.row⟩ : Frame) = frame := by simpa using hget
    exact ⟨rfl, rfl⟩
  | succ i => simp at hget

variable (row : sc.toConverter.Row)

theorem kind_order {d e : Datum} (h : d.kind = e.kind) (hd : d.kind ≠ .bool) :
    ∃ f, d.order? e = some f ∧ f.kind = .int := by
  cases d <;> cases e <;> simp [Datum.kind] at h hd <;> exact ⟨_, rfl, rfl⟩

theorem isOrdering_of_package {t u : Span} {pkg : String} {k : Kind}
    (hpkg : sc.isPackage pkg = true) (hk : pkg = "strings" ∧ k = .text ∨ pkg = "cmp" ∧ k ≠ .bool) :
    sc.isOrdering (.selector t (.ident u pkg) "Compare") = true ∧ k ≠ .bool := by
  rcases hk with ⟨rfl, rfl⟩ | ⟨rfl, hk⟩
  · exact ⟨by simp [isOrdering, hpkg], by decide⟩
  · exact ⟨by simp [isOrdering, hpkg], hk⟩

theorem Typed.value {n : Node} {k : Kind} (hflat : sc.IsFlat) (hn : sc.Typed n k) :
    ∃ d, sc.value? row.datum n = some d ∧ d.kind = k := by
  induction hn with
  | paren _ ih =>
    rw [value?]
    exact ih
  | int => exact ⟨_, by rw [value?], rfl⟩
  | text => exact ⟨_, by rw [value?], rfl⟩
  | octets => exact ⟨_, by rw [value?], rfl⟩
  | truth hname =>
    rw [value?]
    rcases hname with rfl | rfl
    · exact ⟨.bool true, rfl, rfl⟩
    · exact ⟨.bool false, rfl, rfl⟩
  | @bound s name v d hname _ henv hd =>
    simp only [List.mem_cons, not_or] at hname
    exact ⟨d, by simp [value?, named?, hname, henv, hd], rfl⟩
  | field hchain hpath hkind =>
    obtain ⟨rfl, hrow⟩ := hflat.rowChain? hchain
    rw [hrow] at hpath
    exact ⟨_, by rw [value?, hchain]; rfl, row.kind hpath hkind⟩
  | prefixed _ hop ih =>
    obtain ⟨d, hd, rfl⟩ := ih
    obtain ⟨e, he, hkind⟩ := PrefixOp.result?_of_kind hop
    exact ⟨e, by simp [value?, hd, he], hkind⟩
  | infixed _ _ hop ihx ihy =>
    obtain ⟨d, hd, rfl⟩ := ihx
    obtain ⟨e, he, rfl⟩ := ihy
    obtain ⟨f, hf, hkind⟩ := InfixOp.result?_of_kind hop
    exact ⟨f, by simp [value?, hd, he, hf], hkind⟩
  | @order s t u pkg a b k hpkg hk _ _ iha ihb =>
    obtain ⟨d, hd, rfl⟩ := iha
    obtain ⟨e, he, hkind⟩ := ihb
    obtain ⟨hordering, hbool⟩ := isOrdering_of_package (t := t) (u := u) hpkg hk
    obtain ⟨f, hf, hint⟩ := kind_order hkind.symm hbool
    exact ⟨f, by simp [value?, hordering, hd, he, hf], hint⟩

-- A result of evaluation that stands for what a node stands for.
def Yields (sc : Scope) (row : sc.toConverter.Row) (n : Node) (h : Host) : Prop :=
  ∃ v, h = .value v ∧ v.datum? = sc.value? row.datum n

variable {row}

theorem yields_prefixResult {op : PrefixOp} {x : Node} {d e : Datum} {out : Result}
    (hx : sc.Yields row x r.value) (hd : sc.value? row.datum x = some d)
    (he : op.result? d = some e) (h : prefixResult op r = .ok out) :
    sc.Yields row (.prefixed s op x) out.value := by
  obtain ⟨v, hv, hvalue⟩ := hx
  rw [hd] at hvalue
  obtain ⟨c, hc, hdatum⟩ := Constant.ofValue?_of_datum hvalue
  have haddress : (op == PrefixOp.address) = false := by
    cases op <;> first | rfl | (cases d <;> simp [PrefixOp.result?] at he)
  simp only [prefixResult, haddress, Bool.false_eq_true, if_false, hv, hc] at h
  obtain ⟨w, hw, hout⟩ := Compilation.bind_ok h
  cases hout
  exact ⟨w, rfl, by simp [value?, hd, he, Constant.prefixValue_sound hdatum he hw]⟩

theorem yields_infixResult {op : InfixOp} {x y : Node} {d e f : Datum} {t out : Result}
    (hx : sc.Yields row x r.value) (hy : sc.Yields row y t.value)
    (hd : sc.value? row.datum x = some d) (he : sc.value? row.datum y = some e)
    (hf : op.result? d e = some f) (h : infixResult op r t = .ok out) :
    sc.Yields row (.infixed s op x y) out.value := by
  obtain ⟨v, hv, hvalue⟩ := hx
  obtain ⟨w, hw, hother⟩ := hy
  rw [hd] at hvalue
  rw [he] at hother
  obtain ⟨a, ha, hadatum⟩ := Constant.ofValue?_of_datum hvalue
  obtain ⟨b, hb, hbdatum⟩ := Constant.ofValue?_of_datum hother
  simp only [infixResult, hv, hw, constant?, ha, hb] at h
  split at h
  · obtain ⟨u, hu, hout⟩ := Compilation.bind_ok h
    cases hout
    exact ⟨u, rfl, by simp [value?, hd, he, hf, Constant.infixValue_sound hadatum hbdatum hf hu]⟩
  · cases h

theorem yields_decided {op : InfixOp} {x y : Node} {d e f : Datum} (hx : sc.Yields row x r.value)
    (hd : sc.value? row.datum x = some d) (he : sc.value? row.datum y = some e)
    (hf : op.result? d e = some f) (h : decides op r = true) :
    sc.Yields row (.infixed s op x y) r.value := by
  obtain ⟨v, hv, hvalue⟩ := hx
  refine ⟨v, hv, ?_⟩
  rw [hvalue, value?, hd, he]
  simp only [Option.bind_some]
  cases v <;> simp [decides, hv] at h
  case bool b =>
    obtain rfl : Datum.bool b = d := by simpa [Value.datum?, hd] using hvalue
    rcases h with ⟨rfl, rfl⟩ | ⟨rfl, rfl⟩ <;> cases e <;> simp [InfixOp.result?] at hf ⊢

-- A function of the host that orders texts by their octets.
def ordering : HostFunction := textTest int fun s t => .int .int (orderOctets s t)

theorem lookup_strings_compare (clock : Time) :
    (functions clock).lookup "strings.Compare" = some ordering := rfl

theorem lookup_cmp_compare (clock : Time) : (functions clock).lookup "cmp.Compare" = none := rfl

theorem assign_text {v : Value} {bs : List UInt8} (types : Types)
    (h : v.datum? = some (.text bs)) :
    v.assign? types .text = some v ∧ v.textOctets? = some bs := by
  have hty : (some Ty.text == some Ty.text) = true := rfl
  cases v <;> simp [Value.datum?] at h <;> subst h <;>
    simp [Value.assign?, Value.isNull, Value.ty?, Value.textOctets?, Value.under, hty]

theorem eval_call {fn : Node} {args : List Node} (h : specialCall? fn = none) :
    sc.eval enclosed (.call s fn args) = (do
      let r ← sc.eval false fn
      let f ← sc.asFunction fn args.length r.value
      sc.finish fn f (← sc.evalArgs fn f 0 args)) := by
  rw [eval.eq_def]
  simp only [h]

theorem specialCall?_compare (s t : Span) (pkg : String) :
    specialCall? (.selector s (.ident t pkg) "Compare") = none := by
  unfold specialCall?
  split <;> simp_all

theorem assignArg_ordering {fn : Node} {i : Nat} {v : Value} {bs : List UInt8}
    {out : Operand} (hv : v.datum? = some (.text bs)) (hi : i < 2)
    (h : sc.assignArg fn ordering i (.value v) = .ok out) :
    out = .value v ∧ v.textOctets? = some bs := by
  obtain ⟨hassign, hoctets⟩ := assign_text sc.world.types hv
  have hparam : ordering.paramAt i = .text := by
    obtain rfl | rfl : i = 0 ∨ i = 1 := by omega
    · rfl
    · rfl
  simp only [assignArg, Host.assign, hparam, hassign] at h
  exact ⟨by cases h; rfl, hoctets⟩

theorem text_of_yields {n : Node} {host : Host} (h : sc.Yields row n host)
    (hn : ∃ d, sc.value? row.datum n = some d ∧ d.kind = .text) :
    ∃ v bs, host = .value v ∧ v.datum? = some (.text bs) ∧
      sc.value? row.datum n = some (.text bs) := by
  obtain ⟨v, hv, hvalue⟩ := h
  obtain ⟨d, hd, hkind⟩ := hn
  cases d with
  | text bs => exact ⟨v, bs, hv, by rw [hvalue, hd], hd⟩
  | int n => cases hkind
  | bool b => cases hkind

theorem evalArgs_ordering {fn a b : Node} {args : List Operand}
    (ha : ∀ r, sc.eval false a = .ok r → sc.Yields row a r.value)
    (hb : ∀ r, sc.eval false b = .ok r → sc.Yields row b r.value)
    (hatext : ∃ d, sc.value? row.datum a = some d ∧ d.kind = .text)
    (hbtext : ∃ d, sc.value? row.datum b = some d ∧ d.kind = .text)
    (h : sc.evalArgs fn ordering 0 [a, b] = .ok args) :
    ∃ v w as bs, args = [.value v, .value w] ∧ v.textOctets? = some as ∧ w.textOctets? = some bs ∧
      sc.value? row.datum a = some (.text as) ∧ sc.value? row.datum b = some (.text bs) := by
  simp only [evalArgs] at h
  obtain ⟨r, hr, h⟩ := Compilation.bind_ok h
  obtain ⟨v, as, hv, hvdatum, hvalue⟩ := text_of_yields (ha r hr) hatext
  obtain ⟨o, ho, h⟩ := Compilation.bind_ok h
  obtain ⟨rest, hrest, h⟩ := Compilation.bind_ok h
  obtain ⟨t, ht, hrest⟩ := Compilation.bind_ok hrest
  obtain ⟨w, bs, hw, hwdatum, hother⟩ := text_of_yields (hb t ht) hbtext
  obtain ⟨p, hp, hrest⟩ := Compilation.bind_ok hrest
  rw [hv] at ho
  rw [hw] at hp
  obtain ⟨rfl, has⟩ := assignArg_ordering hvdatum (by omega) ho
  obtain ⟨rfl, hbs⟩ := assignArg_ordering hwdatum (by omega) hp
  cases hrest
  cases h
  exact ⟨v, w, as, bs, rfl, has, hbs, hvalue, hother⟩

theorem yields_order {t u : Span} {a b : Node} (horder : sc.toConverter.HasPlainOrder)
    (hpkg : sc.isPackage "strings" = true)
    (ha : ∀ r, sc.eval false a = .ok r → sc.Yields row a r.value)
    (hb : ∀ r, sc.eval false b = .ok r → sc.Yields row b r.value)
    (hatext : ∃ d, sc.value? row.datum a = some d ∧ d.kind = .text)
    (hbtext : ∃ d, sc.value? row.datum b = some d ∧ d.kind = .text)
    (h : sc.eval enclosed (.call s (.selector t (.ident u "strings") "Compare") [a, b]) = .ok r) :
    sc.Yields row (.call s (.selector t (.ident u "strings") "Compare") [a, b]) r.value := by
  have hbound : sc.isBound "strings" = false := by
    simpa using (Bool.and_eq_true_iff.1 hpkg).2
  rw [eval_call (specialCall?_compare t u "strings")] at h
  obtain ⟨f, hf, h⟩ := Compilation.bind_ok h
  rw [eval] at hf
  have hfull : "strings" ++ "." ++ "Compare" = "strings.Compare" := rfl
  simp only [packageMember?, hbound, Bool.false_eq_true, if_false] at hf
  rw [hfull, horder _ (by simp), lookup_strings_compare] at hf
  cases hf
  obtain ⟨g, hg, h⟩ := Compilation.bind_ok h
  cases hg
  obtain ⟨args, hargs, h⟩ := Compilation.bind_ok h
  obtain ⟨v, w, as, bs, rfl, hv, hw, hvalue, hother⟩ :=
    evalArgs_ordering ha hb hatext hbtext hargs
  simp only [finish, ordering, textTest, result, hv, hw, Option.getD_some] at h
  cases h
  have hordering : sc.isOrdering (.selector t (.ident u "strings") "Compare") = true := by
    simp [isOrdering, hpkg]
  refine ⟨_, rfl, ?_⟩
  rw [value?, if_pos hordering, hvalue, hother]
  exact (orderOctets_eq as bs).symm

theorem eval_cmp_compare {t u : Span} {args : List Node} (horder : sc.toConverter.HasPlainOrder)
    (hpkg : sc.isPackage "cmp" = true) :
    sc.eval enclosed (.call s (.selector t (.ident u "cmp") "Compare") args) ≠ .ok r := by
  intro h
  have hbound : sc.isBound "cmp" = false := by simpa using (Bool.and_eq_true_iff.1 hpkg).2
  have henv : sc.env.lookup "cmp" = none := by simpa [isBound] using hbound
  have hfull : "cmp" ++ "." ++ "Compare" = "cmp.Compare" := rfl
  have hident : sc.eval false (.ident u "cmp") = .error (.undefined "cmp") := by
    rw [eval, evalIdent]
    · simp [henv, horder "cmp" (by simp)]
    all_goals decide
  rw [eval_call (specialCall?_compare t u "cmp")] at h
  obtain ⟨f, hf, -⟩ := Compilation.bind_ok h
  rw [eval] at hf
  simp only [packageMember?, hbound, Bool.false_eq_true, if_false] at hf
  rw [hfull, horder _ (by simp), lookup_cmp_compare] at hf
  simp only [Option.map_none, Option.or_none, hident] at hf
  cases hf

variable (row) in
-- Evaluation keeps to what a part without a row stands for.
theorem eval_sound {n : Node} {k : Kind} (horder : sc.toConverter.HasPlainOrder)
    (hflat : sc.IsFlat) (hn : sc.Typed n k) (hclosed : sc.depends n = false)
    (h : sc.eval enclosed n = .ok r) : sc.Yields row n r.value := by
  induction hn generalizing enclosed r with
  | paren _ ih =>
    rw [depends] at hclosed
    rw [eval] at h
    obtain ⟨v, hv, hvalue⟩ := ih hclosed h
    exact ⟨v, hv, by rw [value?, hvalue]⟩
  | int =>
    rw [eval] at h
    obtain ⟨v, hv, h⟩ := Compilation.bind_ok h
    cases h
    simp only [Literal.toValue] at hv
    split at hv
    · cases hv
      exact ⟨_, rfl, by rw [value?]; rfl⟩
    · cases hv
  | text | octets =>
    rw [eval] at h
    cases h
    exact ⟨_, rfl, by rw [value?]; rfl⟩
  | truth hname =>
    rw [eval] at h
    rcases hname with rfl | rfl <;> cases h <;> exact ⟨_, rfl, by rw [value?]; rfl⟩
  | @bound s name v d hname hparam henv hd =>
    simp only [List.mem_cons, List.not_mem_nil, or_false, not_or] at hname
    obtain ⟨htrue, hfalse, hnil⟩ := hname
    rw [eval, evalIdent] at h
    · rw [henv] at h
      cases h
      exact ⟨v, rfl, by simp [value?, named?, htrue, hfalse, henv]⟩
    · exact htrue
    · exact hfalse
    · exact hnil
  | field hchain =>
    rw [depends_of_rowChain hchain] at hclosed
    cases hclosed
  | prefixed hx hop ih =>
    rw [depends] at hclosed
    rw [eval] at h
    obtain ⟨t, ht, h⟩ := Compilation.bind_ok h
    obtain ⟨d, hd, rfl⟩ := hx.value row hflat
    obtain ⟨e, he, -⟩ := PrefixOp.result?_of_kind hop
    exact yields_prefixResult (ih hclosed ht) hd he h
  | infixed hx hy hop ihx ihy =>
    rw [depends, Bool.or_eq_false_iff] at hclosed
    rw [eval] at h
    obtain ⟨l, hl, h⟩ := Compilation.bind_ok h
    obtain ⟨d, hd, rfl⟩ := hx.value row hflat
    obtain ⟨e, he, rfl⟩ := hy.value row hflat
    obtain ⟨f, hf, -⟩ := InfixOp.result?_of_kind hop
    split at h
    case isTrue hdecides =>
      cases h
      exact yields_decided (ihx hclosed.1 hl) hd he hf hdecides
    case isFalse =>
      obtain ⟨t, ht, h⟩ := Compilation.bind_ok h
      exact yields_infixResult (ihx hclosed.1 hl) (ihy hclosed.2 ht) hd he hf h
  | order hpkg hk ha hb iha ihb =>
    simp only [depends, anyDepends, Bool.or_eq_false_iff] at hclosed
    rcases hk with ⟨rfl, rfl⟩ | ⟨rfl, -⟩
    · exact yields_order horder hpkg (fun r => iha hclosed.2.1) (fun r => ihb hclosed.2.2.1)
        (ha.value row hflat) (hb.value row hflat) h
    · exact absurd h (eval_cmp_compare horder hpkg)

-- A comparison with zero of a call for an order compares the operands of the call.
theorem comparison_ok {op : InfixOp} {o : LogicOp} {x y : Node} {e : Expr}
    (ho : comparison? op = some o) (hdepends : sc.depends (.infixed s op x y) = true)
    (h : sc.convert (.infixed s op x y) = .ok e) :
    ∃ yzero, sc.isZero y = .ok yzero ∧
      ((sc.isCompareCall x && yzero) = true ∧ sc.comparands o x = .ok e ∨
        (sc.isCompareCall x && yzero) = false ∧ ∃ xzero, sc.isZero x = .ok xzero ∧
          ((sc.isCompareCall y && xzero) = true ∧
              sc.comparands ((comparison? (mirrored op)).getD o) y = .ok e ∨
            (sc.isCompareCall y && xzero) = false ∧
              compared o (sc.convert x) (sc.convert y) = .ok e)) := by
  rw [convert.eq_def] at h
  simp only [hdepends, if_true, ho] at h
  obtain ⟨yzero, hyzero, h⟩ := Compilation.bind_ok h
  refine ⟨yzero, hyzero, ?_⟩
  split at h
  case isTrue hcall => exact .inl ⟨hcall, h⟩
  case isFalse hcall =>
    obtain ⟨xzero, hxzero, h⟩ := Compilation.bind_ok h
    refine .inr ⟨Bool.eq_false_iff.mpr hcall, xzero, hxzero, ?_⟩
    split at h
    case isTrue hcall => exact .inl ⟨hcall, h⟩
    case isFalse hcall => exact .inr ⟨Bool.eq_false_iff.mpr hcall, h⟩

end Scope
end QueryTree.Lambda
