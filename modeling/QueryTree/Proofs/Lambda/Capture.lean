import QueryTree.Proofs.Lambda.Member
import QueryTree.Lambda.Query
import QueryTree.Proofs.Sql.Engine

namespace QueryTree

open Text

namespace Context

def scopes (ctx : Context) : List Scope := ctx.scope :: ctx.outer

-- The column at a path on the object of a scope, qualified as that scope is seen from here.
def columnOf (ctx : Context) (i : Nat) (s : Scope) (path : String) : Render Sql :=
  if i = 0 then Render.ownColumn ctx path else Render.outerColumn ctx s path

end Context

namespace Render

section Paths

theorem cutPath_of_plain {s : String} (hs : '.' ∉ s.toList) : cutPath s = none := by
  have hplain : ∀ c ∈ s.toList, (c != '.') = true := by
    intro c hc
    exact bne_iff_ne.2 fun heq => hs (heq ▸ hc)
  rw [cutPath, List.span_eq_takeWhile_dropWhile, List.dropWhile_eq_nil_iff.2 hplain]

theorem cutPath_dot {s : String} (hs : '.' ∉ s.toList) (t : String) :
    cutPath (s ++ "." ++ t) = some (s, t) := by
  have hplain : ∀ c ∈ s.toList, (c != '.') = true := by
    intro c hc
    exact bne_iff_ne.2 fun heq => hs (heq ▸ hc)
  have htext : (s ++ "." ++ t).toList = s.toList ++ '.' :: t.toList := by simp
  rw [cutPath, htext, List.span_eq_takeWhile_dropWhile, List.takeWhile_append_of_pos hplain,
    List.dropWhile_append_of_pos hplain]
  simp

end Paths

theorem find?_of_nodup {l : List Scope} {s : Scope} (hnodup : (l.map (·.label)).Nodup)
    (hs : s ∈ l) : l.find? (·.label == s.label) = some s := by
  induction l with
  | nil => exact absurd hs List.not_mem_nil
  | cons t l ih =>
    rw [List.map_cons, List.nodup_cons] at hnodup
    rcases List.mem_cons.1 hs with rfl | hs
    · simp
    · have hne : t.label ≠ s.label := fun heq => hnodup.1 (heq ▸ List.mem_map_of_mem hs)
      simp [hne, ih hnodup.2 hs]

variable {ctx : Context}

theorem labelled?_of_getElem? {i : Nat} {s : Scope} (hnodup : (ctx.scopes.map (·.label)).Nodup)
    (hs : ctx.scopes[i]? = some s) (path : String) :
    labelled? ctx s.label path = some (ctx.columnOf i s path) := by
  rw [Context.scopes, List.map_cons, List.nodup_cons] at hnodup
  cases i with
  | zero =>
    obtain rfl : ctx.scope = s := by simpa [Context.scopes] using hs
    simp [labelled?, Context.columnOf]
  | succ i =>
    have hget : ctx.outer[i]? = some s := by simpa [Context.scopes] using hs
    have hother : ctx.scope.label ≠ s.label := fun heq =>
      hnodup.1 (heq ▸ List.mem_map_of_mem (List.mem_of_getElem? hget))
    have hfind := find?_of_nodup hnodup.2 (List.mem_of_getElem? hget)
    simp [labelled?, Context.columnOf, hother, hfind]

theorem labelled?_eq_none {label : String} (h : ∀ s ∈ ctx.scopes, s.label ≠ label)
    (path : String) : labelled? ctx label path = none := by
  obtain ⟨hown, houter⟩ := List.forall_mem_cons.1 h
  have hfind : ctx.outer.find? (·.label == label) = none := by
    simpa [List.find?_eq_none] using houter
  simp [labelled?, hown, hfind]

theorem ne_of_isLabel {label path : String} (hlabel : isLabel label = true)
    (hpath : '.' ∈ path.toList) : label ≠ path := by
  rintro rfl
  rcases Bool.or_eq_true_iff.1 hlabel with hempty | hidentifier
  · rw [String.isEmpty_iff.1 hempty] at hpath
    simp at hpath
  · exact Expr.dot_notMem_of_isIdentifier hidentifier hpath

-- What a property of several names means: its first name may label a scope.
theorem column_of_names {first name : String} {owner : List String}
    (hnames : ∀ s ∈ first :: owner ++ [name], isIdentifier s = true)
    (hlabels : ∀ s ∈ ctx.scopes, isLabel s.label = true) :
    column ctx (".".intercalate (first :: owner)) name =
      (labelled? ctx first (".".intercalate (owner ++ [name]))).getD
        (ownColumn ctx (".".intercalate (first :: owner ++ [name]))) := by
  have howner : ∀ s ∈ first :: owner, isIdentifier s = true :=
    fun s hs => hnames s (List.mem_append_left _ hs)
  have hfirst : '.' ∉ first.toList :=
    Expr.dot_notMem_of_isIdentifier (howner first List.mem_cons_self)
  have hempty := Expr.intercalate_isEmpty (List.cons_ne_nil first owner) howner
  rw [column, hempty, Expr.path_intercalate howner]
  cases owner with
  | nil =>
    rw [String.intercalate_singleton, cutPath_of_plain hfirst]
    simp only [List.nil_append, String.intercalate_singleton]
    cases labelled? ctx first name <;> rfl
  | cons second owner =>
    have hrest : ".".intercalate (second :: owner) ++ "." ++ name =
        ".".intercalate (second :: owner ++ [name]) := by
      rw [String.intercalate_append_of_ne_nil (List.cons_ne_nil _ _) (by simp),
        String.intercalate_singleton]
    have hdot : '.' ∈ (".".intercalate (first :: second :: owner)).toList := by
      simp [String.intercalate_cons_cons]
    rw [labelled?_eq_none fun s hs => ne_of_isLabel (hlabels s hs) hdot,
      String.intercalate_cons_cons, cutPath_dot hfirst]
    simp only [Bool.false_eq_true, if_false, hrest]
    cases labelled? ctx first (".".intercalate (second :: owner ++ [name])) <;> rfl

theorem scopes_of_enter {scope : Scope} {out out' : Output} {inside : Context}
    (h : enter ctx scope out = .ok (inside, out')) :
    inside.scope = scope ∧ inside.outer = ctx.scopes := by
  have henter : Yields (enter ctx scope) out fun inside _ =>
      inside.scope = scope ∧ inside.outer = ctx.scopes := yields_enter.2 fun _ => ⟨rfl, rfl⟩
  exact henter inside out' h

theorem existence_congr {relation label : String} {f g : Context → Render Sql}
    (h : ∀ join k inside out, ctx.resolver.relation ctx.scope.object relation = .ok join →
      enter ctx { object := join.object, table := expandTable join.table [], label,
                  qualifier := some k } out = .ok (inside, out) → f inside = g inside) :
    existence ctx relation label [] f = existence ctx relation label [] g := by
  unfold existence
  cases hjoin : ctx.resolver.relation ctx.scope.object relation with
  | error e => rfl
  | ok join =>
    simp only [ofExcept, pure_bind]
    split
    · rfl
    · refine congrArg _ (funext fun _ => bind_congr fun k => ?_)
      by_cases hdepth : ctx.depth ≥ maxDepth
      · simp only [enter, hdepth, if_true]
        rfl
      · have henter := h join k _ {} hjoin (by simp only [enter, hdepth, if_false]; rfl)
        simp only [enter, hdepth, if_false, pure_bind, henter]

end Render

namespace Compilation

variable {c : Compilation}

theorem label_of_scope {r : Resolver} {scope : Scope} (h : c.scope r = .ok scope) :
    scope.label = c.label := by
  unfold Compilation.scope at h
  split at h
  · cases h
    rfl
  · obtain ⟨table, -, h⟩ := bind_ok h
    cases h
    rfl

theorem isLabel_of_checkNames (h : c.checkNames = .ok ()) : isLabel c.label = true := by
  obtain ⟨-, hlabel⟩ := isLabel_of_check "object" h
  rw [isLabel, Bool.or_eq_true]
  split at hlabel
  · exact .inl ‹_›
  · exact .inr (isIdentifier_of_check hlabel)

-- The contexts in which a compilation begins: that of a condition on its object, or that of a
-- query over an object of its own.
structure Opens (c : Compilation) (ctx : Context) : Prop where
  names : c.checkNames = .ok ()
  resolver : c.resolver = some ctx.resolver
  dialect : c.dialect = some ctx.dialect
  scope : c.scope ctx.resolver = .ok ctx.scope ∨ ∃ object table,
    ctx.resolver.table object = .ok table ∧ ctx.scope = { object, table, label := c.label }
  outer : ctx.outer = []

theorem Opens.label {ctx : Context} (h : c.Opens ctx) : ctx.scope.label = c.label := by
  rcases h.scope with hscope | ⟨object, table, -, hscope⟩
  · exact label_of_scope hscope
  · rw [hscope]

end Compilation

namespace Lambda

-- The nodes directly inside a node that are in the same scope.
def Node.operands : Node → List Node
  | .selector _ x _ | .prefixed _ _ x | .star _ x | .paren _ x | .pair _ _ x => [x]
  | .infixed _ _ x y | .index _ x y => [x, y]
  | .call _ fn args => fn :: args
  | .composite _ _ items => items
  | _ => []

namespace Scope

variable {sc : Scope}

theorem depends_unparen (n : Node) : sc.depends n.unparen = sc.depends n := by
  induction n using Node.unparen.induct with
  | case1 s x ih => rw [Node.unparen, ih, depends]
  | case2 n hparen => rw [Node.unparen]; exact hparen

-- The parameter whose name a path on the innermost row begins with, and the rest of the path.
def captured? (sc : Scope) (depth : Nat) (path : List String) : Option (String × String) :=
  match Expr.names (".".intercalate path) with
  | first :: second :: rest =>
    if depth = 0 ∧ sc.isParam first = true then some (first, ".".intercalate (second :: rest))
    else none
  | _ => none

theorem captured?_of_depth {depth : Nat} (hdepth : depth ≠ 0) (path : List String) :
    sc.captured? depth path = none := by
  unfold captured?
  split
  · exact if_neg fun h => hdepth h.1
  · rfl

theorem captured?_of_name {path : List String} {name : String}
    (h : Expr.names (".".intercalate path) = [name]) : sc.captured? 0 path = none := by
  rw [captured?, h]

theorem captured?_of_names {path owner : List String} {first name : String}
    (h : Expr.names (".".intercalate path) = first :: owner ++ [name]) :
    sc.captured? 0 path = if sc.isParam first = true then
      some (first, ".".intercalate (owner ++ [name])) else none := by
  rw [captured?, h]
  cases owner <;> simp

theorem convertBody_ok {whole f b : Node} {t : Span} {q label : String} {row : Option Ty}
    {inner : Expr} (hf : f.unparen = .lambda t (some q) 1 (some b))
    (h : sc.convertBody whole row f = .ok (label, inner)) :
    label = q ∧ (sc.inside q row).convert b = .ok inner := by
  induction f using Node.unparen.induct with
  | case1 s x ih =>
    rw [convertBody] at h
    exact ih hf h
  | case2 f hparen =>
    obtain rfl : f = .lambda t (some q) 1 (some b) := by
      rw [← hf, Node.unparen]
      exact hparen
    rw [convertBody] at h
    obtain ⟨e, he, h⟩ := Compilation.bind_ok h
    cases h
    exact ⟨rfl, asLogic_ok he⟩

theorem convert_containsFunc {s t : Span} {fn rel f b : Node} {q : String} {e : Expr}
    (hfn : sc.isContainsFunc fn = true) (hf : f.unparen = .lambda t (some q) 1 (some b))
    (h : sc.convert (.call s fn [rel, f]) = .ok e) :
    ∃ member row inner, sc.relation rel = .ok (member, row) ∧
      (sc.inside q row).convert b = .ok inner ∧ isLabel q = true ∧
      e = .related member q (some inner) [] := by
  have hdepends : sc.depends (.call s fn [rel, f]) = true := by
    have hlambda : sc.depends f = true := by rw [← depends_unparen, hf, depends]
    simp [depends, anyDepends, hlambda]
  rw [convert.eq_def] at h
  simp only [hdepends, hfn, if_true] at h
  obtain ⟨⟨member, row⟩, hrel, h⟩ := Compilation.bind_ok h
  obtain ⟨⟨label, inner⟩, hbody, h⟩ := Compilation.bind_ok h
  obtain ⟨rfl, hinner⟩ := convertBody_ok hf hbody
  have hexisting := checked_ok h
  unfold Expr.existing at hexisting
  obtain ⟨⟨⟩, -, hexisting⟩ := Compilation.bind_ok hexisting
  obtain ⟨hlabel, hexisting⟩ := isLabel_of_check _ hexisting
  cases hexisting
  exact ⟨member, row, inner, hrel, hinner, hlabel, rfl⟩

end Scope

-- The places of a lambda that is compiled with its outermost parameter as label: each node with
-- the scope that it is converted in and the context that its expression is rendered in.
inductive Reaches (c : Compilation) : Scope → Node → Context → Prop where
  | root {sc n row ctx} : sc.frames = [⟨c.label, row⟩] → c.Opens ctx → Reaches c sc n ctx
  | operand {sc n x ctx} : Reaches c sc n ctx → x ∈ n.operands → Reaches c sc x ctx
  | body {sc ctx s t fn rel f q b member row e join k out inside} :
      Reaches c sc (.call s fn [rel, f]) ctx → sc.isContainsFunc fn = true →
      f.unparen = .lambda t (some q) 1 (some b) → sc.relation rel = .ok (member, row) →
      sc.convert (.call s fn [rel, f]) = .ok e →
      ctx.resolver.relation ctx.scope.object member = .ok join →
      Render.enter ctx { object := join.object, table := Render.expandTable join.table [],
                         label := q, qualifier := some k } out = .ok (inside, out) →
      Reaches c (sc.inside q row) b inside

-- The function inside `slices.ContainsFunc` is rendered in its places and nowhere else.
theorem Reaches.existence {c : Compilation} {sc : Scope} {ctx : Context} {s t : Span}
    {fn rel f b : Node} {q : String} {e : Expr} (h : Reaches c sc (.call s fn [rel, f]) ctx)
    (hfn : sc.isContainsFunc fn = true) (hf : f.unparen = .lambda t (some q) 1 (some b))
    (he : sc.convert (.call s fn [rel, f]) = .ok e) (hobject : ctx.scope.object ≠ "")
    (frag : FragmentRenderer) (pos : Position) :
    ∃ member row inner, sc.relation rel = .ok (member, row) ∧
      (sc.inside q row).convert b = .ok inner ∧
      ∀ g : Context → Render Sql,
        (∀ inside, Reaches c (sc.inside q row) b inside →
          g inside = Render.expr frag inside .condition inner) →
        Render.expr frag ctx pos e = Render.existence ctx member q [] g := by
  obtain ⟨member, row, inner, hrel, hinner, -, rfl⟩ := Scope.convert_containsFunc hfn hf he
  refine ⟨member, row, inner, hrel, hinner, fun g hg => ?_⟩
  rw [Render.expr, if_neg (by simpa using hobject)]
  refine Render.existence_congr fun join k inside out hjoin henter => ?_
  exact (hg inside (.body h hfn hf hrel he hjoin henter)).symm

-- Parameters and labels grow together.
structure Aligned (sc : Scope) (ctx : Context) : Prop where
  labels : ctx.scopes.map (·.label) = sc.frames.map (·.name)
  valid : ∀ s ∈ ctx.scopes, isLabel s.label = true

theorem Reaches.aligned {c : Compilation} {sc : Scope} {n : Node} {ctx : Context}
    (h : Reaches c sc n ctx) : Aligned sc ctx := by
  induction h with
  | root hframes hopens =>
    refine ⟨?_, ?_⟩
    · simp [Context.scopes, hopens.outer, hopens.label, hframes]
    · simpa [Context.scopes, hopens.outer, hopens.label] using
        Compilation.isLabel_of_checkNames hopens.names
  | operand _ _ ih => exact ih
  | body _ hfn hf hrel hconvert hjoin henter ih =>
    obtain ⟨-, -, -, -, -, hlabel, -⟩ := Scope.convert_containsFunc hfn hf hconvert
    obtain ⟨hscope, houter⟩ := Render.scopes_of_enter henter
    refine ⟨?_, ?_⟩
    · simpa [Context.scopes, hscope, houter, Scope.inside] using ih.labels
    · simpa [Context.scopes, hscope, houter] using ⟨hlabel, List.forall_mem_cons.1 ih.valid⟩

theorem Aligned.scope {sc : Scope} {ctx : Context} (h : Aligned sc ctx) {i : Nat} {f : Frame}
    (hf : sc.frames[i]? = some f) : ∃ s, ctx.scopes[i]? = some s ∧ s.label = f.name := by
  have hlabel : (ctx.scopes.map (·.label))[i]? = some f.name := by simp [h.labels, hf]
  simpa using hlabel

theorem Aligned.isParam_iff {sc : Scope} {ctx : Context} (h : Aligned sc ctx) (name : String) :
    sc.isParam name = true ↔ ∃ s ∈ ctx.scopes, s.label = name := by
  have hmem : name ∈ ctx.scopes.map (·.label) ↔ name ∈ sc.frames.map (·.name) := by rw [h.labels]
  simpa [Scope.isParam] using hmem.symm

namespace Aligned

variable {sc : Scope} {ctx : Context} (h : Aligned sc ctx)
  (hdistinct : (sc.frames.map (·.name)).Nodup)
include h hdistinct

theorem column_of_param {owner : List String} {name : String} {i : Nat} {s : QueryTree.Scope}
    (hs : ctx.scopes[i]? = some s)
    (hnames : ∀ t ∈ s.label :: owner ++ [name], isIdentifier t = true) :
    Render.column ctx (".".intercalate (s.label :: owner)) name =
      ctx.columnOf i s (".".intercalate (owner ++ [name])) := by
  have hnodup : (ctx.scopes.map (·.label)).Nodup := h.labels ▸ hdistinct
  rw [Render.column_of_names hnames h.valid, Render.labelled?_of_getElem? hnodup hs,
    Option.getD_some]

theorem column_of_named {i : Nat} {s : QueryTree.Scope} {p : String} {e : Expr}
    (hs : ctx.scopes[i]? = some s) (he : Expr.ofPath (s.label ++ "." ++ p) = .ok e) :
    ∃ owner name, e = .property owner name ∧ Render.column ctx owner name = ctx.columnOf i s p := by
  obtain ⟨owner, name, hnames, hidentifiers, rfl⟩ := Expr.ofPath_ok_iff.mp he
  have hdot : '.' ∉ s.label.toList := fun hdot =>
    Render.ne_of_isLabel (h.valid s (List.mem_of_getElem? hs)) hdot rfl
  rw [Expr.names_dot hdot] at hnames hidentifiers
  cases owner with
  | nil => exact absurd (List.cons.inj hnames).2 (Expr.names_ne_nil p)
  | cons first owner =>
    obtain ⟨rfl, hrest⟩ := List.cons.inj hnames
    rw [hrest] at hidentifiers
    refine ⟨_, _, rfl, ?_⟩
    rw [h.column_of_param hdistinct hs hidentifiers, ← Expr.intercalate_names p, hrest]
    rfl

-- A path on the innermost row keeps to this row unless it is captured.
theorem column_of_path {path : List String} {e : Expr}
    (he : Expr.ofPath (".".intercalate path) = .ok e) :
    ∃ owner name, e = .property owner name ∧
      (sc.captured? 0 path = none →
        Render.column ctx owner name = Render.ownColumn ctx (".".intercalate path)) ∧
      (∀ first rest, sc.captured? 0 path = some (first, rest) →
        ∃ i s, ctx.scopes[i]? = some s ∧ s.label = first ∧
          Render.column ctx owner name = ctx.columnOf i s rest) := by
  obtain ⟨owner, name, hnames, hidentifiers, rfl⟩ := Expr.ofPath_ok_iff.mp he
  have hwhole := Expr.intercalate_names (".".intercalate path)
  refine ⟨_, _, rfl, ?_⟩
  rw [hnames] at hidentifiers hwhole
  cases owner with
  | nil =>
    rw [Scope.captured?_of_name hnames, ← hwhole, List.nil_append, String.intercalate_singleton]
    simp [Render.column, String.intercalate_nil]
  | cons first owner =>
    rw [Scope.captured?_of_names hnames]
    by_cases hparam : sc.isParam first = true
    · obtain ⟨s, hs, rfl⟩ := (h.isParam_iff first).1 hparam
      obtain ⟨i, hi⟩ := List.mem_iff_getElem?.1 hs
      simp only [hparam, if_true, Option.some.injEq, Prod.mk.injEq, reduceCtorEq, false_imp_iff,
        true_and]
      rintro first rest ⟨rfl, rfl⟩
      exact ⟨i, s, hi, rfl, h.column_of_param hdistinct hi hidentifiers⟩
    · have hlabels : ∀ s ∈ ctx.scopes, s.label ≠ first := fun s hs hlabel =>
        hparam ((h.isParam_iff first).2 ⟨s, hs, hlabel⟩)
      simp only [hparam, if_false, reduceCtorEq, false_imp_iff, implies_true, and_true,
        true_imp_iff]
      rw [Render.column_of_names hidentifiers h.valid, Render.labelled?_eq_none hlabels,
        Option.getD_none, hwhole]

end Aligned

-- A chain becomes a column of the row that it starts from, unless it is captured: a column path on
-- the innermost row whose first name is that of a parameter goes on from the row of this parameter.
theorem chain_column (c : Compilation) (sc : Scope) (n : Node) (ctx : Context)
    (h : Reaches c sc n ctx) (hdistinct : (sc.frames.map (·.name)).Nodup) (depth : Nat)
    (frame : Frame) (names path : List String) (t : Ty) (e : Expr)
    (hchain : sc.rowChain? n = some (depth, frame, names))
    (hpath : sc.world.types.columnPath? frame.row names = some (path, t))
    (he : sc.convert n = .ok e) :
    (sc.captured? depth path = none → ∃ s, ctx.scopes[depth]? = some s ∧ s.label = frame.name ∧
      ∀ frag pos, Render.expr frag ctx pos e =
        Render.standing ctx pos (ctx.columnOf depth s (".".intercalate path))) ∧
    (∀ first rest, sc.captured? depth path = some (first, rest) →
      ∃ i s, ctx.scopes[i]? = some s ∧ s.label = first ∧
        ∀ frag pos, Render.expr frag ctx pos e =
          Render.standing ctx pos (ctx.columnOf i s rest)) := by
  have hframe : sc.frames[depth]? = some frame := by
    obtain ⟨root, -, hroot⟩ := Scope.rowChain?_eq_some hchain
    exact (Scope.getElem?_of_frame? hroot).1
  obtain ⟨s, hs, hlabel⟩ := h.aligned.scope hframe
  obtain ⟨m, hm⟩ := Scope.convert_of_columnPath hchain hpath
  have hproperty := Scope.checked_ok (hm.symm.trans he)
  cases depth with
  | zero =>
    obtain ⟨owner, name, rfl, hown, hcaptured⟩ := h.aligned.column_of_path hdistinct hproperty
    refine ⟨?_, ?_⟩
    · intro hnone
      refine ⟨s, hs, hlabel, fun frag pos => ?_⟩
      rw [Render.expr, hown hnone, Context.columnOf, if_pos rfl]
    · intro first rest hsome
      obtain ⟨i, s, hs, hfirst, hcolumn⟩ := hcaptured first rest hsome
      exact ⟨i, s, hs, hfirst, fun frag pos => by rw [Render.expr, hcolumn]⟩
  | succ depth =>
    rw [Scope.captured?_of_depth (Nat.succ_ne_zero depth)]
    simp only [beq_iff_eq, Nat.succ_ne_zero, if_false, ← hlabel] at hproperty
    obtain ⟨owner, name, rfl, hcolumn⟩ := h.aligned.column_of_named hdistinct hs hproperty
    refine ⟨?_, ?_⟩
    · intro _
      exact ⟨s, hs, hlabel, fun frag pos => by rw [Render.expr, hcolumn]⟩
    · intro first rest hsome
      cases hsome

def orders : Converter :=
  .ofRow { types := [
    ⟨"main.User", .record [⟨"Username", .text, none, false⟩,
      ⟨"Orders", .list (.named "main.Order"), none, false⟩], false⟩,
    ⟨"main.Order", .record [⟨"Buyer", .pointer (.named "main.User"), none, false⟩], false⟩] }
    (some (.named "main.User"))

def plainNames : Resolver where
  table object := .ok ("t_" ++ object)
  column _ property := .ok ⟨property, "", false⟩
  relation _ name := .ok ⟨name, "t_" ++ name, ["id"], ["ref"]⟩

def ordersOf (label : String) : Compilation where
  resolver := some plainNames
  dialect := some (Engine.postgres '/').dialect
  object := "User"
  label := label

def userContext : Context where
  dialect := (Engine.postgres '/').dialect
  resolver := plainNames
  scope := { object := "User", table := "t_User", label := "u" }

def orderContext : Context where
  dialect := (Engine.postgres '/').dialect
  resolver := plainNames
  scope := { object := "Orders", table := "t_Orders", label := "o", qualifier := some 1 }
  outer := [userContext.scope]
  depth := 1

def userScope : Scope := { orders with source := [], frames := [⟨"u", orders.row⟩] }

def orderRow : Option Ty := some (.named "main.Order")

-- `o.Buyer.Username` and `slices.ContainsFunc(u.Orders, func(o Order) bool { return … == "x" })`.
def buyerName : Node :=
  let nowhere : Span := ⟨0, 0⟩
  .selector nowhere (.selector nowhere (.ident nowhere "o") "Buyer") "Username"

def boughtCall : Node :=
  let nowhere : Span := ⟨0, 0⟩
  .call nowhere (.selector nowhere (.ident nowhere "slices") "ContainsFunc")
    [.selector nowhere (.ident nowhere "u") "Orders",
     .lambda nowhere (some "o") 1
      (some (.infixed nowhere .eq buyerName (.literal nowhere (.text "x"))))]

theorem chain_column_nested :
    let sc := userScope.inside "o" orderRow
    Reaches (ordersOf "u") sc buyerName orderContext ∧ (sc.frames.map (·.name)).Nodup ∧
      sc.rowChain? buyerName = some (0, ⟨"o", orderRow⟩, ["Buyer", "Username"]) ∧
      sc.world.types.columnPath? orderRow ["Buyer", "Username"] =
        some (["Buyer", "Username"], .text) ∧
      sc.convert buyerName = .ok (.property "Buyer" "Username") ∧
      ∃ s, orderContext.scopes[0]? = some s ∧ s.label = "o" ∧
        ∀ frag pos, Render.expr frag orderContext pos (.property "Buyer" "Username") =
          Render.standing orderContext pos (orderContext.columnOf 0 s "Buyer.Username") := by
  have hroot : Reaches (ordersOf "u") userScope boughtCall userContext :=
    .root rfl ⟨rfl, rfl, rfl, .inl rfl, rfl⟩
  have hjoin : userContext.resolver.relation userContext.scope.object "Orders" =
      .ok ⟨"Orders", "t_Orders", ["id"], ["ref"]⟩ := rfl
  have henter : Render.enter userContext orderContext.scope {} = .ok (orderContext, {}) := rfl
  have hreaches : Reaches (ordersOf "u") (userScope.inside "o" orderRow) buyerName orderContext :=
    .operand (.body hroot rfl rfl rfl rfl hjoin henter) List.mem_cons_self
  have hchain : (userScope.inside "o" orderRow).rowChain? buyerName =
      some (0, ⟨"o", orderRow⟩, ["Buyer", "Username"]) := rfl
  refine ⟨hreaches, by decide, hchain, rfl, rfl, ?_⟩
  exact (chain_column _ _ _ _ hreaches (by decide) 0 _ _ _ .text _ hchain rfl rfl).1 rfl

def boughtBy (param : String) : String :=
  "func(" ++ param ++ " User) bool \x7b return slices.ContainsFunc(" ++ param ++
    ".Orders, func(o Order) bool \x7b return o.Buyer.Username == \"x\" \x7d) \x7d"

-- The name of a parameter decides on the column of another one.
theorem chain_captured :
    let text (param : String) : Option String :=
      ((orders.predicate (boughtBy param)).bind fun e => (ordersOf param).run (some e)).toOption.map
        Statement.text
    text "u" = some ("EXISTS (SELECT 1 FROM \"t_Orders\" T1 " ++
      "WHERE T1.\"ref\" = \"t_User\".\"id\" AND T1.\"Buyer.Username\" = @p0)") ∧
    text "Buyer" = some ("EXISTS (SELECT 1 FROM \"t_Orders\" T1 " ++
      "WHERE T1.\"ref\" = \"t_User\".\"id\" AND \"t_User\".\"Username\" = @p0)") := by
  decide +kernel

end Lambda

end QueryTree
