import QueryTree.Proofs.Sql.Engine
import QueryTree.Proofs.Sql.Outcome

namespace QueryTree

namespace Text

-- Puts a character before every occurrence of another one.
def marked (escape c : Char) (cs : List Char) : List Char :=
  cs.flatMap fun x => if x == c then [escape, c] else [x]

-- The same for several characters, one after the other.
def markedEach (escape : Char) (marks cs : List Char) : List Char :=
  marks.foldl (fun v c => marked escape c v) cs

-- The same for several characters at once.
def markedOnce (escape : Char) (marks cs : List Char) : List Char :=
  cs.flatMap fun c => if marks.contains c then [escape, c] else [c]

theorem replaceChars_single (c : Char) (new cs : List Char) :
    replaceChars [c] new cs = cs.flatMap fun x => if x == c then new else [x] := by
  induction cs with
  | nil => simp [replaceChars]
  | cons x cs ih =>
    rw [replaceChars]
    by_cases hx : x = c
    · subst hx
      simp [ih]
    · have hdiffers : [c].isPrefixOf (x :: cs) = false := by
        simp [List.isPrefixOf, Ne.symm hx]
      simp [hdiffers, hx, ih]

section Marks

variable {escape c : Char} {marks cs : List Char}

theorem marked_of_notMem (h : c ∉ cs) : marked escape c cs = cs := by
  induction cs with
  | nil => rfl
  | cons x cs ih =>
    obtain ⟨hx, hcs⟩ := not_or.mp (mt List.mem_cons.mpr h)
    rw [marked, List.flatMap_cons, ← marked, ih hcs, if_neg (by simpa using Ne.symm hx)]
    rfl

theorem markedEach_cons (escape c : Char) (marks cs : List Char) :
    markedEach escape (c :: marks) cs = markedEach escape marks (marked escape c cs) := rfl

theorem markedEach_append_marks (escape : Char) (marks more cs : List Char) :
    markedEach escape (marks ++ more) cs =
      markedEach escape more (markedEach escape marks cs) := by
  rw [markedEach, List.foldl_append]
  rfl

theorem markedEach_append (escape : Char) (marks us vs : List Char) :
    markedEach escape marks (us ++ vs) =
      markedEach escape marks us ++ markedEach escape marks vs := by
  induction marks generalizing us vs with
  | nil => rfl
  | cons c marks ih =>
    rw [markedEach_cons, markedEach_cons, markedEach_cons, marked, List.flatMap_append]
    exact ih _ _

theorem markedEach_of_notMem (h : ∀ x ∈ cs, x ∉ marks) : markedEach escape marks cs = cs := by
  induction marks with
  | nil => rfl
  | cons c marks ih =>
    have hc : c ∉ cs := fun hmem => h c hmem List.mem_cons_self
    rw [markedEach_cons, marked_of_notMem hc]
    exact ih fun x hx hmem => h x hx (List.mem_cons_of_mem c hmem)

theorem markedEach_of_mem (hnodup : marks.Nodup) (hescape : escape ∉ marks) (hc : c ∈ marks) :
    markedEach escape marks [c] = [escape, c] := by
  obtain ⟨before, after, rfl⟩ := List.append_of_mem hc
  have hbefore : c ∉ before := fun h =>
    (List.nodup_append.mp hnodup).2.2 c h c List.mem_cons_self rfl
  have hafter : c ∉ after := (List.nodup_cons.mp (List.nodup_append.mp hnodup).2.1).1
  have hfirst : markedEach escape before [c] = [c] := markedEach_of_notMem (by simpa using hbefore)
  have hown : marked escape c [c] = [escape, c] := by simp [marked]
  rw [markedEach_append_marks, hfirst, markedEach_cons, hown]
  refine markedEach_of_notMem ?_
  simp only [List.mem_cons, List.not_mem_nil, or_false, forall_eq_or_imp, forall_eq]
  exact ⟨fun h => hescape (by simp [h]), hafter⟩

-- The marks that come before the escape character, and the escape character if it is a mark.
def markedTwice (escape : Char) (marks : List Char) : List Char :=
  if escape ∈ marks then marks.takeWhile (· != escape) ++ [escape] else []

theorem markedTwice_of_append {before after : List Char} (h : escape ∉ before) :
    markedTwice escape (before ++ escape :: after) = before ++ [escape] := by
  have htake : (before ++ escape :: after).takeWhile (· != escape) = before := by
    rw [List.takeWhile_append_of_pos]
    · simp
    · intro x hx
      simpa using fun heq : x = escape => h (heq ▸ hx)
  rw [markedTwice, if_pos (by simp), htake]

theorem markedOnce_single (escape c : Char) (marks : List Char) :
    markedOnce escape marks [c] = if marks.contains c then [escape, c] else [c] := by
  simp [markedOnce]

theorem markedEach_char_of_notMem (hnodup : marks.Nodup) (hescape : escape ∉ marks) (c : Char) :
    markedEach escape (escape :: marks) [c] = markedOnce escape (escape :: marks) [c] := by
  rw [markedEach_cons, markedOnce_single]
  by_cases hc : c = escape
  · subst hc
    have hown : marked c c [c] = [c, c] := by simp [marked]
    have hnone : ∀ x ∈ [c, c], x ∉ marks := by simpa using hescape
    rw [hown, markedEach_of_notMem hnone]
    simp
  · rw [marked_of_notMem (by simpa using Ne.symm hc)]
    by_cases hmark : c ∈ marks
    · rw [markedEach_of_mem hnodup hescape hmark]
      simp [hmark]
    · rw [markedEach_of_notMem (by simpa using hmark)]
      simp [hmark, hc]

theorem markedEach_char_of_append {before after : List Char}
    (hnodup : (before ++ escape :: after).Nodup) (c : Char) :
    (c ∈ before ++ [escape] ∧ (markedOnce escape (escape :: (before ++ escape :: after)) [c]).length <
        (markedEach escape (escape :: (before ++ escape :: after)) [c]).length) ∨
      (c ∉ before ++ [escape] ∧ markedEach escape (escape :: (before ++ escape :: after)) [c] =
        markedOnce escape (escape :: (before ++ escape :: after)) [c]) := by
  obtain ⟨hfirst, hlast, hapart⟩ := List.nodup_append.mp hnodup
  obtain ⟨hafter, hlast⟩ := List.nodup_cons.mp hlast
  have hbefore : escape ∉ before := fun h => hapart escape h escape List.mem_cons_self rfl
  have hsteps : markedEach escape (escape :: (before ++ escape :: after)) [c] =
      markedEach escape after (marked escape escape
        (markedEach escape before (marked escape escape [c]))) := by
    rw [markedEach_cons, markedEach_append_marks, markedEach_cons]
  rw [hsteps, markedOnce_single]
  by_cases hc : c = escape
  · -- The escape character is doubled twice.
    subst hc
    have hown : marked c c [c] = [c, c] := by simp [marked]
    have hkept : markedEach c before [c, c] = [c, c] :=
      markedEach_of_notMem (by simpa using hbefore)
    have htwice : marked c c [c, c] = [c, c, c, c] := by simp [marked]
    have hlater : markedEach c after [c, c, c, c] = [c, c, c, c] :=
      markedEach_of_notMem (by simpa using hafter)
    rw [hown, hkept, htwice, hlater]
    exact .inl (by simp)
  have hown : marked escape escape [c] = [c] := marked_of_notMem (by simpa using Ne.symm hc)
  rw [hown]
  by_cases hearly : c ∈ before
  · -- The escape character that was put before it is taken for one of the text.
    have hcafter : c ∉ after := fun h => hapart c hearly c (List.mem_cons_of_mem _ h) rfl
    have htwice : marked escape escape [escape, c] = [escape, escape, c] := by simp [marked, hc]
    have hlater : markedEach escape after [escape, escape, c] = [escape, escape, c] :=
      markedEach_of_notMem (by simp [hafter, hcafter])
    rw [markedEach_of_mem hfirst hbefore hearly, htwice, hlater]
    exact .inl (by simp [hearly])
  · have hkept : markedEach escape before [c] = [c] :=
      markedEach_of_notMem (by simpa using hearly)
    rw [hkept, hown]
    refine .inr ⟨by simp [hearly, hc], ?_⟩
    by_cases hlate : c ∈ after
    · rw [markedEach_of_mem hlast hafter hlate]
      simp [hlate]
    · have hlater : markedEach escape after [c] = [c] :=
        markedEach_of_notMem (by simpa using hlate)
      rw [hlater]
      simp [hearly, hlate, hc]

theorem markedEach_char (hnodup : marks.Nodup) (c : Char) :
    (c ∈ markedTwice escape marks ∧ (markedOnce escape (escape :: marks) [c]).length <
        (markedEach escape (escape :: marks) [c]).length) ∨
      (c ∉ markedTwice escape marks ∧
        markedEach escape (escape :: marks) [c] = markedOnce escape (escape :: marks) [c]) := by
  by_cases hescape : escape ∈ marks
  · obtain ⟨before, after, rfl⟩ := List.append_of_mem hescape
    have hbefore : escape ∉ before := fun h =>
      (List.nodup_append.mp hnodup).2.2 escape h escape List.mem_cons_self rfl
    rw [markedTwice_of_append hbefore]
    exact markedEach_char_of_append hnodup c
  · refine .inr ⟨?_, markedEach_char_of_notMem hnodup hescape c⟩
    simp [markedTwice, hescape]

theorem markedEach_char_append (escape c : Char) (marks cs : List Char) :
    markedEach escape marks (c :: cs) = markedEach escape marks [c] ++ markedEach escape marks cs :=
  markedEach_append escape marks [c] cs

theorem markedOnce_char_append (escape c : Char) (marks cs : List Char) :
    markedOnce escape marks (c :: cs) = markedOnce escape marks [c] ++ markedOnce escape marks cs := by
  simp [markedOnce]

theorem length_markedOnce_le (hnodup : marks.Nodup) (cs : List Char) :
    (markedOnce escape (escape :: marks) cs).length ≤
      (markedEach escape (escape :: marks) cs).length := by
  induction cs with
  | nil => exact Nat.zero_le _
  | cons c cs ih =>
    have hchar : (markedOnce escape (escape :: marks) [c]).length ≤
        (markedEach escape (escape :: marks) [c]).length := by
      rcases markedEach_char hnodup c with ⟨-, hlt⟩ | ⟨-, heq⟩
      · exact Nat.le_of_lt hlt
      · exact Nat.le_of_eq (congrArg List.length heq.symm)
    rw [markedEach_char_append, markedOnce_char_append, List.length_append, List.length_append]
    exact Nat.add_le_add hchar ih

theorem markedEach_eq_iff (hnodup : marks.Nodup) (cs : List Char) :
    markedEach escape (escape :: marks) cs = markedOnce escape (escape :: marks) cs ↔
      ∀ c ∈ cs, c ∉ markedTwice escape marks := by
  induction cs with
  | nil => simp [markedEach_of_notMem, markedOnce]
  | cons c cs ih =>
    rw [markedEach_char_append, markedOnce_char_append, List.forall_mem_cons]
    rcases markedEach_char hnodup c with ⟨hc, hlt⟩ | ⟨hc, heq⟩
    · -- What is too long for one character is not made up for by the others.
      refine ⟨fun h => absurd (congrArg List.length h) ?_, fun h => absurd hc h.1⟩
      have hrest : (markedOnce escape (escape :: marks) cs).length ≤
          (markedEach escape (escape :: marks) cs).length := length_markedOnce_le hnodup cs
      simp only [List.length_append]
      omega
    · rw [heq, List.append_cancel_left_eq, ih]
      exact ⟨fun h => ⟨hc, h⟩, fun h => h.2⟩

end Marks
end Text

theorem escapeLikeChars_eq (escape : Char) (cs : List Char) :
    escapeLikeChars escape cs = Text.markedOnce escape (escape :: likeSpecials) cs := by
  simp only [escapeLikeChars, Text.markedOnce, List.contains_cons]

namespace Sql

def replacement (sql : Sql) (old new : String) : Sql :=
  .text "REPLACE(" :: sql ++
    [.text ", ", .string old, .text ", ", .string new, .text ")"]

-- The value of nested replacements around an operand whose value is known.
inductive Denotes (operand : Sql) (s : String) : Sql → String → Prop
  | operand : Denotes operand s operand s
  | replacement {sql : Sql} {value : String} (old new : String) (h : Denotes operand s sql value) :
    Denotes operand s (sql.replacement old new) (Text.replaceAll value old new)

namespace Denotes

variable {operand sql : Sql} {s value other : String}

theorem length_replacement (sql : Sql) (old new : String) :
    (sql.replacement old new).length = sql.length + 6 := by
  simp [Sql.replacement]

theorem length_le (h : Denotes operand s sql value) : operand.length ≤ sql.length := by
  induction h with
  | operand => exact Nat.le_refl _
  | replacement old new _ ih =>
    rw [length_replacement]
    omega

theorem replacement_inj {sql' : Sql} {old new old' new' : String}
    (h : sql.replacement old new = sql'.replacement old' new') :
    sql = sql' ∧ old = old' ∧ new = new' := by
  have hlen : sql.length = sql'.length := by
    have := congrArg List.length h
    rw [length_replacement, length_replacement] at this
    omega
  obtain ⟨hsql, htail⟩ := List.append_inj (List.cons.inj h).2 hlen
  simp only [List.cons.injEq, Token.string.injEq, and_true, true_and] at htail
  exact ⟨hsql, htail⟩

-- Replacements are longer than the operand, so the last of them can be told.
theorem of_replacement {old new : String}
    (h : Denotes operand s (sql.replacement old new) value)
    (hle : operand.length ≤ sql.length) :
    ∃ inner, Denotes operand s sql inner ∧ value = Text.replaceAll inner old new := by
  generalize hsql : sql.replacement old new = whole at h
  cases h with
  | operand =>
    have hlen := congrArg List.length hsql
    rw [length_replacement] at hlen
    omega
  | replacement old' new' h =>
    obtain ⟨rfl, rfl, rfl⟩ := replacement_inj hsql
    exact ⟨_, h, rfl⟩

theorem of_length_le (h : Denotes operand s sql value) (hle : sql.length ≤ operand.length) :
    value = s := by
  cases h with
  | operand => rfl
  | replacement old new h =>
    have hinner := h.length_le
    rw [length_replacement] at hle
    omega

theorem unique (h : Denotes operand s sql value) (h' : Denotes operand s sql other) :
    value = other := by
  induction h generalizing other with
  | operand => exact (h'.of_length_le (Nat.le_refl _)).symm
  | replacement old new h ih =>
    obtain ⟨inner, hinner, rfl⟩ := h'.of_replacement h.length_le
    rw [ih hinner]

end Denotes

theorem replaceAll_marked (s : String) (escape c : Char) :
    Text.replaceAll s c.toString (String.ofList [escape, c]) =
      String.ofList (Text.marked escape c s.toList) := by
  have hsingle : c.toString.toList = [c] := by simp
  rw [Text.replaceAll, hsingle, String.toList_ofList, Text.replaceChars_single]
  rfl

theorem denotes_foldl {operand sql : Sql} {s value : String} (escape : Char) (marks : List Char)
    (h : Denotes operand s sql value) :
    Denotes operand s
      (marks.foldl (fun v c => v.replacement c.toString (String.ofList [escape, c])) sql)
      (String.ofList (Text.markedEach escape marks value.toList)) := by
  induction marks generalizing sql value with
  | nil => simpa [Text.markedEach] using h
  | cons c marks ih =>
    have hstep := h.replacement c.toString (String.ofList [escape, c])
    rw [replaceAll_marked] at hstep
    have hrest := ih hstep
    rwa [String.toList_ofList] at hrest

theorem denotes_escapedOperand (escape : Char) (operand : Sql) (s value : String) :
    Denotes operand s (escapedOperand escape operand) value ↔
      value = String.ofList (Text.markedEach escape (escape :: likeSpecials) s.toList) := by
  have hvalue : Denotes operand s (escapedOperand escape operand)
      (String.ofList (Text.markedEach escape (escape :: likeSpecials) s.toList)) :=
    denotes_foldl escape (escape :: likeSpecials) .operand
  exact ⟨fun h => h.unique hvalue, fun h => h ▸ hvalue⟩

theorem denotes_escapeLike_iff (escape : Char) (s : String) :
    String.ofList (Text.markedEach escape (escape :: likeSpecials) s.toList) =
        escapeLike s escape ↔
      (escape ∈ likeSpecials →
        ∀ c ∈ likeSpecials.takeWhile (· != escape) ++ [escape], c ∉ s.toList) := by
  rw [escapeLike, String.ofList_inj, escapeLikeChars_eq, Text.markedEach_eq_iff (by decide),
    Text.markedTwice]
  by_cases hescape : escape ∈ likeSpecials
  · simp only [hescape, if_true, true_imp_iff]
    exact ⟨fun h c hc hmem => h c hmem hc, fun h c hmem hc => h c hc hmem⟩
  · simp [hescape]

end Sql

namespace Render

variable {frag : FragmentRenderer} {ctx : Context} {op : LogicOp} {out : Output}

theorem expr_pattern (hop : op.isPattern = true) (pos : Position) (l r : Expr) :
    expr frag ctx pos (.compare op l r) =
      if !op.isValid then unsupported (Expr.compare op l r).display "invalid logic operator"
      else patternTest ctx op (patternText? r) (expr frag ctx .operand l)
        (expr frag ctx .operand r) := by
  have hkinds : op.positive = .startsWith ∨ op.positive = .endsWith ∨ op.positive = .contains := by
    simpa [LogicOp.isPattern, or_assoc] using hop
  have hequal : (op.positive == .equal) = false := by
    rcases hkinds with h | h | h <;> rw [h] <;> decide
  have hin : (op.positive == .isIn) = false := by
    rcases hkinds with h | h | h <;> rw [h] <;> decide
  simp only [expr, hequal, hin, hop, Bool.false_and, Bool.false_eq_true, if_false, if_true]

theorem yields_pattern (hop : op.isPattern = true) (pos : Position) (l : Expr) {r : Expr}
    (hr : patternText? r = none) :
    Yields (expr frag ctx pos (.compare op l r)) out fun sql out' =>
      ∃ kw left operand between, expr frag ctx .operand l out = .ok (left, between) ∧
        expr frag ctx .operand r between = .ok (operand, out') ∧
        sql = left ++ .text (" " ++ kw ++ " ") ::
          wildcards ctx.dialect op (escapedOperand ctx.dialect.escape operand) ++
          [.text " ESCAPE ", .string ctx.dialect.escape.toString] := by
  rw [expr_pattern hop, hr]
  simp only [yields_ite, yields_unsupported, implies_true, true_and, patternTest]
  intro _
  split
  · simp
  · next kw _ =>
    simp only [patternOf, yields_bind, yields_pure]
    intro left between hleft operand out' hoperand
    exact ⟨kw, left, operand, between, hleft, hoperand, rfl⟩

end Render

-- What is written for a pattern whose text is not known. The replacements around the operand have
-- one value, the escaped text of the operand unless the escape character has a meaning in patterns
-- and the text holds it or a character that is replaced before it.
theorem replacements_escape_iff (g : Engine) (frag : FragmentRenderer) (ctx : Context)
    (hctx : ctx.dialect = g.dialect) (pos : Position) (op : LogicOp) (hop : op.isPattern = true)
    (l r : Expr) (hr : Render.patternText? r = none) (out out' : Output) (sql : Sql)
    (hrun : Render.expr frag ctx pos (.compare op l r) out = .ok (sql, out')) :
    ∃ (kw : String) (left operand chain : Sql) (between : Output),
      Render.expr frag ctx .operand l out = .ok (left, between) ∧
      Render.expr frag ctx .operand r between = .ok (operand, out') ∧
      sql = left ++ .text (" " ++ kw ++ " ") :: wildcards g.dialect op chain ++
        [.text " ESCAPE ", .string g.dialect.escape.toString] ∧
      ∀ s : String, ∃ value, (∀ v, Sql.Denotes operand s chain v ↔ v = value) ∧
        (value = escapeLike s g.dialect.escape ↔ (g.dialect.escape ∈ likeSpecials →
          ∀ c ∈ likeSpecials.takeWhile (· != g.dialect.escape) ++ [g.dialect.escape],
            c ∉ s.toList)) := by
  obtain ⟨kw, left, operand, between, hleft, hright, rfl⟩ :=
    Render.yields_pattern hop pos l hr sql out' hrun
  rw [hctx]
  refine ⟨kw, left, operand, _, between, hleft, hright, rfl, fun s => ?_⟩
  exact ⟨_, fun v => Sql.denotes_escapedOperand _ operand s v, Sql.denotes_escapeLike_iff _ s⟩

-- With the underscore as escape character a text without underscores and percent signs is escaped
-- as it should be.
theorem replacements_escape_iff_bracket :
    ∃ (frag : FragmentRenderer) (ctx : Context) (sql : Sql) (out : Output),
      ctx.dialect = (Engine.postgres '_').dialect ∧
      Render.expr frag ctx .condition
        (.compare .startsWith (.property "" "A") (.property "" "B")) {} = .ok (sql, out) ∧
      ctx.dialect.text sql = "\"A\" LIKE REPLACE(REPLACE(REPLACE(REPLACE(\"B\", '_', '__'), " ++
        "'%', '_%'), '_', '__'), '[', '_[') || '%' ESCAPE '_'" ∧
      ∃ (kw : String) (left operand chain : Sql),
        sql = left ++ .text (" " ++ kw ++ " ") ::
          wildcards (Engine.postgres '_').dialect .startsWith chain ++
          [.text " ESCAPE ", .string "_"] ∧
        ∀ v, Sql.Denotes operand "a[b" chain v ↔ v = "a_[b" := by
  let resolver : Resolver := ⟨fun object => .ok object,
    fun _ property => .ok ⟨property, "", false⟩, fun _ _ => .ok ⟨"", "", [], []⟩⟩
  let frag : FragmentRenderer := fun _ _ _ => Render.fail (.noFunction "")
  let ctx : Context :=
    ⟨(Engine.postgres '_').dialect, resolver, { object := "Row", table := "t" }, [], 0⟩
  let e : Expr := .compare .startsWith (.property "" "A") (.property "" "B")
  obtain ⟨sql, out, hrun, htext⟩ : ∃ sql out, Render.expr frag ctx .condition e {} = .ok (sql, out) ∧
      ctx.dialect.text sql = "\"A\" LIKE REPLACE(REPLACE(REPLACE(REPLACE(\"B\", '_', '__'), " ++
        "'%', '_%'), '_', '__'), '[', '_[') || '%' ESCAPE '_'" := by
    refine ⟨_, _, rfl, ?_⟩
    decide +kernel
  obtain ⟨kw, left, operand, chain, -, -, -, hsql, hchain⟩ :=
    replacements_escape_iff (.postgres '_') frag ctx rfl .condition .startsWith (by decide)
      (.property "" "A") (.property "" "B") rfl {} out sql hrun
  obtain ⟨value, hvalue, hiff⟩ := hchain "a[b"
  have hfree : ∀ c ∈ ['%', '_'], c ∉ ['a', '[', 'b'] := by simp
  have hlike : escapeLike "a[b" '_' = "a_[b" := by decide +kernel
  have hescaped : value = "a_[b" := (hiff.mpr fun _ => hfree).trans hlike
  exact ⟨frag, ctx, sql, out, rfl, hrun, htext, kw, left, operand, chain, hsql, hescaped ▸ hvalue⟩

-- An underscore in the text is escaped twice there.
theorem replacements_escape_twice :
    Sql.Denotes [.name "B"] "a_b" (escapedOperand '_' [.name "B"]) "a____b" ∧
    ¬Sql.Denotes [.name "B"] "a_b" (escapedOperand '_' [.name "B"]) (escapeLike "a_b" '_') :=
  ⟨(Sql.denotes_escapedOperand '_' [.name "B"] "a_b" "a____b").mpr (by decide +kernel),
    fun h => absurd ((Sql.denotes_escapedOperand '_' [.name "B"] "a_b" _).mp h)
      (by decide +kernel)⟩

end QueryTree
