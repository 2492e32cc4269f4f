import QueryTree.Proofs.Sql.Phrasing

namespace QueryTree

theorem Compilation.sound {g : Engine} {c : Compilation} (hc : c.dialect = some g.dialect)
    {e : Expr} (hs : e.isStatic = true) {st : Statement} (h : c.run (some e) = .ok st) :
    st.dialect = g.dialect ∧ st.tokens.isClean = true ∧
      st.tokens.places = List.range st.params.length := by
  obtain ⟨r, scope, out, -, hdialect, hst, -, -, -, hwritten⟩ := Compilation.phrase hc hs h
  have hsound : Render.Sound {} st.tokens out := by
    rcases hwritten with ⟨columns, tail, mid, hcolumns, htail, hfollows, htokens⟩ | hphrase
    · exact htokens ▸ hcolumns.sound.select htail.sound hfollows
    · exact hphrase.sound
  obtain ⟨new, hnew, hplaces⟩ := hsound.appends
  have hparams : st.params = new := by
    rw [hst, hnew]
    rfl
  refine ⟨hdialect, hsound.clean, ?_⟩
  rw [hplaces, hparams, List.range_eq_range']
  rfl

-- The placeholders that can be read off a compiled statement are those of its parameters, each
-- once and in their order. Inside it every rendering adds the parameters of its own placeholders
-- to those that there were, and one without text adds none.
theorem placeholders_aligned (g : Engine) (e : Expr) (hs : e.isStatic = true) :
    (∀ (c : Compilation) (st : Statement), c.dialect = some g.dialect → c.run (some e) = .ok st →
      st.named.map (·.1) = (List.range st.params.length).map parameterName ∧
      st.tokens.places = List.range st.params.length ∧
      g.marks.placeholders st.text =
        (List.range st.params.length).map fun i => g.dialect.placeholder (parameterName i)) ∧
    ∀ (frag : FragmentRenderer) (ctx : Context) (pos : Position) (out out' : Output) (s : Sql),
      ctx.dialect = g.dialect → Render.expr frag ctx pos e out = .ok (s, out') →
      ∃ new, out'.params.toList = out.params.toList ++ new ∧
        g.marks.placeholders (g.dialect.text s) =
          (List.range' out.params.size new.length).map
            (fun i => g.dialect.placeholder (parameterName i)) ∧
        (g.dialect.text s = "" → new = []) := by
  constructor
  · intro c st hc hrun
    obtain ⟨hdialect, hclean, hplaces⟩ := Compilation.sound hc hs hrun
    refine ⟨st.named_fst, hplaces, ?_⟩
    rw [Statement.text, hdialect, g.placeholders_text hclean, hplaces]
  · intro frag ctx pos out out' s hctx hrun
    have hsound := (Render.phrase_expr hctx hs pos out s out' hrun).sound
    obtain ⟨new, hnew, hplaces⟩ := hsound.appends
    refine ⟨new, hnew, ?_, fun htext => ?_⟩
    · rw [g.placeholders_text hsound.clean, hplaces]
    · have hblank := (g.text_eq_empty_iff s).mp htext
      have hlen := hplaces.symm.trans (Sql.places_eq_nil_of_isBlank hblank)
      simpa using hlen

-- Two conditions of this query say nothing and bind nothing, and one more question mark belongs to
-- the name of the table.
theorem placeholders_aligned_mariadb :
    let g : Engine := .mariadb '/'
    ∃ (c : Compilation) (e : Expr) (st : Statement),
      e.isStatic = true ∧ c.dialect = some g.dialect ∧ c.run (some e) = .ok st ∧
      st.text =
        "SELECT * FROM \x60t?\x60 WHERE (\x60name\x60 LIKE ? ESCAPE '/' AND \x60id\x60 IN (?, ?))" ∧
      g.marks.placeholders st.text =
        (List.range st.params.length).map fun i => g.dialect.placeholder (parameterName i) := by
  let resolver : Resolver :=
    ⟨fun _ => .ok "t?", fun _ name => .ok ⟨name, "", false⟩, fun _ _ => .error (.noFunction "")⟩
  let dropped : Expr := .compare .notIn (.value (.text "a") false) (.value (.items []) false)
  let pattern : Expr := .compare .startsWith (.property "" "name") (.value (.text "a?") false)
  let members : Expr :=
    .compare .isIn (.property "" "id") (.value (.items [.int64 1, .int64 2]) false)
  let e : Expr := .query (.filter (.rows "Row")
    (.set .and [dropped, .set .or [pattern, dropped], pattern, members]))
  let c : Compilation := { resolver := some resolver, dialect := some (Engine.mariadb '/').dialect }
  have hstatic : e.isStatic = true := rfl
  obtain ⟨st, hrun, htext⟩ : ∃ st, c.run (some e) = .ok st ∧ st.text =
      "SELECT * FROM \x60t?\x60 WHERE (\x60name\x60 LIKE ? ESCAPE '/' AND \x60id\x60 IN (?, ?))" :=
    ⟨_, rfl, by decide +kernel⟩
  exact ⟨c, e, st, hstatic, rfl, hrun, htext,
    ((placeholders_aligned (.mariadb '/') e hstatic).1 c st rfl hrun).2.2⟩

end QueryTree
