import Mathlib.Tactic.Choose
import QueryTree.Proofs.Expr.Normal
import QueryTree.Proofs.Sql.Independence

namespace QueryTree

namespace Value

theorem Alike.refl (const : Bool) (v : Value) : v.Alike const v :=
  ⟨rfl, rfl, fun _ _ => Iff.rfl, fun _ => rfl, fun _ _ _ => rfl⟩

theorem Alike.symm {const : Bool} {v w : Value} (h : v.Alike const w) : w.Alike const v where
  isNull := h.isNull.symm
  nulls := h.nulls.symm
  bool hconst b := (h.bool hconst b).symm
  isPrimitive hconst := (h.isPrimitive hconst).symm
  written hconst yes no := (h.written hconst yes no).symm

end Value

-- Steps of which a statement shows the same: they may differ in the values they bind, and in what
-- they say when they fail.
inductive FragmentStep.Alike : FragmentStep → FragmentStep → Prop
  | done (s : Sql) : Alike (.done s) (.done s)
  | fail (cause other : Error) : Alike (.fail cause) (.fail other)
  | bind (v w : Value) {next after : Sql → FragmentStep} (h : ∀ s, Alike (next s) (after s)) :
    Alike (.bind v next) (.bind w after)
  | column (path : String) {next after : Sql → FragmentStep} (h : ∀ s, Alike (next s) (after s)) :
    Alike (.column path next) (.column path after)
  | render (e : Expr) {next after : Sql → FragmentStep} (h : ∀ s, Alike (next s) (after s)) :
    Alike (.render e next) (.render e after)

theorem FragmentStep.Alike.refl (step : FragmentStep) : step.Alike step := by
  induction step with
  | done s => exact .done s
  | fail cause => exact .fail cause cause
  | bind v next ih => exact .bind v v ih
  | column path next ih => exact .column path ih
  | render e next ih => exact .render e ih

namespace FragmentStep.Alike

variable {other : FragmentStep} {next : Sql → FragmentStep}

end FragmentStep.Alike

namespace Render

variable {ι : Type} {g : Engine} {sources : FragmentSources} {ctx : Context}

end Render

end QueryTree
