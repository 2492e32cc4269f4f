import QueryTree.Proofs.Expr.Hash
import QueryTree.Proofs.Expr.WellFormed

namespace QueryTree

namespace Expr

-- The expression with every literal replaced, those of its fragments too.
def withValues (σ : Value → Value) (e : Expr) : Expr := e.mapValues (fun v _ => σ v) σ

def normal (e : Expr) : Expr := e.withValues Value.normalize

-- Something holds of the value that a node carries.
def Carries (p : Value → Prop) : Expr → Prop
  | .value v _ => p v
  | .fragment _ arg => p arg
  | _ => True

theorem withValues_eq_self {σ : Value → Value} {e : Expr}
    (h : ∀ x ∈ e.nodes, x.Carries fun v => σ v = v) : e.withValues σ = e := by
  induction e using ofParts with
  | step e ih =>
    have hnode : e.mapLiteral (fun v _ => σ v) σ = e := by
      have hcarries := h e e.self_mem_nodes
      cases e with
      | value v const => exact congrArg (value · const) hcarries
      | fragment key arg => exact congrArg (fragment key) hcarries
      | _ => rfl
    have hparts : ∀ x ∈ e.parts, x.withValues σ = x :=
      fun x hx => ih x hx fun y hy => h y (mem_nodes_of_part hx hy)
    rw [withValues, mapValues_eq, hnode]
    exact mapParts_eq_self hparts

section Alike

variable {σ τ : Value → Value}

end Alike

end Expr
end QueryTree
