namespace QueryTree

-- What a condition says of a row; with nulls it may say nothing.
inductive Truth where
  | yes
  | no
  | unknown
deriving DecidableEq, Inhabited

namespace Truth

def not : Truth → Truth
  | .yes => .no
  | .no => .yes
  | .unknown => .unknown

def and : Truth → Truth → Truth
  | .no, _ => .no
  | _, .no => .no
  | .yes, .yes => .yes
  | _, _ => .unknown

def or : Truth → Truth → Truth
  | .yes, _ => .yes
  | _, .yes => .yes
  | .no, .no => .no
  | _, _ => .unknown

def ofBool (b : Bool) : Truth := if b then .yes else .no

@[simp] theorem and_yes (t : Truth) : t.and .yes = t := by cases t <;> rfl

@[simp] theorem yes_and (t : Truth) : Truth.yes.and t = t := by cases t <;> rfl

@[simp] theorem or_no (t : Truth) : t.or .no = t := by cases t <;> rfl

@[simp] theorem or_yes (t : Truth) : t.or .yes = .yes := by cases t <;> rfl

@[simp] theorem yes_or (t : Truth) : Truth.yes.or t = .yes := by cases t <;> rfl

theorem and_assoc (s t u : Truth) : (s.and t).and u = s.and (t.and u) := by
  cases s <;> cases t <;> cases u <;> rfl

theorem or_assoc (s t u : Truth) : (s.or t).or u = s.or (t.or u) := by
  cases s <;> cases t <;> cases u <;> rfl

end Truth

inductive Formula (α : Type) where
  | const (b : Bool)
  | atom (a : α)
  | not (φ : Formula α)
  | and (φ ψ : Formula α)
  | or (φ ψ : Formula α)

namespace Formula

variable {α : Type}

def eval (v : α → Truth) : Formula α → Truth
  | .const b => Truth.ofBool b
  | .atom a => v a
  | .not φ => (φ.eval v).not
  | .and φ ψ => (φ.eval v).and (ψ.eval v)
  | .or φ ψ => (φ.eval v).or (ψ.eval v)

def atoms : Formula α → List α
  | .const _ => []
  | .atom a => [a]
  | .not φ => φ.atoms
  | .and φ ψ | .or φ ψ => φ.atoms ++ ψ.atoms

def all : List (Formula α) → Formula α
  | [] => .const true
  | φ :: φs => .and φ (all φs)

def any : List (Formula α) → Formula α
  | [] => .const false
  | φ :: φs => .or φ (any φs)

-- Formulas of the same truth whatever that of their atoms.
def Same (φ ψ : Formula α) : Prop := ∀ v : α → Truth, φ.eval v = ψ.eval v

theorem eval_all_append (v : α → Truth) (φs ψs : List (Formula α)) :
    (all (φs ++ ψs)).eval v = ((all φs).eval v).and ((all ψs).eval v) := by
  induction φs with
  | nil => simp [all, eval, Truth.ofBool]
  | cons φ φs ih => simp only [List.cons_append, all, eval, ih, Truth.and_assoc]

theorem eval_any_append (v : α → Truth) (φs ψs : List (Formula α)) :
    (any (φs ++ ψs)).eval v = ((any φs).eval v).or ((any ψs).eval v) := by
  induction φs with
  | nil =>
    simp only [List.nil_append, any, eval, Truth.ofBool]
    cases (any ψs).eval v <;> rfl
  | cons φ φs ih => simp only [List.cons_append, any, eval, ih, Truth.or_assoc]

theorem eval_all_singleton (v : α → Truth) (φ : Formula α) : (all [φ]).eval v = φ.eval v := by
  simp [all, eval, Truth.ofBool]

theorem eval_any_singleton (v : α → Truth) (φ : Formula α) : (any [φ]).eval v = φ.eval v := by
  simp [any, eval, Truth.ofBool]

end Formula

-- The signs that a condition is written with.
inductive Symbol (α : Type) where
  | atom (a : α)
  | const (b : Bool)
  | not
  | and
  | or
  | opening
  | closing

namespace Symbol

variable {α : Type}

open Formula

-- What has been read between two parentheses: the alternatives that are complete, the factors of
-- the one being read, and the negations that wait for an operand.
structure Level (α : Type) where
  alternatives : List (Formula α) := []
  factors : List (Formula α) := []
  negations : Nat := 0

namespace Level

def negate : Nat → Formula α → Formula α
  | 0, φ => φ
  | n + 1, φ => negate n (.not φ)

-- An operand takes the negations before it.
def add (l : Level α) (φ : Formula α) : Level α :=
  { l with factors := l.factors ++ [negate l.negations φ], negations := 0 }

def alternative (l : Level α) : Level α := { alternatives := l.alternatives ++ [all l.factors] }

def result (l : Level α) : Formula α := any (l.alternatives ++ [all l.factors])

end Level

-- A reader stands at an operand or behind one; the levels around the current one wait for it.
structure Reader (α : Type) where
  level : Level α := {}
  outer : List (Level α) := []
  atOperand : Bool := true

def step : Reader α → Symbol α → Option (Reader α)
  | ⟨l, ls, true⟩, .atom a => some ⟨l.add (.atom a), ls, false⟩
  | ⟨l, ls, true⟩, .const b => some ⟨l.add (.const b), ls, false⟩
  | ⟨l, ls, true⟩, .not => some ⟨{ l with negations := l.negations + 1 }, ls, true⟩
  | ⟨l, ls, true⟩, .opening => some ⟨{}, l :: ls, true⟩
  | ⟨l, ls, false⟩, .and => some ⟨l, ls, true⟩
  | ⟨l, ls, false⟩, .or => some ⟨l.alternative, ls, true⟩
  | ⟨l, m :: ls, false⟩, .closing => some ⟨m.add l.result, ls, false⟩
  | _, _ => none

def read (r : Reader α) (ts : List (Symbol α)) : Option (Reader α) := ts.foldlM step r

def parse (ts : List (Symbol α)) : Option (Formula α) :=
  match read {} ts with
  | some ⟨l, [], false⟩ => some l.result
  | _ => none

-- The symbols are read as an operand that says what `φ` says.
def IsOperand (ts : List (Symbol α)) (φ : Formula α) : Prop :=
  ∀ l ls, ∃ ψ, ψ.Same φ ∧ read ⟨l, ls, true⟩ ts = some ⟨l.add ψ, ls, false⟩

-- The symbols are read as all that stands between two parentheses, or on its own.
def IsWhole (ts : List (Symbol α)) (φ : Formula α) : Prop :=
  ∀ ls, ∃ l : Level α, l.result.Same φ ∧ read ⟨{}, ls, true⟩ ts = some ⟨l, ls, false⟩

variable {ts us : List (Symbol α)} {φ : Formula α}

theorem read_append (r : Reader α) : read r (ts ++ us) = (read r ts).bind (read · us) :=
  List.foldlM_append

theorem isOperand_atom (a : α) : IsOperand [.atom a] (.atom a) :=
  fun _ _ => ⟨.atom a, fun _ => rfl, rfl⟩

theorem isOperand_const (b : Bool) : IsOperand ([.const b] : List (Symbol α)) (.const b) :=
  fun _ _ => ⟨.const b, fun _ => rfl, rfl⟩

theorem IsOperand.of_same {ψ : Formula α} (h : IsOperand ts φ) (hsame : φ.Same ψ) :
    IsOperand ts ψ := by
  intro l ls
  obtain ⟨χ, hχ, hread⟩ := h l ls
  exact ⟨χ, fun v => (hχ v).trans (hsame v), hread⟩

theorem IsOperand.isWhole (h : IsOperand ts φ) : IsWhole ts φ := by
  intro ls
  obtain ⟨ψ, hψ, hread⟩ := h {} ls
  refine ⟨_, fun v => ?_, hread⟩
  simp only [Level.result, Level.add, Level.negate, List.nil_append, eval_any_singleton,
    eval_all_singleton]
  exact hψ v

theorem IsOperand.negated (h : IsOperand ts φ) : IsOperand (.not :: ts) (.not φ) := by
  intro l ls
  obtain ⟨ψ, hψ, hread⟩ := h { l with negations := l.negations + 1 } ls
  refine ⟨.not ψ, fun v => ?_, hread⟩
  simp only [eval, hψ v]

theorem IsWhole.enclosed (h : IsWhole ts φ) : IsOperand (.opening :: ts ++ [.closing]) φ := by
  intro l ls
  obtain ⟨inner, hinner, hread⟩ := h (l :: ls)
  refine ⟨inner.result, hinner, ?_⟩
  rw [List.cons_append]
  change read ⟨{}, l :: ls, true⟩ (ts ++ [.closing]) = _
  rw [read_append, hread]
  rfl

def separated (sep : Symbol α) : List (List (Symbol α)) → List (Symbol α)
  | [] => []
  | [ts] => ts
  | ts :: rest => ts ++ sep :: separated sep rest

theorem read_conjunction {parts : List (List (Symbol α) × Formula α)} (hne : parts ≠ [])
    (hparts : ∀ p ∈ parts, IsOperand p.1 p.2) (fs : List (Formula α)) (ls : List (Level α)) :
    ∃ l : Level α, l.result.Same (all (fs ++ parts.map (·.2))) ∧
      read ⟨{ factors := fs }, ls, true⟩ (separated .and (parts.map (·.1))) =
        some ⟨l, ls, false⟩ := by
  induction parts generalizing fs with
  | nil => exact absurd rfl hne
  | cons p parts ih =>
    obtain ⟨hp, hrest⟩ := List.forall_mem_cons.mp hparts
    obtain ⟨ψ, hψ, hread⟩ := hp { factors := fs } ls
    cases parts with
    | nil =>
      refine ⟨_, fun v => ?_, hread⟩
      simp only [Level.result, Level.add, Level.negate, List.nil_append, eval_any_singleton,
        eval_all_append, eval_all_singleton, List.map_cons, List.map_nil, hψ v]
    | cons q parts =>
      obtain ⟨l, hl, hreadRest⟩ := ih (by simp) hrest (fs ++ [ψ])
      refine ⟨l, fun v => ?_, ?_⟩
      · rw [hl v, eval_all_append, eval_all_append, eval_all_singleton, hψ v, Truth.and_assoc]
        exact (eval_all_append v fs (p.2 :: (q :: parts).map (·.2))).symm
      · simp only [List.map_cons, separated] at hreadRest ⊢
        rw [read_append, hread]
        exact hreadRest

theorem read_disjunction {parts : List (List (Symbol α) × Formula α)} (hne : parts ≠ [])
    (hparts : ∀ p ∈ parts, IsOperand p.1 p.2) (as : List (Formula α)) (ls : List (Level α)) :
    ∃ l : Level α, l.result.Same (any (as ++ parts.map (·.2))) ∧
      read ⟨{ alternatives := as }, ls, true⟩ (separated .or (parts.map (·.1))) =
        some ⟨l, ls, false⟩ := by
  induction parts generalizing as with
  | nil => exact absurd rfl hne
  | cons p parts ih =>
    obtain ⟨hp, hrest⟩ := List.forall_mem_cons.mp hparts
    obtain ⟨ψ, hψ, hread⟩ := hp { alternatives := as } ls
    cases parts with
    | nil =>
      refine ⟨_, fun v => ?_, hread⟩
      simp only [Level.result, Level.add, Level.negate, List.nil_append, eval_any_append,
        eval_any_singleton, eval_all_singleton, List.map_cons, List.map_nil, hψ v]
    | cons q parts =>
      obtain ⟨l, hl, hreadRest⟩ := ih (by simp) hrest (as ++ [all [ψ]])
      refine ⟨l, fun v => ?_, ?_⟩
      · rw [hl v, eval_any_append, eval_any_append, eval_any_singleton, eval_all_singleton, hψ v,
          Truth.or_assoc]
        exact (eval_any_append v as (p.2 :: (q :: parts).map (·.2))).symm
      · simp only [List.map_cons, separated] at hreadRest ⊢
        rw [read_append, hread]
        exact hreadRest

theorem IsWhole.parse (h : IsWhole ts φ) : ∃ ψ, Symbol.parse ts = some ψ ∧ ψ.Same φ := by
  obtain ⟨l, hl, hread⟩ := h []
  refine ⟨l.result, ?_, hl⟩
  simp only [Symbol.parse, hread]

end Symbol
end QueryTree
