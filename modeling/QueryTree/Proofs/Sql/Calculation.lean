import QueryTree.Expr.Equal
import QueryTree.Proofs.Expr.Induction
import QueryTree.Proofs.Number.Integer
import QueryTree.Proofs.Sql.Legible

namespace QueryTree

variable {op : LogicOp} {kw owner name : String}

namespace LogicOp

-- The six comparisons by value.
def comparisons : List LogicOp := [equal, notEqual, greater, lessOrEqual, greaterOrEqual, less]

end LogicOp

namespace Expr

-- Expressions made of properties, integer constants, comparisons and arithmetic.
def isCalculation : Expr → Bool
  | .property .. => true
  | .value (.int ..) const => const
  | .compare op l r => LogicOp.comparisons.contains op && l.isCalculation && r.isCalculation
  | .compute op l r => op.isValid && op != .concatenate && l.isCalculation && r.isCalculation
  | _ => false

-- Puts a comparison behind the last one of a chain.
def attach (op : LogicOp) (right : Expr) : Expr → Expr
  | .compare oq l r => .compare oq l (attach op right r)
  | left => .compare op left right

-- The expression with every chain of comparisons grouped from the right.
def straight : Expr → Expr
  | .compare op l r => attach op r.straight l.straight
  | .compute op l r => .compute op l.straight r.straight
  | e => e

def isCompare : Expr → Bool
  | .compare .. => true
  | _ => false

def isStraight : Expr → Bool
  | .compare _ l r => !l.isCompare && l.isStraight && r.isStraight
  | .compute _ l r => l.isStraight && r.isStraight
  | _ => true

section Straight

theorem isStraight_attach {l r : Expr} (hl : l.isStraight = true) (hr : r.isStraight = true) :
    (attach op r l).isStraight = true := by
  induction l with
  | compare oq x y _ hy =>
    simp only [isStraight, Bool.and_eq_true] at hl
    rw [attach, isStraight, hy hl.2, hl.1.1, hl.1.2]
    rfl
  | _ => simp_all [attach, isStraight, isCompare]

theorem isStraight_straight (e : Expr) : e.straight.isStraight = true := by
  induction e with
  | compare op l r hl hr =>
    rw [straight]
    exact isStraight_attach hl hr
  | compute op l r hl hr => rw [straight, isStraight, hl, hr]; rfl
  | _ => rfl

theorem straight_eq {e : Expr} (he : e.isStraight = true) : e.straight = e := by
  induction e with
  | compare op l r hl hr =>
    simp only [isStraight, Bool.and_eq_true, Bool.not_eq_true'] at he
    rw [straight, hl he.1.2, hr he.2]
    cases l with
    | compare oq x y => simp [isCompare] at he
    | _ => rfl
  | compute op l r hl hr =>
    simp only [isStraight, Bool.and_eq_true] at he
    rw [straight, hl he.1, hr he.2]
  | _ => rfl

theorem mem_nodes_attach {l r : Expr} :
    .property owner name ∈ (attach op r l).nodes ↔
      .property owner name ∈ l.nodes ∨ .property owner name ∈ r.nodes := by
  induction l with
  | compare oq x y _ hy => simp [attach, nodes, hy, or_assoc]
  | _ => simp [attach, nodes, or_assoc]

theorem mem_nodes_straight {e : Expr} :
    .property owner name ∈ e.straight.nodes ↔ .property owner name ∈ e.nodes := by
  induction e with
  | compare op l r hl hr => simp [straight, nodes, mem_nodes_attach, hl, hr]
  | compute op l r hl hr => simp [straight, nodes, hl, hr]
  | _ => rfl

end Straight

theorem same_number_iff {k k' : IntKind} {n m : Int} :
    (value (.int k n) true).same (.value (.int k' m) true) = true ↔ n = m := by
  simp only [same, sameValue, Value.same, Value.normalize, Value.normalInt, beq_self_eq_true,
    Bool.true_and]
  constructor
  · intro h
    split at h <;> split at h <;> simp_all [Value.deepEq]
  · rintro rfl
    split <;> simp [Value.deepEq]

end Expr

-- The tokens of a calculation over columns without a qualifier.
inductive Spelt (g : Engine) (column : String → String → Option String) : Expr → Sql → Prop
  | property {owner name c : String} (hc : column owner name = some c) :
    Spelt g column (.property owner name) [.name c]
  | number (kind : IntKind) (n : Int) :
    Spelt g column (.value (.int kind n) true) [.literal (toString n)]
  | compare {op : LogicOp} {l r : Expr} {s t : Sql} (hop : op ∈ LogicOp.comparisons)
    (hl : Spelt g column l s) (hr : Spelt g column r t) :
    Spelt g column (.compare op l r) (s ++ .text (" " ++ op.symbol ++ " ") :: t)
  | compute {op : ValueOp} {kw : String} {l r : Expr} {s t : Sql} (hop : op ≠ .concatenate)
    (hkw : g.dialect.valueKeyword op = some kw)
    (hl : Spelt g column l s) (hr : Spelt g column r t) :
    Spelt g column (.compute op l r) (Sql.enclosed (s ++ .text (" " ++ kw ++ " ") :: t))

-- What a token is read as by itself.
def Token.lexemes : Token → List Lexeme
  | .name c => [.name none c]
  | .text t | .literal t => Marks.plain.lex .blank t.toList
  | _ => []

def Sql.lexemes (s : Sql) : List Lexeme := s.flatMap Token.lexemes

namespace Spelt

variable {g : Engine} {column : String → String → Option String} {a b l r : Expr} {s t : Sql}

theorem attach (hop : op ∈ LogicOp.comparisons) (hl : Spelt g column l s)
    (hr : Spelt g column r t) :
    Spelt g column (.attach op r l) (s ++ .text (" " ++ op.symbol ++ " ") :: t) := by
  induction hl with
  | property hc => exact .compare hop (.property hc) hr
  | number kind n => exact .compare hop (.number kind n) hr
  | compare hop' hx _ _ hy =>
    rw [List.append_assoc, List.cons_append]
    exact .compare hop' hx hy
  | compute hop' hkw hx hy _ _ => exact .compare hop (.compute hop' hkw hx hy) hr

theorem straight (h : Spelt g column a s) : Spelt g column a.straight s := by
  induction h with
  | property hc => exact .property hc
  | number kind n => exact .number kind n
  | compare hop _ _ hl hr => exact attach hop hl hr
  | compute hop hkw _ _ hl hr => exact .compute hop hkw hl hr

theorem eq_of_same (ha : Spelt g column a s) (hb : Spelt g column b t) (h : a.same b = true) :
    s = t := by
  induction ha generalizing b t with
  | property hc =>
    cases hb with
    | property hc' =>
      simp only [Expr.same, Bool.and_eq_true, beq_iff_eq] at h
      rw [h.1, h.2] at hc
      rw [Option.some.inj (hc.symm.trans hc')]
    | _ => simp [Expr.same] at h
  | number kind n =>
    cases hb with
    | number kind' m =>
      rw [Expr.same_number_iff.mp h]
    | _ => simp [Expr.same] at h
  | compare hop _ _ hl hr =>
    cases hb with
    | compare hop' hl' hr' =>
      simp only [Expr.same, Bool.and_eq_true, beq_iff_eq] at h
      rw [h.1.1, hl hl' h.1.2, hr hr' h.2]
    | _ => simp [Expr.same] at h
  | compute hop hkw _ _ hl hr =>
    cases hb with
    | compute hop' hkw' hl' hr' =>
      simp only [Expr.same, Bool.and_eq_true, beq_iff_eq] at h
      obtain ⟨⟨rfl, hsl⟩, hsr⟩ := h
      rw [hl hl' hsl, hr hr' hsr, Option.some.inj (hkw.symm.trans hkw')]
    | _ => simp [Expr.same] at h

end Spelt

-- Signs that carry on a chain of comparisons.
def Lexeme.isComparing : Lexeme → Bool
  | .sign c => ['=', '<', '>'].contains c
  | _ => false

def endsChain (ls : List Lexeme) : Bool := ls.head?.all (!·.isComparing)

section Signs

open Lexeme (isComparing)

def comparisonSigns (op : LogicOp) : List Lexeme := (Token.text (" " ++ op.symbol ++ " ")).lexemes

theorem comparisonSigns_facts : ∀ op ∈ LogicOp.comparisons,
    (comparisonSigns op ≠ [] ∧ (comparisonSigns op).all isComparing = true) ∧
      ∀ oq ∈ LogicOp.comparisons, comparisonSigns op = comparisonSigns oq → op = oq := by
  decide +kernel

theorem endsChain_comparisonSigns (hop : op ∈ LogicOp.comparisons) (ls : List Lexeme) :
    endsChain (comparisonSigns op ++ ls) = false := by
  obtain ⟨⟨hne, hsigns⟩, -⟩ := comparisonSigns_facts op hop
  cases hlist : comparisonSigns op with
  | nil => exact absurd hlist hne
  | cons x xs =>
    rw [hlist, List.all_cons, Bool.and_eq_true] at hsigns
    simp [endsChain, hsigns.1]

-- The signs of arithmetic on any engine.
def arithmeticSigns : List (ValueOp × String) :=
  [(.add, "+"), (.subtract, "-"), (.multiply, "*"), (.divide, "/"), (.modulo, "%"),
   (.bitAnd, "&"), (.bitOr, "|"), (.bitXor, "^"), (.bitXor, "#")]

theorem mem_arithmeticSigns_of_standard {op : ValueOp} (h : standardValue op = some kw) :
    (op, kw) ∈ arithmeticSigns := by
  unfold standardValue at h
  split at h
  · cases h
  · next hop =>
    obtain ⟨s, hs, rfl⟩ := Option.map_eq_some_iff.mp h
    have table : ∀ x ∈ ValueOp.table, x.1 ≠ .concatenate → (x.1, x.2.symbol) ∈ arithmeticSigns := by
      decide +kernel
    exact table (op, s) (mem_of_lookup hs) (by simpa using hop)

theorem mem_arithmeticSigns (g : Engine) {op : ValueOp} (h : g.dialect.valueKeyword op = some kw) :
    (op, kw) ∈ arithmeticSigns := by
  cases g with
  | postgres escape =>
    simp only [Engine.dialect, Dialect.postgres] at h
    split at h
    · next hop =>
      cases h
      rw [beq_iff_eq.mp hop]
      decide +kernel
    · exact mem_arithmeticSigns_of_standard h
  | sqlite escape =>
    simp only [Engine.dialect, Dialect.sqlite] at h
    split at h
    · cases h
    · exact mem_arithmeticSigns_of_standard h
  | mssql escape strict => exact mem_arithmeticSigns_of_standard h
  | mariadb escape => exact mem_arithmeticSigns_of_standard h

def arithmeticLexemes (kw : String) : List Lexeme := (Token.text (" " ++ kw ++ " ")).lexemes

theorem arithmeticLexemes_facts : ∀ x ∈ arithmeticSigns,
    ((arithmeticLexemes x.2).length = 1 ∧ endsChain (arithmeticLexemes x.2) = true) ∧
      ∀ y ∈ arithmeticSigns, arithmeticLexemes x.2 = arithmeticLexemes y.2 → x.1 = y.1 := by
  decide +kernel

theorem lex_digits (n : Nat) :
    Marks.plain.lex .blank (Nat.toDigits 10 n) = [.word (String.ofList (Nat.toDigits 10 n))] := by
  have hword : ∀ c ∈ Nat.toDigits 10 n, Text.isWordChar c = true :=
    fun c hc => Text.isWordChar_of_isDigit (Number.isDigit_of_mem_toDigits c hc)
  have h := Marks.lex_word Marks.plain_suits (by simp) hword []
  rw [List.append_nil] at h
  rw [h, Marks.lex_nil]
  simp [Lexeme.Draft.complete]

theorem lex_number (n : Int) :
    (0 ≤ n ∧ (Token.literal (toString n)).lexemes = [.word (toString n)]) ∨
    (n < 0 ∧ ∃ w, toString n = "-" ++ w ∧
      (Token.literal (toString n)).lexemes = [.sign '-', .word w]) := by
  rcases Number.toList_toString_cases n with ⟨hn, hlist⟩ | ⟨hn, hlist⟩
  · refine .inl ⟨hn, ?_⟩
    rw [Token.lexemes, hlist, lex_digits, ← hlist, String.ofList_toList]
  · refine .inr ⟨hn, String.ofList (Nat.toDigits 10 (-n).toNat), ?_, ?_⟩
    · rw [← String.toList_inj, hlist]
      simp
    · have hsign : Marks.plain.lexStep .blank '-' = (.blank, [.sign '-']) := by decide +kernel
      rw [Token.lexemes, hlist, Marks.lex_cons, hsign, lex_digits]
      rfl

theorem number_eq_of_lexemes {n m : Int} {ls ks : List Lexeme}
    (h : (Token.literal (toString n)).lexemes ++ ls =
      (Token.literal (toString m)).lexemes ++ ks) : n = m ∧ ls = ks := by
  have hinj : toString n = toString m → n = m := by
    intro htext
    have hread := Number.readInt?_toString m
    rw [← htext, Number.readInt?_toString] at hread
    exact Option.some.inj hread
  rcases lex_number n with ⟨-, hn⟩ | ⟨-, w, hw, hn⟩ <;>
    rcases lex_number m with ⟨-, hm⟩ | ⟨-, u, hu, hm⟩
  · rw [hn, hm] at h
    simp only [List.cons_append, List.nil_append, List.cons.injEq, Lexeme.word.injEq] at h
    exact ⟨hinj h.1, h.2⟩
  · rw [hn, hm] at h
    simp at h
  · rw [hn, hm] at h
    simp at h
  · rw [hn, hm] at h
    simp only [List.cons_append, List.nil_append, List.cons.injEq, Lexeme.word.injEq,
      true_and] at h
    exact ⟨hinj (by rw [hw, hu, h.1]), h.2⟩

end Signs

namespace Spelt

variable {g : Engine} {column : String → String → Option String} {a b l r : Expr} {s t : Sql}

open Lexeme (isComparing)

theorem lexemes_compare :
    Sql.lexemes (s ++ .text (" " ++ op.symbol ++ " ") :: t) =
      s.lexemes ++ (comparisonSigns op ++ t.lexemes) := by
  simp [Sql.lexemes, comparisonSigns]

theorem lexemes_compute :
    Sql.lexemes (Sql.enclosed (s ++ .text (" " ++ kw ++ " ") :: t)) =
      .sign '(' :: (s.lexemes ++ (arithmeticLexemes kw ++ (t.lexemes ++ [.sign ')']))) := by
  have hopen : (Token.text "(").lexemes = [.sign '('] := by decide +kernel
  have hclose : (Token.text ")").lexemes = [.sign ')'] := by decide +kernel
  simp [Sql.lexemes, Sql.enclosed, arithmeticLexemes, hopen, hclose]

theorem lexemes_name (c : String) : Sql.lexemes [.name c] = [.name none c] := rfl

theorem lexemes_number (n : Int) : ∃ x xs, Sql.lexemes [.literal (toString n)] = x :: xs ∧
    (∀ c, x ≠ .name none c) ∧ x ≠ .sign '(' := by
  simp only [Sql.lexemes, List.flatMap_cons, List.flatMap_nil, List.append_nil]
  rcases lex_number n with ⟨-, hn⟩ | ⟨-, w, -, hn⟩
  · exact ⟨_, _, hn, by simp, by simp⟩
  · exact ⟨_, _, hn, by simp, by simp⟩

theorem first (h : Spelt g column a s) (ls : List Lexeme) : endsChain (s.lexemes ++ ls) = true := by
  induction h generalizing ls with
  | property hc => rfl
  | number kind n =>
    rcases lex_number n with ⟨-, hn⟩ | ⟨-, w, -, hn⟩
    all_goals
      simp only [Sql.lexemes, List.flatMap_cons, hn]
      rfl
  | compare hop _ _ hl _ => rw [lexemes_compare, List.append_assoc]; exact hl _
  | compute hop hkw _ _ _ _ => rw [lexemes_compute]; rfl

-- Two columns with one name belong to one property.
def Apart (column : String → String → Option String) (a b : Expr) : Prop :=
  ∀ owner name owner' name' c, .property owner name ∈ a.nodes → .property owner' name' ∈ b.nodes →
    column owner name = some c → column owner' name' = some c → owner = owner' ∧ name = name'

-- The lexemes of `a` are read as nothing but `a`, unless a longer chain might be meant.
def Determines (g : Engine) (column : String → String → Option String) (a : Expr) (s : Sql) :
    Prop :=
  ∀ b t, Spelt g column b t → b.isStraight = true → Apart column a b → ∀ ls ks,
    s.lexemes ++ ls = t.lexemes ++ ks →
    (a.isCompare = false ∧ b.isCompare = false) ∨ (endsChain ls = true ∧ endsChain ks = true) →
    a.same b = true ∧ ls = ks

theorem Apart.part {a' b' : Expr} (h : Apart column a b) (ha : ∀ x ∈ a'.nodes, x ∈ a.nodes)
    (hb : ∀ x ∈ b'.nodes, x ∈ b.nodes) : Apart column a' b' :=
  fun owner name owner' name' c hx hy => h owner name owner' name' c (ha _ hx) (hb _ hy)

-- A calculation that is no comparison ends where its own lexemes end, so that a longer text can
-- only be a comparison with it on the left.
theorem determines_of_primary
    (h : ∀ b t, Spelt g column b t → b.isStraight = true → b.isCompare = false →
      Apart column a b → ∀ ls ks, s.lexemes ++ ls = t.lexemes ++ ks → a.same b = true ∧ ls = ks) :
    Determines g column a s := by
  intro b t hb hstraight hapart ls ks heq hcase
  cases hprimary : b.isCompare with
  | false => exact h b t hb hstraight hprimary hapart ls ks heq
  | true =>
    cases hb with
    | @compare op l r s' t' hop hl hr =>
      obtain ⟨hls, -⟩ : endsChain ls = true ∧ endsChain ks = true :=
        hcase.resolve_left (by simp [Expr.isCompare])
      simp only [Expr.isStraight, Bool.and_eq_true, Bool.not_eq_true'] at hstraight
      rw [lexemes_compare, List.append_assoc, List.append_assoc] at heq
      have hleft : ∀ x ∈ l.nodes, x ∈ (Expr.compare op l r).nodes :=
        fun x hx => Expr.mem_nodes_of_part (by simp [Expr.parts]) hx
      obtain ⟨-, hrest⟩ := h l s' hl hstraight.1.2 hstraight.1.1
        (hapart.part (fun _ hx => hx) hleft) ls _ heq
      rw [hrest, endsChain_comparisonSigns hop] at hls
      cases hls
    | _ => simp [Expr.isCompare] at hprimary

theorem comparison_eq_of_lexemes {oq : LogicOp} (hop : op ∈ LogicOp.comparisons)
    (hoq : oq ∈ LogicOp.comparisons) {ls ks : List Lexeme} (hls : endsChain ls = true)
    (hks : endsChain ks = true) (h : comparisonSigns op ++ ls = comparisonSigns oq ++ ks) :
    op = oq ∧ ls = ks := by
  have htake : ∀ o ∈ LogicOp.comparisons, ∀ xs, endsChain xs = true →
      (comparisonSigns o ++ xs).takeWhile isComparing = comparisonSigns o := by
    intro o ho xs hxs
    obtain ⟨⟨-, hsigns⟩, -⟩ := comparisonSigns_facts o ho
    rw [List.takeWhile_append_of_pos (List.all_eq_true.mp hsigns)]
    cases xs with
    | nil => simp
    | cons x xs => simp_all [endsChain]
  have hsigns : comparisonSigns op = comparisonSigns oq := by
    rw [← htake op hop ls hls, h, htake oq hoq ks hks]
  obtain ⟨-, hinj⟩ := comparisonSigns_facts op hop
  rw [hsigns] at h
  exact ⟨hinj oq hoq hsigns, List.append_cancel_left h⟩

theorem arithmetic_eq_of_lexemes {op oq : ValueOp} {kw' : String}
    (hop : (op, kw) ∈ arithmeticSigns) (hoq : (oq, kw') ∈ arithmeticSigns) {ls ks : List Lexeme}
    (h : arithmeticLexemes kw ++ ls = arithmeticLexemes kw' ++ ks) : op = oq ∧ ls = ks := by
  obtain ⟨⟨hlength, -⟩, hinj⟩ := arithmeticLexemes_facts _ hop
  obtain ⟨⟨hlength', -⟩, -⟩ := arithmeticLexemes_facts _ hoq
  obtain ⟨hsigns, hrest⟩ := List.append_inj h (hlength.trans hlength'.symm)
  exact ⟨hinj _ hoq hsigns, hrest⟩

theorem determines_property {c : String} (hc : column owner name = some c) :
    Determines g column (.property owner name) [.name c] := by
  refine determines_of_primary fun b t hb _ hprimary hapart ls ks heq => ?_
  rw [lexemes_name] at heq
  cases hb with
  | @property owner' name' c' hc' =>
    obtain ⟨rfl, hrest⟩ : c = c' ∧ ls = ks := by simpa [lexemes_name] using heq
    obtain ⟨rfl, rfl⟩ := hapart owner name owner' name' c (Expr.self_mem_nodes _)
      (Expr.self_mem_nodes _) hc hc'
    exact ⟨by simp [Expr.same], hrest⟩
  | number kind m =>
    obtain ⟨x, xs, hm, hname, -⟩ := lexemes_number m
    rw [hm] at heq
    exact absurd (List.cons.inj heq).1.symm (hname _)
  | compute hop hkw hl hr =>
    rw [lexemes_compute] at heq
    simp at heq
  | compare hop hl hr => simp [Expr.isCompare] at hprimary

theorem determines_number (kind : IntKind) (n : Int) :
    Determines g column (.value (.int kind n) true) [.literal (toString n)] := by
  refine determines_of_primary fun b t hb _ hprimary _ ls ks heq => ?_
  cases hb with
  | property hc =>
    obtain ⟨x, xs, hn, hname, -⟩ := lexemes_number n
    rw [hn, lexemes_name] at heq
    exact absurd (List.cons.inj heq).1 (hname _)
  | number kind' m =>
    simp only [Sql.lexemes, List.flatMap_cons, List.flatMap_nil, List.append_nil] at heq
    obtain ⟨hnm, hrest⟩ := number_eq_of_lexemes heq
    exact ⟨Expr.same_number_iff.mpr hnm, hrest⟩
  | compute hop hkw hl hr =>
    obtain ⟨x, xs, hn, -, hparenthesis⟩ := lexemes_number n
    rw [hn, lexemes_compute] at heq
    exact absurd (List.cons.inj heq).1 hparenthesis
  | compare hop hl hr => simp [Expr.isCompare] at hprimary

theorem determines_compute {op : ValueOp} (hkw : g.dialect.valueKeyword op = some kw)
    (hl : Determines g column l s) (hr : Determines g column r t) :
    Determines g column (.compute op l r)
      (Sql.enclosed (s ++ .text (" " ++ kw ++ " ") :: t)) := by
  refine determines_of_primary fun b u hb hstraight hprimary hapart ls ks heq => ?_
  rw [lexemes_compute] at heq
  cases hb with
  | property hc =>
    rw [lexemes_name] at heq
    simp at heq
  | number kind n =>
    obtain ⟨x, xs, hn, -, hparenthesis⟩ := lexemes_number n
    rw [hn] at heq
    exact absurd (List.cons.inj heq).1.symm hparenthesis
  | compare hop hl hr => simp [Expr.isCompare] at hprimary
  | @compute oq kw' x y s' t' hoq hkw' hx hy =>
    simp only [Expr.isStraight, Bool.and_eq_true] at hstraight
    rw [lexemes_compute] at heq
    simp only [List.cons_append, List.append_assoc, List.cons.injEq, true_and] at heq
    have hsign := mem_arithmeticSigns g hkw
    have hsign' := mem_arithmeticSigns g hkw'
    have hleft : ∀ z ∈ l.nodes, z ∈ (Expr.compute op l r).nodes :=
      fun z hz => Expr.mem_nodes_of_part (by simp [Expr.parts]) hz
    have hright : ∀ z ∈ r.nodes, z ∈ (Expr.compute op l r).nodes :=
      fun z hz => Expr.mem_nodes_of_part (by simp [Expr.parts]) hz
    have hleft' : ∀ z ∈ x.nodes, z ∈ (Expr.compute oq x y).nodes :=
      fun z hz => Expr.mem_nodes_of_part (by simp [Expr.parts]) hz
    have hright' : ∀ z ∈ y.nodes, z ∈ (Expr.compute oq x y).nodes :=
      fun z hz => Expr.mem_nodes_of_part (by simp [Expr.parts]) hz
    -- Neither a sign of arithmetic nor a parenthesis carries on a chain.
    have hends : ∀ {o : ValueOp} {k : String}, (o, k) ∈ arithmeticSigns → ∀ xs,
        endsChain (arithmeticLexemes k ++ xs) = true := by
      intro o k hk xs
      obtain ⟨⟨hlength, hfirst⟩, -⟩ := arithmeticLexemes_facts _ hk
      cases hlist : arithmeticLexemes k with
      | nil => simp [hlist] at hlength
      | cons z zs => simpa [hlist, endsChain] using hfirst
    obtain ⟨hsame, heq⟩ := hl x s' hx hstraight.1 (hapart.part hleft hleft') _ _ heq
      (.inr ⟨hends hsign _, hends hsign' _⟩)
    obtain ⟨rfl, hbehind⟩ := arithmetic_eq_of_lexemes hsign hsign' heq
    obtain ⟨hsame', hclosing⟩ := hr y t' hy hstraight.2 (hapart.part hright hright') _ _ hbehind
      (.inr ⟨rfl, rfl⟩)
    refine ⟨?_, (List.cons.inj hclosing).2⟩
    simp [Expr.same, hsame, hsame']

theorem determines_compare (hop : op ∈ LogicOp.comparisons) (hprimary : l.isCompare = false)
    (hl : Determines g column l s) (hspelt : Spelt g column r t) (hr : Determines g column r t) :
    Determines g column (.compare op l r) (s ++ .text (" " ++ op.symbol ++ " ") :: t) := by
  intro b u hb hstraight hapart ls ks heq hcase
  obtain ⟨hls, hks⟩ : endsChain ls = true ∧ endsChain ks = true :=
    hcase.resolve_left (by simp [Expr.isCompare])
  rw [lexemes_compare, List.append_assoc, List.append_assoc] at heq
  have hpart : ∀ z ∈ l.nodes, z ∈ (Expr.compare op l r).nodes :=
    fun z hz => Expr.mem_nodes_of_part (by simp [Expr.parts]) hz
  have hpart' : ∀ z ∈ r.nodes, z ∈ (Expr.compare op l r).nodes :=
    fun z hz => Expr.mem_nodes_of_part (by simp [Expr.parts]) hz
  cases hb with
  | @compare oq x y s' t' hoq hx hy =>
    simp only [Expr.isStraight, Bool.and_eq_true, Bool.not_eq_true'] at hstraight
    rw [lexemes_compare, List.append_assoc, List.append_assoc] at heq
    have hleft : ∀ z ∈ x.nodes, z ∈ (Expr.compare oq x y).nodes :=
      fun z hz => Expr.mem_nodes_of_part (by simp [Expr.parts]) hz
    have hright : ∀ z ∈ y.nodes, z ∈ (Expr.compare oq x y).nodes :=
      fun z hz => Expr.mem_nodes_of_part (by simp [Expr.parts]) hz
    obtain ⟨hsame, heq⟩ := hl x s' hx hstraight.1.2 (hapart.part hpart hleft) _ _ heq
      (.inl ⟨hprimary, hstraight.1.1⟩)
    obtain ⟨rfl, hbehind⟩ := comparison_eq_of_lexemes hop hoq (hspelt.first ls) (hy.first ks) heq
    obtain ⟨hsame', hrest⟩ := hr y t' hy hstraight.2 (hapart.part hpart' hright) _ _ hbehind
      (.inr ⟨hls, hks⟩)
    refine ⟨?_, hrest⟩
    simp [Expr.same, hsame, hsame']
  | _ =>
    -- Anything else ends before the sign of the comparison.
    obtain ⟨-, hrest⟩ := hl _ _ (by constructor <;> assumption) hstraight
      (hapart.part hpart fun _ hz => hz) _ _ heq (.inl ⟨hprimary, rfl⟩)
    rw [← hrest, endsChain_comparisonSigns hop] at hks
    cases hks

-- The lexemes of a calculation without comparisons on the left of others determine it.
theorem determines (ha : Spelt g column a s) (hstraight : a.isStraight = true) :
    Determines g column a s := by
  induction ha with
  | property hc => exact determines_property hc
  | number kind n => exact determines_number kind n
  | compare hop hx hy ihx ihy =>
    simp only [Expr.isStraight, Bool.and_eq_true, Bool.not_eq_true'] at hstraight
    exact determines_compare hop hstraight.1.1 (ihx hstraight.1.2) hy (ihy hstraight.2)
  | compute hop hkw hx hy ihx ihy =>
    simp only [Expr.isStraight, Bool.and_eq_true] at hstraight
    exact determines_compute hkw (ihx hstraight.1) (ihy hstraight.2)

end Spelt

end QueryTree
