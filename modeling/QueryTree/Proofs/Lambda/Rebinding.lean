import QueryTree.Proofs.Lambda.Folding
import QueryTree.Proofs.Lambda.Syntax
import QueryTree.Proofs.Lambda.Uniform

namespace QueryTree.Lambda

variable {g h : Host} {op : InfixOp}

def Class.ty : Class → Ty
  | .bool => .bool
  | .text => .text
  | .int => .int .int
  | .float => .float .float64

namespace Constant

variable {v : Value} {cls : Class}

def isOf : Constant → Class → Bool
  | .bool _, .bool | .text _, .text | .octets _, .text | .int _, .int => true
  | .ratio .., .float | .unknown, .float => true
  | _, _ => false

theorem isOf_ofValue? {x : Constant} (h : ofValue? v = some (x, cls)) : x.isOf cls = true := by
  unfold ofValue? at h
  split at h <;> cases h
  case h_5 y _ =>
    unfold ofBinary
    split <;> rfl
  all_goals rfl

def classOf? : Option Ty → Option Class
  | some .bool => some .bool
  | some .text => some .text
  | some (.int _) => some .int
  | some (.float _) => some .float
  | _ => none

theorem class_akin {w : Value} (h : v.Akin w) :
    (ofValue? v).map (·.2) = (ofValue? w).map (·.2) := by
  refine Value.Akin.test (f := fun v => (ofValue? v).map (·.2)) (g := classOf?)
    (fun _ _ => rfl) ?_ (fun _ _ => rfl) h
  intro x hx
  cases x with
  | named | map | record | pointer => cases hx
  | _ => rfl

def Typed (cls : Class) (v : Value) : Prop := v.isSimple = true ∧ v.ty? = some cls.ty

theorem Typed.akin {w : Value} (hv : Typed cls v) (hw : Typed cls w) : v.Akin w :=
  .simple hv.1 hw.1 (hv.2.trans hw.2.symm)

theorem typed_toValue {x : Constant} (hx : x.isOf cls = true) (h : x.toValue cls = .ok v) :
    Typed cls v := by
  cases x <;> cases cls <;> cases hx
  case octets bs =>
    cases h
    exact Value.ofOctets_form bs
  case int n =>
    simp only [toValue, intValue] at h
    split at h
    · contradiction
    · split at h <;> cases h
      exact ⟨rfl, rfl⟩
  case unknown => cases h
  all_goals
    cases h
    exact ⟨rfl, rfl⟩

theorem isOf_combineInt (op : InfixOp) (m n : Int) :
    combineInt op m n = .unknown ∨ (combineInt op m n).isOf .int = true := by
  cases op with
  | add | sub | mul | quo | rem | bitAnd | bitOr | bitXor | bitClear => exact .inr rfl
  | _ => exact .inl rfl

theorem isOf_combineRatio (op : InfixOp) (m : Int) (d : Nat) (n : Int) (e : Nat) :
    combineRatio op m d n e = .unknown ∨ (combineRatio op m d n e).isOf .float = true := by
  cases op with
  | add | sub | mul => exact .inr rfl
  | quo =>
    simp only [combineRatio]
    split <;> exact .inr rfl
  | _ => exact .inl rfl

theorem isOf_combine (op : InfixOp) {l r : Constant} {c d : Class} (hl : l.isOf c = true)
    (hr : r.isOf d = true) (hcd : c.combines d = true) :
    combine op l r = .unknown ∨
      (combine op l r).isOf (if d == .float then .float else c) = true := by
  cases l <;> cases c <;> cases hl <;> cases r <;> cases d <;> cases hr <;> cases hcd
  case int.int.refl.int.int.refl.refl m n => exact isOf_combineInt op m n
  case bool.bool.refl.bool.bool.refl.refl =>
    cases op with
    | both | either => exact .inr rfl
    | _ => exact .inl rfl
  case text.text.refl.text.text.refl.refl | text.text.refl.octets.text.refl.refl
      | octets.text.refl.text.text.refl.refl | octets.text.refl.octets.text.refl.refl =>
    exact .inr rfl
  case int.int.refl.ratio.float.refl.refl | ratio.float.refl.int.int.refl.refl
      | ratio.float.refl.ratio.float.refl.refl =>
    exact isOf_combineRatio op _ _ _ _
  all_goals exact .inl rfl

theorem typed_shift {m n : Int} (h : (do (← shift op m n).toValue .int) = .ok v) :
    Typed .int v := by
  obtain ⟨x, hx, h⟩ := Compilation.bind_ok h
  refine typed_toValue ?_ h
  unfold shift at hx
  split at hx
  case isFalse => cases hx
  case isTrue =>
    split at hx
    case isTrue =>
      cases hx
      rfl
    case isFalse =>
      split at hx
      all_goals
        split at hx <;> cases hx <;> rfl

def resultClass (op : InfixOp) (c d : Class) : Class :=
  if isComparison op then .bool else if d == .float then .float else c

theorem typed_infixValue {type : String} {l r : Constant} {c d : Class} (hl : l.isOf c = true)
    (hr : r.isOf d = true) (hcd : c.combines d = true) (h : infixValue op type l c r d = .ok v) :
    Typed (resultClass op c d) v := by
  have hcombine := isOf_combine op hl hr hcd
  unfold infixValue at h
  unfold resultClass
  dsimp only at h
  generalize (if d == .float then Class.float else c) = cls at h hcombine ⊢
  split at h
  case isTrue hop =>
    rw [if_pos hop]
    split at h <;> cases h
    exact ⟨rfl, rfl⟩
  case isFalse hop =>
    rw [if_neg hop]
    split at h
    case isTrue =>
      split at h
      case h_1 m n => exact typed_shift h
      case h_2 => cases h
    case isFalse =>
      split at h
      case isTrue => cases h
      case isFalse =>
        split at h
        case isTrue => cases h
        case isFalse =>
          split at h
          case h_1 => cases h
          case h_2 hknown => exact typed_toValue (hcombine.resolve_left hknown) h

theorem typed_prefixValue {op : PrefixOp} {type : String} {x : Constant} (hx : x.isOf cls = true)
    (h : prefixValue op type x cls = .ok v) : Typed cls v := by
  unfold prefixValue at h
  split at h
  case isTrue => cases h
  case isFalse hop =>
    refine typed_toValue ?_ h
    have hdefined : isPrefixDefined op cls = true := by simpa using hop
    cases op <;> cases cls <;> cases hdefined <;> cases x <;> cases hx <;> rfl

end Constant

-- Results of one form: constant or not, and of one type.
structure Result.SameForm (r s : Result) : Prop where
  constant : r.constant = s.constant
  value : r.value.Akin s.value

-- Results of two evaluations of one source. What is constant is the same in both.
structure Result.Akin (r s : Result) : Prop extends Result.SameForm r s where
  same : r.constant = true → r.value = s.value

namespace Result

theorem Akin.bound (hgh : g.Akin h) : Akin ⟨g, false⟩ ⟨h, false⟩ where
  constant := rfl
  value := hgh
  same := by
    intro hc
    cases hc

theorem Akin.literal (v : Value) (const : Bool) : Akin ⟨.value v, const⟩ ⟨.value v, const⟩ where
  constant := rfl
  value := .value (.refl v)
  same := fun _ => rfl

theorem Akin.eq {r s : Result} (h : Akin r s) (hc : r.constant = true) : r = s := by
  obtain ⟨g, c⟩ := r
  obtain ⟨g', c'⟩ := s
  cases h.constant
  cases h.same hc
  rfl

theorem Akin.step {f : Result → Except EvalError Result} {r s : Result} (h : Akin r s)
    (hf : ∀ {r a}, f r = .ok a → a.constant = true → r.constant = true)
    (hform : Both SameForm (f r) (f s)) : Both Akin (f r) (f s) := by
  intro a b ha hb
  refine { toSameForm := hform a b ha hb, same := fun hc => ?_ }
  have heq := h.eq (hf ha hc)
  subst heq
  cases ha.symm.trans hb
  rfl

end Result

namespace Scope

variable {sc : Scope}

section Steps

variable {r s l l' : Result}

theorem both_length (h : r.Akin s) :
    Both Result.Akin (do return ⟨.value (.int .int (← length r.value)), r.constant⟩)
      (do return ⟨.value (.int .int (← length s.value)), s.constant⟩) := by
  refine h.step (f := fun r => do return ⟨.value (.int .int (← length r.value)), r.constant⟩) ?_ ?_
  · intro r a ha hc
    obtain ⟨k, -, ha⟩ := Compilation.bind_ok ha
    cases ha
    exact hc
  · intro a b ha hb
    obtain ⟨k, -, ha⟩ := Compilation.bind_ok ha
    obtain ⟨k', -, hb⟩ := Compilation.bind_ok hb
    cases ha
    cases hb
    exact ⟨h.constant, .value (int_akin .int k k')⟩

theorem constant_of_converted {t : Ty} {a : Result} (h : sc.converted r t = .ok a) :
    a.constant = r.constant := by
  unfold converted at h
  split at h
  · cases h
    rfl
  · split at h
    · split at h <;> cases h
      rfl
    · cases h

theorem both_converted (t : Ty) (h : r.Akin s) :
    Both Result.Akin (sc.converted r t) (sc.converted s t) := by
  refine h.step (f := (sc.converted · t)) (fun ha hc => constant_of_converted ha ▸ hc) ?_
  intro a b ha hb
  refine ⟨?_, ?_⟩
  · rw [constant_of_converted ha, constant_of_converted hb, h.constant]
  · unfold converted at ha hb
    split at ha
    case isTrue ht =>
      rw [if_pos ht] at hb
      cases ha
      cases hb
      exact h.value
    case isFalse ht =>
      rw [if_neg ht] at hb
      obtain ⟨g, c⟩ := r
      obtain ⟨g', c'⟩ := s
      cases h.value with
      | @value v w hvw =>
        dsimp only at ha hb
        split at ha
        case h_2 => cases ha
        case h_1 v' hv =>
          split at hb
          case h_2 => cases hb
          case h_1 w' hw =>
            cases ha
            cases hb
            exact .value (hvw.convert? hv hw)
      | expr | func => cases ha

theorem both_addressOf (hgh : g.Akin h) : Both Host.Akin (addressOf g) (addressOf h) := by
  have hvalue : ∀ {v : Value} {a : Host},
      addressOf (.value v) = .ok a → a = .value (.pointer v) := by
    intro v a ha
    cases v <;> cases ha <;> rfl
  cases hgh with
  | value h =>
    intro a b ha hb
    rw [hvalue ha, hvalue hb]
    exact .value (.pointer h)
  | expr h => exact Both.ok (.expr h)
  | func h => exact Both.ok (.func h)

theorem both_dereference (hgh : g.Akin h) : Both Host.Akin (dereference g) (dereference h) := by
  have hpointer : ∀ {g a : Host}, dereference g = .ok a →
      ∃ v, g = .value (.pointer v) ∧ a = .value v := by
    intro g a ha
    unfold dereference at ha
    split at ha
    case h_1 v =>
      cases ha
      exact ⟨v, rfl, rfl⟩
    case h_2 => cases ha
  intro a b ha hb
  obtain ⟨v, rfl, rfl⟩ := hpointer ha
  obtain ⟨w, rfl, rfl⟩ := hpointer hb
  cases hgh with
  | value h =>
    cases h with
    | refl => exact .value (.refl v)
    | pointer h => exact .value h
    | simple hv => cases hv

theorem class_constant? (hgh : g.Akin h) : (constant? g).map (·.2) = (constant? h).map (·.2) := by
  cases hgh with
  | value h => exact Constant.class_akin h
  | expr | func => rfl

theorem class_of_akin {x y : Constant} {c d : Class} (hgh : g.Akin h)
    (hg : constant? g = some (x, c)) (hh : constant? h = some (y, d)) : c = d := by
  have hclass := class_constant? hgh
  rw [hg, hh] at hclass
  exact Option.some.inj hclass

theorem isOf_constant? {x : Constant} {c : Class} (h : constant? g = some (x, c)) :
    x.isOf c = true := by
  cases g with
  | value v => exact Constant.isOf_ofValue? h
  | expr | func => cases h

theorem prefixResult_ok {op : PrefixOp} {a : Result} (hop : (op == .address) = false)
    (h : prefixResult op r = .ok a) :
    a.constant = r.constant ∧ ∃ x c v, constant? r.value = some (x, c) ∧
      Constant.prefixValue op r.value.typeName x c = .ok v ∧ a.value = .value v := by
  unfold prefixResult at h
  rw [if_neg (by simp [hop])] at h
  dsimp only at h
  split at h
  case h_2 => cases h
  case h_1 u hu =>
    split at h
    case h_2 => cases h
    case h_1 x c hx =>
      obtain ⟨v, hv, h⟩ := Compilation.bind_ok h
      cases h
      rw [hu]
      exact ⟨rfl, x, c, v, hx, hu ▸ hv, rfl⟩

theorem both_prefixResult (op : PrefixOp) (h : r.Akin s) :
    Both Result.Akin (prefixResult op r) (prefixResult op s) := by
  by_cases hop : op = .address
  · subst hop
    exact (both_addressOf h.value).map fun _ _ => .bound
  · have hne : (op == .address) = false := by simpa using hop
    refine h.step (fun ha hc => (prefixResult_ok hne ha).1 ▸ hc) fun a b ha hb => ?_
    obtain ⟨hca, x, c, v, hx, hv, hva⟩ := prefixResult_ok hne ha
    obtain ⟨hcb, y, d, w, hy, hw, hvb⟩ := prefixResult_ok hne hb
    cases class_of_akin h.value hx hy
    have htyped := Constant.typed_prefixValue (isOf_constant? hx) hv
    have htyped' := Constant.typed_prefixValue (isOf_constant? hy) hw
    refine ⟨by rw [hca, hcb, h.constant], ?_⟩
    rw [hva, hvb]
    exact .value (htyped.akin htyped')

theorem infixResult_ok {a : Result} (h : infixResult op l r = .ok a) :
    a.constant = (l.constant && r.constant) ∧
      ((∃ x c y d v, constant? l.value = some (x, c) ∧ constant? r.value = some (y, d) ∧
          c.combines d = true ∧ Constant.infixValue op l.value.typeName x c y d = .ok v ∧
          a.value = .value v) ∨
        constant? l.value = none ∧ ∃ b, a.value = .value (.bool b)) := by
  unfold infixResult at h
  dsimp only at h
  split at h
  case h_1 x c y d hl hr =>
    split at h
    case isFalse => cases h
    case isTrue hcd =>
      obtain ⟨v, hv, h⟩ := Compilation.bind_ok h
      cases h
      exact ⟨rfl, .inl ⟨x, c, y, d, v, hl, hr, hcd, hv, rfl⟩⟩
  case h_2 => cases h
  case h_3 hl =>
    split at h
    case isFalse => cases h
    case isTrue =>
      cases h
      exact ⟨rfl, .inr ⟨hl, _, rfl⟩⟩

theorem both_infixResult (op : InfixOp) (hl : l.Akin l') (hr : r.Akin s) :
    Both Result.Akin (infixResult op l r) (infixResult op l' s) := by
  intro a b ha hb
  obtain ⟨hca, hva⟩ := infixResult_ok ha
  obtain ⟨hcb, hvb⟩ := infixResult_ok hb
  refine { constant := ?_, value := ?_, same := fun hc => ?_ }
  · rw [hca, hcb, hl.constant, hr.constant]
  · have hclass := class_constant? hl.value
    obtain ⟨x, c, y, d, v, hx, hy, hcd, hv, hva⟩ | ⟨hx, t, hva⟩ := hva <;>
      obtain ⟨x', c', y', d', w, hx', hy', -, hw, hvb⟩ | ⟨hx', t', hvb⟩ := hvb <;>
      rw [hx, hx'] at hclass <;> rw [hva, hvb]
    · cases class_of_akin hl.value hx hx'
      cases class_of_akin hr.value hy hy'
      have htyped := Constant.typed_infixValue (isOf_constant? hx) (isOf_constant? hy) hcd hv
      have htyped' := Constant.typed_infixValue (isOf_constant? hx') (isOf_constant? hy') hcd hw
      exact .value (htyped.akin htyped')
    · cases hclass
    · cases hclass
    · exact .value (bool_akin t t')
  · rw [hca, Bool.and_eq_true] at hc
    cases hl.eq hc.1
    cases hr.eq hc.2
    cases ha.symm.trans hb
    rfl

structure IsChoice (r : Result) : Prop where
  constant : r.constant = false
  value : ∃ v, r.value = .value v ∧ Constant.Typed .bool v

theorem IsChoice.akin (hr : IsChoice r) (hs : IsChoice s) : r.Akin s := by
  obtain ⟨v, hv, htyped⟩ := hr.value
  obtain ⟨w, hw, htyped'⟩ := hs.value
  refine { constant := by rw [hr.constant, hs.constant], value := ?_, same := fun hc => ?_ }
  · rw [hv, hw]
    exact .value (htyped.akin htyped')
  · rw [hr.constant] at hc
    cases hc

theorem decides_ok (h : decides op l = true) :
    (op = .both ∨ op = .either) ∧ ∃ b, l.value = .value (.bool b) := by
  unfold decides at h
  split at h
  case h_1 b hb =>
    cases op with
    | both => exact ⟨.inl rfl, b, hb⟩
    | either => exact ⟨.inr rfl, b, hb⟩
    | _ => simp at h
  case h_2 => cases h

-- When the left operand decides in one of two evaluations only, it is not constant.
theorem isChoice_of_decides {a : Result} (hl : l.constant = false) (hl' : l'.constant = false)
    (hclass : (constant? l.value).map (·.2) = (constant? l'.value).map (·.2))
    (hd : decides op l = true) (ha : infixResult op l' r = .ok a) : IsChoice l ∧ IsChoice a := by
  obtain ⟨hop, t, hl⟩ := decides_ok hd
  obtain ⟨hc, hva⟩ := infixResult_ok ha
  refine ⟨⟨‹_›, .bool t, hl, rfl, rfl⟩, by rw [hc, hl', Bool.false_and], ?_⟩
  obtain ⟨x, c, y, d, v, hx, hy, hcd, hv, hva⟩ | ⟨-, t, hva⟩ := hva
  · have hbool : c = .bool := by
      rw [hl, hx] at hclass
      exact (Option.some.inj hclass).symm
    subst hbool
    have htyped := Constant.typed_infixValue (isOf_constant? hx) (isOf_constant? hy) hcd hv
    have hresult : Constant.resultClass op .bool d = .bool := by
      cases d <;> cases hcd
      obtain rfl | rfl := hop <;> rfl
    exact ⟨v, hva, hresult ▸ htyped⟩
  · exact ⟨.bool t, hva, rfl, rfl⟩

theorem both_infixed (op : InfixOp) (hl : l.Akin l') {x y : Except EvalError Result}
    (hxy : Both Result.Akin x y) :
    Both Result.Akin (if decides op l then pure l else x >>= infixResult op l)
      (if decides op l' then pure l' else y >>= infixResult op l') := by
  have hclass := class_constant? hl.value
  have hbound : decides op l ≠ decides op l' → l.constant = false := by
    intro hne
    cases hc : l.constant with
    | false => rfl
    | true => exact absurd (congrArg (decides op) (hl.eq hc)) hne
  cases hd : decides op l <;> cases hd' : decides op l' <;> rw [hd, hd'] at hbound
  case false.false => exact hxy.bind fun _ _ => both_infixResult op hl
  case true.true => exact Both.ok hl
  case true.false =>
    have hconst := hbound (by decide)
    intro a b ha hb
    cases ha
    obtain ⟨r, -, hb⟩ := Compilation.bind_ok hb
    have h := isChoice_of_decides hconst (hl.constant ▸ hconst) hclass hd hb
    exact h.1.akin h.2
  case false.true =>
    have hconst := hbound (by decide)
    intro a b ha hb
    cases hb
    obtain ⟨r, -, ha⟩ := Compilation.bind_ok ha
    have h := isChoice_of_decides (hl.constant ▸ hconst) hconst hclass.symm hd' ha
    exact h.2.akin h.1

end Steps

def rebind (sc : Scope) (env : List (String × Host)) : Scope := { sc with env }

end Scope

-- The same names bound to values of one form, as all values of one basic type are.
def SameTypes (env env' : List (String × Host)) : Prop :=
  ∀ name, Option.Rel Host.Akin (env.lookup name) (env'.lookup name)

-- A handler whose expressions have a form that the forms of receiver and arguments tell.
def IsUniformHandler (handler : MethodHandler) : Prop :=
  ∀ r r' args args', r.form = r'.form → args.map Expr.form = args'.map Expr.form →
    Both (·.form = ·.form) (handler r args) (handler r' args')

-- A converter whose host makes no difference between values of one form.
structure Converter.IsUniform (c : Converter) : Prop where
  funcs : ∀ p ∈ c.funcs, p.2.Akin p.2
  methods : ∀ m ∈ c.world.methods, m.IsUniform
  handlers : ∀ t name handler, c.handlers.methods.find? t name = some handler →
    IsUniformHandler handler

-- Nodes whose result is one of several values, which one depending on values.
def Node.isPick : Node → Bool
  | .call _ fn _ =>
    match Scope.specialCall? fn with
    | some .firstNonZero => true
    | _ => false
  | .index .. => true
  | _ => false

namespace Scope

variable {sc : Scope} {env : List (String × Host)}
variable {fn : Node} {name : String}

theorem isBound_rebind (henv : SameTypes sc.env env) (name : String) :
    (sc.rebind env).isBound name = sc.isBound name := by
  have h := henv name
  unfold isBound rebind
  revert h
  cases sc.env.lookup name <;> cases env.lookup name <;> intro h <;> cases h <;> rfl

theorem mem_of_lookup {α : Type} {l : List (String × α)} {a : α} (h : l.lookup name = some a) :
    ∃ p ∈ l, p.2 = a := by
  induction l with
  | nil => cases h
  | cons p l ih =>
    obtain ⟨k, b⟩ := p
    rw [List.lookup_cons] at h
    split at h
    · cases h
      exact ⟨_, List.mem_cons_self, rfl⟩
    · obtain ⟨p, hp, rfl⟩ := ih h
      exact ⟨p, List.mem_cons_of_mem _ hp, rfl⟩

theorem packageMember?_rebind (henv : SameTypes sc.env env) (x : Node) (name : String) :
    (sc.rebind env).packageMember? x name = sc.packageMember? x name := by
  unfold packageMember?
  split
  · rw [isBound_rebind henv]
    rfl
  · rfl

section Evaluation

variable (huniform : sc.toConverter.IsUniform) (henv : SameTypes sc.env env)

include huniform

theorem funcs_akin (hh : sc.funcs.lookup name = some h) : h.Akin h := by
  obtain ⟨p, hp, rfl⟩ := mem_of_lookup hh
  exact huniform.funcs p hp

theorem packageMember?_akin {x : Node} (hh : sc.packageMember? x name = some h) : h.Akin h := by
  unfold packageMember? at hh
  split at hh
  case h_2 => cases hh
  case h_1 =>
    split at hh
    case isTrue => cases hh
    case isFalse =>
      obtain hh | ⟨-, hh⟩ := Option.or_eq_some_iff.mp hh
      · exact funcs_akin huniform hh
      · obtain ⟨f, hf, rfl⟩ := Option.map_eq_some_iff.mp hh
        obtain ⟨p, hp, rfl⟩ := mem_of_lookup hf
        exact .func (functions_akin _ p hp)

include henv

theorem both_evalIdent (name : String) :
    Both Result.Akin (sc.evalIdent name) ((sc.rebind env).evalIdent name) := by
  unfold evalIdent
  split
  case h_1 | h_2 | h_3 => exact Both.ok (.literal _ true)
  case h_4 =>
    have h := henv name
    revert h
    simp only [rebind]
    cases sc.env.lookup name <;> cases env.lookup name <;> intro h <;> cases h
    case none.none.none =>
      cases hf : sc.funcs.lookup name with
      | none => exact Both.error_left
      | some h => exact Both.ok (.bound (funcs_akin huniform hf))
    case some.some.some h => exact Both.ok (.bound h)

omit huniform henv

theorem both_asFunction {count : Nat} (hgh : g.Akin h) :
    Both HostFunction.Akin (sc.asFunction fn count g) ((sc.rebind env).asFunction fn count h) := by
  cases hgh with
  | func h =>
    simp only [asFunction]
    split
    case isFalse => exact Both.error_left
    case isTrue =>
      split
      case isFalse => exact Both.error_right
      case isTrue => exact Both.ok h
  | value | expr => exact Both.error_left

theorem both_assignArg {f g : HostFunction} (hfg : f.Akin g) (i : Nat) {h' : Host}
    (hh : h.Akin h') :
    Both Operand.Akin (sc.assignArg fn f i h) ((sc.rebind env).assignArg fn g i h') := by
  have hparam : f.paramAt i = g.paramAt i := by
    simp only [HostFunction.paramAt, hfg.params, hfg.variadic]
  have hassign := hh.assign sc.world (f.paramAt i)
  intro a b ha hb
  unfold assignArg at ha hb
  rw [← hparam] at hb
  split at ha <;> cases ha
  split at hb <;> cases hb
  exact hassign a b ‹_› ‹_›

theorem both_finish {f g : HostFunction} (hfg : f.Akin g) {args args' : List Operand}
    (hargs : List.Forall₂ Operand.Akin args args') :
    Both Result.Akin (sc.finish fn f args) ((sc.rebind env).finish fn g args') := by
  intro a b ha hb
  obtain ⟨o, ho, ha⟩ := Compilation.bind_ok ha
  obtain ⟨o', ho', hb⟩ := Compilation.bind_ok hb
  cases o with
  | none => cases ha
  | some out =>
    cases o' with
    | none => cases hb
    | some out' =>
      cases ha
      cases hb
      exact .bound (.ofOperand (hfg.run hargs ho ho'))

theorem eval_first {enclosed : Bool} {s : Span} {args : List Node}
    (h : specialCall? fn = some .firstNonZero) :
    sc.eval enclosed (.call s fn args) = sc.evalFirst ⟨.null, false⟩ args := by
  rw [eval.eq_def]
  simp only [h]

variable {args : List Node}
  (hargs : ∀ a ∈ args, Both Result.Akin (sc.eval false a) ((sc.rebind env).eval false a))

include hargs

theorem both_evalArgs {f g : HostFunction} (hfg : f.Akin g) (i : Nat) :
    Both (List.Forall₂ Operand.Akin) (sc.evalArgs fn f i args)
      ((sc.rebind env).evalArgs fn g i args) := by
  induction args generalizing i with
  | nil => exact Both.ok .nil
  | cons a rest ih =>
    obtain ⟨ha, hrest⟩ := List.forall_mem_cons.mp hargs
    rw [evalArgs, evalArgs]
    refine ha.bind fun r s hrs => (both_assignArg hfg i hrs.value).bind fun v w hvw => ?_
    exact (ih hrest (i + 1)).bind fun _ _ h => Both.ok (.cons hvw h)

theorem both_evalFirst {last last' : Result} (hlast : last.Akin last') :
    Both (fun r s => r.constant = true → s.constant = true → r.value = s.value)
      (sc.evalFirst last args) ((sc.rebind env).evalFirst last' args) := by
  induction args generalizing last last' with
  | nil => exact Both.ok fun hc _ => hlast.same hc
  | cons a rest ih =>
    obtain ⟨ha, hrest⟩ := List.forall_mem_cons.mp hargs
    rw [evalFirst, evalFirst]
    refine ha.bind fun r s hrs => ?_
    cases hr : r.value.isZero <;> cases hs : s.value.isZero
    case false.false => exact Both.ok fun hc _ => hrs.same hc
    case true.true => exact ih hrest hrs
    -- Where only one of the evaluations goes on, the value that it leaves behind is not constant.
    case false.true =>
      intro a b ha _ hc
      cases ha
      rw [hrs.same hc, hs] at hr
      cases hr
    case true.false =>
      intro a b _ hb _ hc
      cases hb
      rw [hrs.same (hrs.constant.trans hc), hs] at hr
      cases hr

omit hargs

-- The nodes inside `n` that pick a value pick one of the same form in both evaluations.
def PicksAgree (sc : Scope) (env : List (String × Host)) (n : Node) : Prop :=
  ∀ m ∈ n.nodes, m.isPick = true →
    Both Result.SameForm (sc.eval false m) ((sc.rebind env).eval false m)

theorem PicksAgree.part {n m : Node} (h : sc.PicksAgree env n) (hm : m ∈ n.parts) :
    sc.PicksAgree env m :=
  fun x hx => h x (Node.nodes_subset hm x hx)

theorem both_eval_call {s : Span} (enclosed : Bool) (hpick : (Node.call s fn args).isPick = true →
      Both Result.SameForm (sc.eval false (.call s fn args))
        ((sc.rebind env).eval false (.call s fn args)))
    (hfn : Both Result.Akin (sc.eval false fn) ((sc.rebind env).eval false fn))
    (hargs : ∀ a ∈ args, Both Result.Akin (sc.eval false a) ((sc.rebind env).eval false a)) :
    Both Result.Akin (sc.eval enclosed (.call s fn args))
      ((sc.rebind env).eval enclosed (.call s fn args)) := by
  cases hspecial : specialCall? fn with
  | none =>
    rw [eval_call hspecial, eval_call hspecial]
    refine hfn.bind fun r r' hr => (both_asFunction hr.value).bind fun f g hfg => ?_
    exact (both_evalArgs hargs hfg 0).bind fun _ _ => both_finish hfg
  | some special =>
    cases special with
    | firstNonZero =>
      have hform := hpick (by rw [Node.isPick, hspecial])
      rw [eval_first hspecial, eval_first hspecial] at hform ⊢
      intro a b ha hb
      have hab := hform a b ha hb
      refine { toSameForm := hab, same := fun hc => ?_ }
      exact both_evalFirst hargs (.literal .null false) a b ha hb hc (hab.constant ▸ hc)
    | length =>
      rw [eval.eq_def sc, eval.eq_def (sc.rebind env)]
      simp only [hspecial]
      obtain _ | ⟨a, _ | ⟨b, rest⟩⟩ := args
      · exact Both.error_left
      · exact (hargs a List.mem_cons_self).bind fun _ _ => both_length
      · exact Both.error_left
    | conversion t =>
      rw [eval.eq_def sc, eval.eq_def (sc.rebind env)]
      simp only [hspecial]
      obtain _ | ⟨a, _ | ⟨b, rest⟩⟩ := args
      · exact Both.error_left
      · exact (hargs a List.mem_cons_self).bind fun _ _ => both_converted t
      · exact Both.error_left

include huniform henv

-- Two evaluations of one source with variables of one form.
theorem both_eval (n : Node) (hpicks : sc.PicksAgree env n) (enclosed : Bool) :
    Both Result.Akin (sc.eval enclosed n) ((sc.rebind env).eval enclosed n) := by
  induction n using Node.ofParts generalizing enclosed with
  | step n ih =>
    have hpart : ∀ m ∈ n.parts, ∀ enclosed,
        Both Result.Akin (sc.eval enclosed m) ((sc.rebind env).eval enclosed m) :=
      fun m hm => ih m hm (hpicks.part hm)
    cases n with
    | paren _ x =>
      rw [eval, eval]
      exact hpart x List.mem_cons_self true
    | literal s v =>
      rw [eval, eval]
      exact (Both.same (R := Eq) fun _ => rfl).bind fun _ _ h => h ▸ Both.ok (.literal _ true)
    | ident _ name =>
      rw [eval, eval]
      exact both_evalIdent huniform henv name
    | selector _ x name =>
      rw [eval, eval, packageMember?_rebind henv]
      cases hm : sc.packageMember? x name with
      | some h => exact Both.ok (.bound (packageMember?_akin huniform hm))
      | none =>
        refine (hpart x List.mem_cons_self false).bind fun r r' hr => ?_
        exact (hr.value.member huniform.methods name).bind fun _ _ h => Both.ok (.bound h)
    | call s fn args =>
      exact both_eval_call enclosed (hpicks _ (Node.mem_nodes_self _))
        (hpart fn List.mem_cons_self false) fun a ha => hpart a (List.mem_cons_of_mem _ ha) false
    | prefixed _ op x =>
      rw [eval, eval]
      exact (hpart x List.mem_cons_self false).bind fun _ _ => both_prefixResult op
    | infixed _ op x y =>
      rw [eval, eval]
      refine (hpart x List.mem_cons_self false).bind fun _ _ hl => both_infixed op hl ?_
      exact hpart y (List.mem_cons_of_mem _ List.mem_cons_self) false
    | index s x key =>
      have hform := hpicks _ (Node.mem_nodes_self _) rfl
      rw [eval, eval] at hform ⊢
      intro a b ha hb
      refine { toSameForm := hform a b ha hb, same := fun hc => ?_ }
      obtain ⟨r, -, ha⟩ := Compilation.bind_ok ha
      obtain ⟨k, -, ha⟩ := Compilation.bind_ok ha
      obtain ⟨v, -, ha⟩ := Compilation.bind_ok ha
      cases ha
      cases hc
    | star _ x =>
      rw [eval, eval]
      refine (hpart x List.mem_cons_self false).bind fun r r' hr => ?_
      exact (both_dereference hr.value).bind fun _ _ h => Both.ok (.bound h)
    | composite s type items =>
      obtain _ | t := type
      case none => exact Both.error_left
      cases t with
      | arrayType t size elem =>
        rw [eval, eval]
        intro a b ha hb
        obtain ⟨vs, -, ha⟩ := Compilation.bind_ok ha
        obtain ⟨ws, -, hb⟩ := Compilation.bind_ok hb
        cases ha
        cases hb
        exact .bound (.value (.simple rfl rfl rfl))
      | _ => exact Both.error_left
    | pair | lambda | arrayType | other => exact Both.error_left

end Evaluation

end Scope

end QueryTree.Lambda
