import QueryTree.Proofs.Value.Steady
import QueryTree.Value.Convert

namespace QueryTree.Value

-- Values whose form is their type. What a record or a map holds may be of any type.
def isSimple : Value → Bool
  | .named .. | .map .. | .record .. | .pointer _ | .node .. => false
  | _ => true

inductive Akin : Value → Value → Prop
  | refl (v : Value) : Akin v v
  | simple {v w : Value} (hv : v.isSimple = true) (hw : w.isSimple = true) (ht : v.ty? = w.ty?) :
    Akin v w
  | named (type : String) {v w : Value} (h : Akin v w) : Akin (.named type v) (.named type w)
  | pointer {v w : Value} (h : Akin v w) : Akin (.pointer v) (.pointer w)

namespace Akin

variable {u v w : Value}

theorem symm (h : Akin v w) : Akin w v := by
  induction h with
  | refl v => exact .refl v
  | simple hv hw ht => exact .simple hw hv ht.symm
  | named type _ ih => exact .named type ih
  | pointer _ ih => exact .pointer ih

theorem trans (h : Akin u v) (h' : Akin v w) : Akin u w := by
  induction h generalizing w with
  | refl v => exact h'
  | simple hu hv ht =>
    cases h' with
    | refl => exact .simple hu hv ht
    | simple _ hw ht' => exact .simple hu hw (ht.trans ht')
    | named | pointer => cases hv
  | named type h ih =>
    cases h' with
    | refl => exact .named type h
    | simple hv => cases hv
    | named _ h' => exact .named type (ih h')
  | pointer h ih =>
    cases h' with
    | refl => exact .pointer h
    | simple hv => cases hv
    | pointer h' => exact .pointer (ih h')

theorem isText (h : Akin v w) : v.isText = w.isText := by
  have hsimple : ∀ {x : Value}, x.isSimple = true → x.isText = x.ty?.any Ty.isText := by
    intro x hx
    cases x with
    | named => cases hx
    | _ => rfl
  induction h with
  | refl v => rfl
  | simple hv hw ht => rw [hsimple hv, hsimple hw, ht]
  | named type _ ih => exact ih
  | pointer => rfl

theorem ty? (h : Akin v w) : v.ty? = w.ty? := by
  induction h with
  | refl v => rfl
  | simple _ _ ht => exact ht
  | named type h _ => exact congrArg (fun b => some (Ty.named type b)) h.isText
  | pointer _ ih => exact congrArg (fun t => some (Ty.pointer (t.getD .any))) ih

theorem under (h : Akin v w) : Akin v.under w.under := by
  induction h with
  | refl v => exact .refl v.under
  | @simple v w hv hw ht =>
    have hplain : ∀ {x : Value}, x.isSimple = true → x.under = x := by
      intro x hx
      cases x with
      | named => cases hx
      | _ => rfl
    rw [hplain hv, hplain hw]
    exact .simple hv hw ht
  | named type _ ih => exact ih
  | pointer h _ => exact .pointer h

end Akin

theorem isNull_eq (v : Value) : v.isNull = v.ty?.isNone := by
  cases v <;> rfl

theorem Akin.isNull {v w : Value} (h : Akin v w) : v.isNull = w.isNull := by
  rw [isNull_eq, isNull_eq, h.ty?]

-- A test that only looks at the type of simple values and below declared types.
theorem Akin.test {β : Type} {f : Value → β} {g : Option Ty → β}
    (hunder : ∀ n v, f (.named n v) = f v) (hf : ∀ v, v.isSimple = true → f v = g v.ty?)
    (hpointer : ∀ v w, f (.pointer v) = f (.pointer w)) {v w : Value} (h : Akin v w) :
    f v = f w := by
  induction h with
  | refl v => rfl
  | simple hv hw ht => rw [hf _ hv, hf _ hw, ht]
  | named type _ ih => rw [hunder, hunder, ih]
  | @pointer v w _ _ => exact hpointer v w

def typeHasItems : Option Ty → Bool
  | some (.list _) | some (.array ..) => true
  | some (.named n _) => n == "uuid.UUID"
  | _ => false

theorem Akin.items?_isSome {v w : Value} (h : Akin v w) :
    v.items?.isSome = w.items?.isSome := by
  refine Akin.test (f := fun v => v.items?.isSome) (g := typeHasItems) (fun _ _ => rfl) ?_
    (fun _ _ => rfl) h
  intro x hx
  cases x with
  | named | map | record | pointer | node => cases hx
  | _ => rfl

theorem Akin.isSimple {v w : Value} (h : Akin v w) : v.isSimple = w.isSimple := by
  cases h with
  | refl => rfl
  | simple hv hw _ => rw [hv, hw]
  | named | pointer => rfl

theorem ofOctets_form (bs : List UInt8) :
    (ofOctets bs).isSimple = true ∧ (ofOctets bs).ty? = some .text := by
  unfold ofOctets
  split <;> exact ⟨rfl, rfl⟩

theorem type_of_beq {t u : Option Ty} (h : (t == u) = true) : t = u := by
  cases t <;> cases u
  case none.none => rfl
  case some.some t u => exact congrArg some (Ty.beq_iff.mp h)
  all_goals cases h

theorem reshape?_some {v a : Value} {t : Ty} (h : v.reshape? t = some a) :
    a.ty? = some t ∧ (a = v.under ∨ v.under.isSimple = true ∧ a.isSimple = true) := by
  unfold reshape? at h
  split at h
  case h_9 vs hv =>
    cases h
    have hform := ofOctets_form (octetItems vs)
    rw [hv]
    exact ⟨hform.2, .inr ⟨rfl, hform.1⟩⟩
  case h_16 =>
    split at h
    case isTrue ht =>
      cases h
      exact ⟨type_of_beq ht, .inl rfl⟩
    case isFalse => cases h
  all_goals
    cases h
    rename_i hv
    rw [hv]
    exact ⟨rfl, .inr ⟨rfl, rfl⟩⟩

theorem Akin.reshape? {v w a b : Value} {t : Ty} (h : Akin v w) (ha : v.reshape? t = some a)
    (hb : w.reshape? t = some b) : Akin a b := by
  obtain ⟨hta, ha⟩ := reshape?_some ha
  obtain ⟨htb, hb⟩ := reshape?_some hb
  have hsimple := h.under.isSimple
  obtain rfl | ⟨hva, ha⟩ := ha
  · obtain rfl | ⟨hwb, hb⟩ := hb
    · exact h.under
    · exact .simple (hsimple.trans hwb) hb (hta.trans htb.symm)
  · obtain rfl | ⟨-, hb⟩ := hb
    · exact .simple ha (hsimple ▸ hva) (hta.trans htb.symm)
    · exact .simple ha hb (hta.trans htb.symm)

theorem Akin.convert? {ts : Types} {v w a b : Value} {t : Ty} (h : Akin v w)
    (ha : v.convert? ts t = some a) (hb : w.convert? ts t = some b) : Akin a b := by
  unfold Value.convert? at ha hb
  rw [← h.isNull, ← h.ty?] at hb
  split at ha
  case isTrue => cases ha
  case isFalse hnull =>
    rw [if_neg hnull] at hb
    split at ha
    case isTrue hsame =>
      rw [if_pos hsame] at hb
      cases ha
      cases hb
      exact h
    case isFalse hsame =>
      rw [if_neg hsame] at hb
      cases t with
      | named n b =>
        obtain ⟨a', ha', rfl⟩ := Option.map_eq_some_iff.mp ha
        obtain ⟨b', hb', rfl⟩ := Option.map_eq_some_iff.mp hb
        exact .named n (h.reshape? ha' hb')
      | _ => exact h.reshape? ha hb

theorem Akin.assign? {ts : Types} {v w a b : Value} {t : Ty} (h : Akin v w)
    (ha : v.assign? ts t = some a) (hb : w.assign? ts t = some b) : Akin a b := by
  unfold Value.assign? at ha hb
  rw [← h.isNull, ← h.ty?] at hb
  split at ha
  case isTrue hnull =>
    rw [if_pos hnull] at hb
    cases ha
    cases hb
    exact .refl _
  case isFalse hnull =>
    rw [if_neg hnull] at hb
    split at ha
    case isTrue hsame =>
      rw [if_pos hsame] at hb
      cases ha
      cases hb
      exact h
    case isFalse hsame =>
      rw [if_neg hsame] at hb
      split at ha
      case isTrue => cases ha
      case isFalse =>
        split at hb
        case isTrue => cases hb
        case isFalse => exact h.convert? ha hb

end QueryTree.Value
