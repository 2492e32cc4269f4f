import QueryTree.Proofs.Sql.Outcome
import QueryTree.Proofs.Sql.Reading

namespace QueryTree

namespace Sql

@[simp] theorem places_nil : places [] = [] := rfl

@[simp] theorem places_append (s r : Sql) : places (s ++ r) = places s ++ places r := by
  simp [places]

@[simp] theorem places_text (t : String) (s : Sql) : places (.text t :: s) = places s := rfl

@[simp] theorem places_joined (sep : String) (ss : List Sql) :
    places (joined sep ss) = ss.flatMap places := by
  induction ss with
  | nil => rfl
  | cons s rest ih =>
    cases rest with
    | nil => simp [joined]
    | cons r rest => simp only [joined, places_append, places_text, ih, List.flatMap_cons]

@[simp] theorem places_enclosed (s : Sql) : places (enclosed s) = places s := by
  simp [enclosed]

theorem places_eq_nil_of_isBlank {s : Sql} (h : s.isBlank = true) : s.places = [] := by
  simp only [places, List.filterMap_eq_nil_iff]
  intro t ht
  have hblank := List.all_eq_true.mp h t ht
  cases t <;> first | rfl | simp [Token.isBlank] at hblank

theorem isClean_text (t : String) (s : Sql) :
    isClean (.text t :: s) = (Text.allPlain t && isClean s) := by
  simp [isClean, Token.isPlain, Token.isOpenEnded]

-- A text that may follow any token.
def isInfix (t : String) : Bool := Text.allPlain t && t.toList.head?.any isSeparator

theorem isInfix_spaced {kw : String} (h : Text.allPlain kw = true) :
    isInfix (" " ++ kw ++ " ") = true := by
  have hchars : (" " ++ kw ++ " ").toList = ' ' :: (kw.toList ++ [' ']) := by simp
  rw [isInfix, hchars, Text.allPlain_append, Text.allPlain_append, h]
  simp only [List.head?_cons]
  decide

theorem isClean_infix {s r : Sql} {t : String} (hs : s.isClean = true) (ht : isInfix t = true)
    (hr : r.isClean = true) : isClean (s ++ .text t :: r) = true := by
  simp only [isInfix, Bool.and_eq_true] at ht
  refine isClean_append hs ?_ ht.2
  rw [isClean_text, ht.1, hr]
  rfl

theorem isClean_enclosed {s : Sql} (hs : s.isClean = true) : isClean (enclosed s) = true := by
  rw [enclosed, List.cons_append, isClean_text]
  have htail := isClean_infix hs (by decide : isInfix ")" = true) (rfl : isClean [] = true)
  rw [htail]
  decide

end Sql

namespace Render

-- The parameters of `out'` are those of `out` and further ones, whose places are `ps`.
def Appends (out : Output) (ps : List Nat) (out' : Output) : Prop :=
  ∃ new : List DriverValue, out'.params.toList = out.params.toList ++ new ∧
    ps = List.range' out.params.size new.length

namespace Appends

variable {out out₁ out₂ : Output} {ps qs : List Nat}

theorem refl (h : out₁.params = out.params) : Appends out [] out₁ :=
  ⟨[], by simp [h], rfl⟩

theorem trans (h₁ : Appends out ps out₁) (h₂ : Appends out₁ qs out₂) :
    Appends out (ps ++ qs) out₂ := by
  obtain ⟨new, hnew, rfl⟩ := h₁
  obtain ⟨more, hmore, rfl⟩ := h₂
  have hsize : out₁.params.size = out.params.size + new.length := by
    rw [← Array.length_toList, hnew]
    simp
  refine ⟨new ++ more, by rw [hmore, hnew, List.append_assoc], ?_⟩
  rw [hsize, List.length_append, List.range'_append_1]

theorem params_eq (h : Appends out [] out₁) : out₁.params = out.params := by
  obtain ⟨new, hnew, hps⟩ := h
  have hlen : new = [] := by simpa using hps
  exact Array.toList_inj.mp (by simpa [hlen] using hnew)

theorem take (h : Appends out ps out₁) : out₁.params.take out.params.size = out.params := by
  obtain ⟨new, hnew, _⟩ := h
  apply Array.toList_inj.mp
  simp [hnew]

end Appends

-- What a rendering from `out` to `out'` has to do with its text.
structure Sound (out : Output) (s : Sql) (out' : Output) : Prop where
  appends : Appends out s.places out'
  clean : s.isClean = true

namespace Sound

variable {out out₁ out₂ : Output} {s r : Sql} {t : String}

theorem still (hplaces : s.places = []) (hclean : s.isClean = true)
    (hparams : out₁.params = out.params) : Sound out s out₁ :=
  ⟨hplaces ▸ .refl hparams, hclean⟩

theorem lead (h : Sound out s out₁) (ht : Text.allPlain t = true) :
    Sound out (.text t :: s) out₁ :=
  ⟨h.appends, by rw [Sql.isClean_text, ht, h.clean]; rfl⟩

theorem table (h : Sound out s out₁) (n : Nat) : Sound out (.table n :: s) out₁ :=
  ⟨h.appends, by simpa [Sql.isClean, Token.isPlain, Token.isOpenEnded] using h.clean⟩

theorem named (h : Sound out s out₁) {n : String} (hs : s.opensApart = true) :
    Sound out (.name n :: s) out₁ :=
  ⟨h.appends, by simpa [Sql.isClean, Token.isPlain, hs] using h.clean⟩

theorem between (h₁ : Sound out s out₁) (ht : Sql.isInfix t = true) (h₂ : Sound out₁ r out₂) :
    Sound out (s ++ .text t :: r) out₂ :=
  ⟨by simpa using h₁.appends.trans h₂.appends, Sql.isClean_infix h₁.clean ht h₂.clean⟩

theorem append (h₁ : Sound out s out₁) (h₂ : Sound out₁ r out₂) (hr : r.opensApart = true) :
    Sound out (s ++ r) out₂ :=
  ⟨by simpa using h₁.appends.trans h₂.appends, Sql.isClean_append h₁.clean h₂.clean hr⟩

theorem enclosed (h : Sound out s out₁) : Sound out (Sql.enclosed s) out₁ :=
  ⟨by simpa using h.appends, Sql.isClean_enclosed h.clean⟩

theorem of_params (h : Sound out₁ s out₂) (hparams : out₁.params = out.params) :
    Sound out s out₂ :=
  ⟨by simpa using (Appends.refl hparams).trans h.appends, h.clean⟩

theorem to_params (h : Sound out s out₁) (hparams : out₂.params = out₁.params) :
    Sound out s out₂ :=
  ⟨by simpa using h.appends.trans (.refl hparams), h.clean⟩

theorem params_eq (h : Sound out s out₁) (hs : s.places = []) : out₁.params = out.params :=
  Appends.params_eq (hs ▸ h.appends)

end Sound

end Render
end QueryTree
