import QueryTree.Codec.Decode
import QueryTree.Proofs.Json.Reading
import QueryTree.Proofs.Value.Read

namespace QueryTree

namespace Json

inductive Step where
  | member (key : String)
  | item (i : Nat)
deriving DecidableEq

-- Where a step leads. Of repeated members the last one counts.
def follow? : Json → Step → Option Json
  | .object ms, .member key => last? ms key
  | .array js, .item i => js[i]?
  | _, _ => none

def resolve? (j : Json) : List Step → Option Json
  | [] => some j
  | s :: steps => (j.follow? s).bind (resolve? · steps)

theorem resolve?_append (j : Json) (steps more : List Step) :
    j.resolve? (steps ++ more) = (j.resolve? steps).bind (·.resolve? more) := by
  induction steps generalizing j with
  | nil => rfl
  | cons s steps ih =>
    rw [List.cons_append, resolve?, resolve?, Option.bind_assoc]
    simp only [ih]

end Json

namespace Codec

open Json (Step)

section Paths

def after (path : String) : Step → String
  | .member key => child path key
  | .item i => index path i

def pathOf (path : String) (steps : List Step) : String := steps.foldl after path

def opensStep (c : Char) : Bool := c == '.' || c == '['

-- Steps that can be told apart in the text of a path.
def isPlain : Step → Bool
  | .member key => !key.toList.any opensStep
  | .item _ => true

abbrev IsKey (key : String) : Prop := isPlain (.member key) = true

end Paths

section Readings

def missing : String := "missing"

-- The error is about a place below `path`, where the document `j` stands: about the value at that
-- place, or about a member that the object there lacks.
inductive Located (path : String) (j : Json) : Error → Prop
  | value (steps : List Step) (reason : String) (hplain : ∀ s ∈ steps, isPlain s = true)
      (hvalue : (j.resolve? steps).isSome = true) (hreason : reason ≠ missing) :
      Located path j (.decode (pathOf path steps) reason)
  | refused (steps : List Step) (cause : Error) (hplain : ∀ s ∈ steps, isPlain s = true)
      (hvalue : (j.resolve? steps).isSome = true) :
      Located path j (.decodeCause (pathOf path steps) cause)
  | absent (steps : List Step) (key : String) (ms : Members)
      (hplain : ∀ s ∈ steps ++ [.member key], isPlain s = true)
      (hobject : j.resolve? steps = some (.object ms)) (hkey : present? ms key = none) :
      Located path j (.decode (pathOf path (steps ++ [.member key])) missing)

-- A reading at a place: its errors are located there, and what it gives is as it should be.
structure Reads {α : Type} (path : String) (j : Json) (P : α → Prop) (x : Except Error α) :
    Prop where
  located : ∀ e, x = .error e → Located path j e
  holds : ∀ a, x = .ok a → P a

variable {α β : Type} {path key : String} {j v : Json} {P : α → Prop} {x : Except Error α}

theorem Located.below {s : Step} {e : Error} (hs : isPlain s = true) (hv : j.follow? s = some v)
    (h : Located (after path s) v e) : Located path j e := by
  have hbelow : ∀ steps, j.resolve? (s :: steps) = v.resolve? steps := by
    intro steps
    rw [Json.resolve?, hv, Option.bind_some]
  cases h with
  | value steps reason hplain hvalue hreason =>
    exact .value (s :: steps) reason (List.forall_mem_cons.mpr ⟨hs, hplain⟩)
      (by rw [hbelow]; exact hvalue) hreason
  | refused steps cause hplain hvalue =>
    exact .refused (s :: steps) cause (List.forall_mem_cons.mpr ⟨hs, hplain⟩)
      (by rw [hbelow]; exact hvalue)
  | absent steps key ms hplain hobject hkey =>
    exact .absent (s :: steps) key ms (List.forall_mem_cons.mpr ⟨hs, hplain⟩)
      (by rw [hbelow]; exact hobject) hkey

theorem Reads.ok {a : α} (h : P a) : Reads path j P (.ok a) := by
  refine ⟨fun e he => (nomatch he), fun b hb => ?_⟩
  cases hb
  exact h

theorem Reads.bind {Q : β → Prop} {f : α → Except Error β} (hx : Reads path j P x)
    (hf : ∀ a, P a → Reads path j Q (f a)) : Reads path j Q (x >>= f) := by
  cases x with
  | error e =>
    refine ⟨fun e' he => ?_, fun _ ha => nomatch ha⟩
    cases he
    exact hx.located e rfl
  | ok a => exact hf a (hx.holds a rfl)

theorem Reads.map {Q : β → Prop} {f : α → β} (hx : Reads path j P x) (hf : ∀ a, P a → Q (f a)) :
    Reads path j Q (x >>= fun a => pure (f a)) :=
  hx.bind fun a ha => .ok (hf a ha)

theorem Reads.below {s : Step} (hs : isPlain s = true) (hv : j.follow? s = some v)
    (h : Reads (after path s) v P x) : Reads path j P x :=
  ⟨fun e he => (h.located e he).below hs hv, h.holds⟩

theorem Reads.inItem {all : List Json} {i : Nat} (hj : all[i]? = some j)
    (h : Reads (index path i) j P x) : Reads path (.array all) P x :=
  Reads.below (s := .item i) rfl hj h

theorem reads_fail {reason : String} (hreason : reason ≠ missing) :
    Reads path j P (fail path reason) := by
  refine ⟨fun e he => ?_, fun _ ha => nomatch ha⟩
  cases he
  exact .value [] reason (by simp) rfl hreason

theorem reads_refused {r : Except Error α} (h : ∀ a, r = .ok a → P a) :
    Reads path j P (refused path r) := by
  cases r with
  | ok a => exact .ok (h a rfl)
  | error cause =>
    refine ⟨fun e he => ?_, fun _ ha => nomatch ha⟩
    cases he
    exact .refused [] cause (by simp) rfl

-- Reasons that are put together are longer than the one for a missing member.
theorem reason_ne_missing {front rest : String}
    (h : missing.length < front.length ∨ missing.length < rest.length) :
    front ++ rest ≠ missing := by
  intro heq
  have hlength := congrArg String.length heq
  rw [String.length_append] at hlength
  omega

end Readings

section Members

variable {α : Type} {path key : String} {v : Json} {ms : Members} {P : α → Prop}
  {x : Except Error α}

theorem last?_of_present? (h : present? ms key = some v) : Json.last? ms key = some v := by
  unfold present? at h
  split at h
  · cases h
  · cases h
  · next w _ hw => rw [hw, ← h]

theorem Reads.inMember (hkey : IsKey key) (hv : Json.last? ms key = some v)
    (h : Reads (child path key) v P x) : Reads path (.object ms) P x :=
  Reads.below (s := .member key) hkey hv h

theorem reads_missing (hkey : IsKey key) (h : present? ms key = none) :
    Reads path (.object ms) P (fail (child path key) "missing") := by
  refine ⟨fun e he => ?_, fun _ ha => nomatch ha⟩
  cases he
  exact .absent [] key ms (by simpa using hkey) rfl h

theorem reads_unfit (hkey : IsKey key) {reason : String} (hreason : reason ≠ missing)
    (hv : Json.last? ms key = some v) :
    Reads path (.object ms) P (fail (child path key) reason) :=
  (reads_fail hreason).inMember hkey hv

theorem reads_requiredText (hkey : IsKey key) :
    Reads path (.object ms) (fun t => Json.last? ms key = some (.string t))
      (requiredText path ms key) := by
  unfold requiredText
  split
  · next h => exact reads_missing hkey h
  · next h => exact .ok (last?_of_present? h)
  · next h => exact reads_unfit hkey (by decide) (last?_of_present? h)

theorem reads_optionalText (hkey : IsKey key) :
    Reads path (.object ms) (fun t => t.isEmpty = false → Json.last? ms key = some (.string t))
      (optionalText path ms key) := by
  unfold optionalText
  split
  · exact .ok fun h => nomatch h
  · next h => exact .ok fun _ => last?_of_present? h
  · next h => exact reads_unfit hkey (by decide) (last?_of_present? h)

theorem reads_flag (hkey : IsKey key) :
    Reads path (.object ms) (fun _ => True) (flag path ms key) := by
  unfold flag
  split
  · exact .ok trivial
  · exact .ok trivial
  · next h => exact reads_unfit hkey (by decide) (last?_of_present? h)

-- A number other than the one that stands for none was given.
theorem reads_number (hkey : IsKey key) {default : Int}
    (hdefault : Number.isInt64 default = true) :
    Reads path (.object ms)
      (fun n => Number.isInt64 n = true ∧ (n ≠ default → ∃ v, Json.last? ms key = some v))
      (number path ms key default) := by
  unfold number
  split
  · exact .ok ⟨hdefault, fun h => absurd rfl h⟩
  · next h =>
    split
    · next hn => exact .ok ⟨Value.isInt64_of_readInt64 hn, fun _ => ⟨_, last?_of_present? h⟩⟩
    · exact reads_unfit hkey (by decide) (last?_of_present? h)
  · next h => exact reads_unfit hkey (by decide) (last?_of_present? h)

theorem reads_items (hkey : IsKey key) :
    Reads path (.object ms) (fun js => js = [] ∨ Json.last? ms key = some (.array js))
      (items path ms key) := by
  unfold items
  split
  · exact .ok (.inl rfl)
  · exact .ok (.inl rfl)
  · next h => exact .ok (.inr h)
  · next h => exact reads_unfit hkey (by decide) h

theorem reads_itemsError (hkey : IsKey key) {e : Error} (h : items path ms key = .error e) :
    Reads path (.object ms) P (.error e) := by
  refine ⟨fun e' he => ?_, fun _ ha => nomatch ha⟩
  cases he
  exact (reads_items hkey).located e h

-- What is read from the items of a member is read inside it; from no items nothing goes wrong.
theorem Reads.inItems {js : List Json} (hkey : IsKey key)
    (hjs : js = [] ∨ Json.last? ms key = some (.array js)) (hempty : js = [] → ∃ a, x = .ok a)
    (h : Reads (child path key) (.array js) P x) : Reads path (.object ms) P x := by
  obtain hnil | hlast := hjs
  · obtain ⟨a, ha⟩ := hempty hnil
    exact ha ▸ .ok (h.holds a ha)
  · exact h.inMember hkey hlast

end Members

section Lists

variable {path : String} {all js : List Json} {i : Nat}

theorem drop_cons {α : Type} {l rest : List α} {a : α} {i : Nat} (h : l.drop i = a :: rest) :
    l[i]? = some a ∧ l.drop (i + 1) = rest := by
  rw [← List.head?_drop, ← List.tail_drop, h]
  exact ⟨rfl, rfl⟩

theorem reads_texts (hjs : all.drop i = js) :
    Reads path (.array all) (fun _ => True) (texts path i js) := by
  induction js generalizing i with
  | nil => exact .ok trivial
  | cons j js ih =>
    obtain ⟨hj, hrest⟩ := drop_cons hjs
    cases j with
    | string s => exact (ih hrest).map fun _ _ => trivial
    | _ => exact (reads_fail (by decide)).inItem hj

theorem reads_logicAt {j : Json} (e : Expr) :
    Reads path j (fun e' => e' = e ∧ e.isLogic = true) (logicAt path e) := by
  unfold logicAt
  split
  · next h => exact .ok ⟨rfl, h⟩
  · exact reads_fail (reason_ne_missing (.inr (by decide)))

theorem reads_isLogic {j : Json} (e : Expr) :
    Reads path j (fun _ => e.isLogic = true) (discard (logicAt path e)) :=
  (reads_logicAt e).bind fun _ he => .ok he.2

-- Each decoded item has an item of the document at its place.
theorem reads_checkLogic {es : List Expr} (h : i + es.length ≤ all.length) :
    Reads path (.array all) (fun _ => ∀ x ∈ es, x.isLogic = true) (checkLogic path i es) := by
  induction es generalizing i with
  | nil => exact .ok (by simp)
  | cons e es ih =>
    rw [List.length_cons] at h
    have hi : i < all.length := by omega
    refine ((reads_isLogic e).inItem (List.getElem?_eq_getElem hi)).bind fun _ he => ?_
    obtain ⟨hlocated, hholds⟩ := ih (by omega : i + 1 + es.length ≤ all.length)
    exact ⟨hlocated, fun u hu => List.forall_mem_cons.mpr ⟨he, hholds u hu⟩⟩

end Lists

end Codec
end QueryTree
