import Mathlib.Data.List.Basic
import Mathlib.Data.List.Forall2

/-!
# Results with errors

Inversion of steps that may fail. A step that succeeded tells what it came from, so a proof about a
sequence of steps takes it apart with these lemmas and does not unfold the monad.

For failures the steps are put together instead: `Reports` says of a sequence of steps that it fails
with the first of a list of failures, and the list of a sequence is the lists of its steps one after
the other (`Reports.bind`).
-/

namespace Except

variable {ε α β : Type}

theorem bind_eq_ok_iff {x : Except ε α} {f : α → Except ε β} {b : β} :
    x >>= f = .ok b ↔ ∃ a, x = .ok a ∧ f a = .ok b := by
  cases x with
  | error e => simp [bind, Except.bind]
  | ok a => simp [bind, Except.bind]

theorem bind_eq_error_iff {x : Except ε α} {f : α → Except ε β} {e : ε} :
    x >>= f = .error e ↔ x = .error e ∨ ∃ a, x = .ok a ∧ f a = .error e := by
  cases x with
  | error e' => simp [bind, Except.bind]
  | ok a => simp [bind, Except.bind]

theorem map_eq_ok_iff {x : Except ε α} {f : α → β} {b : β} :
    f <$> x = .ok b ↔ ∃ a, x = .ok a ∧ f a = b := by
  cases x with
  | error e => simp [Functor.map, Except.map]
  | ok a => simp [Functor.map, Except.map]

theorem mapM_cons_eq_ok_iff {f : α → Except ε β} {a : α} {as : List α} {bs : List β} :
    (a :: as).mapM f = .ok bs ↔
      ∃ b rest, f a = .ok b ∧ as.mapM f = .ok rest ∧ bs = b :: rest := by
  rw [List.mapM_cons]
  constructor
  · intro h
    obtain ⟨b, hb, h⟩ := bind_eq_ok_iff.1 h
    obtain ⟨rest, hrest, h⟩ := bind_eq_ok_iff.1 h
    cases h
    exact ⟨b, rest, hb, hrest, rfl⟩
  · rintro ⟨b, rest, hb, hrest, rfl⟩
    exact bind_eq_ok_iff.2 ⟨b, hb, bind_eq_ok_iff.2 ⟨rest, hrest, rfl⟩⟩

/-- A list of steps succeeds if each of them does, with their results in order. -/
theorem mapM_eq_ok_iff {f : α → Except ε β} {as : List α} {bs : List β} :
    as.mapM f = .ok bs ↔ List.Forall₂ (fun a b => f a = .ok b) as bs := by
  induction as generalizing bs with
  | nil =>
    rw [List.forall₂_nil_left_iff]
    exact ⟨fun h => (Except.ok.inj h).symm, fun h => h ▸ rfl⟩
  | cons a as ih =>
    rw [mapM_cons_eq_ok_iff, List.forall₂_cons_left_iff]
    simp only [ih]

/-- Every result of a list of steps is the result of one of them. -/
theorem exists_of_mem_mapM {f : α → Except ε β} {as : List α} {bs : List β}
    (h : as.mapM f = .ok bs) {b : β} (hb : b ∈ bs) : ∃ a ∈ as, f a = .ok b := by
  induction as generalizing bs with
  | nil =>
    cases h
    cases hb
  | cons a as ih =>
    obtain ⟨c, rest, hc, hrest, rfl⟩ := mapM_cons_eq_ok_iff.1 h
    rcases List.mem_cons.1 hb with rfl | hb
    · exact ⟨a, List.mem_cons_self, hc⟩
    · obtain ⟨x, hx, hfx⟩ := ih hrest hb
      exact ⟨x, List.mem_cons_of_mem _ hx, hfx⟩

/-- What is done to every result can be done to the list of them. -/
theorem mapM_map {γ : Type} (f : α → Except ε β) (g : β → γ) (as : List α) :
    as.mapM (fun a => (f a).map g) = (as.mapM f).map (List.map g) := by
  induction as with
  | nil => rfl
  | cons a as ih =>
    rw [List.mapM_cons, List.mapM_cons, ih]
    cases f a with
    | error e => rfl
    | ok b => cases as.mapM f <;> rfl

/-- The results of a list of steps that succeeded, each of which `g` knows as well. -/
theorem filterMap_of_mapM {f : α → Except ε β} {g : α → Option β} (hg : ∀ a b, f a = .ok b → g a = some b)
    {as : List α} {bs : List β} (h : as.mapM f = .ok bs) : as.filterMap g = bs := by
  induction as generalizing bs with
  | nil =>
    cases h
    rfl
  | cons a as ih =>
    obtain ⟨b, rest, hb, hrest, rfl⟩ := mapM_cons_eq_ok_iff.1 h
    rw [List.filterMap_cons_some (hg a b hb), ih hrest]

/-! ## The first of several failures -/

/-- `x.Reports es`: of the failures `es`, which are listed in the order they are looked for, `x`
reports the first one, and without any of them it succeeds. -/
def Reports (x : Except ε α) (es : List ε) : Prop :=
  match x with
  | .ok _ => es = []
  | .error e => es.head? = some e

theorem Reports.eq_error_iff {x : Except ε α} {es : List ε} (h : x.Reports es) {e : ε} :
    x = .error e ↔ es.head? = some e := by
  cases x with
  | ok a =>
    rw [show es = [] from h]
    simp
  | error e' =>
    rw [show es.head? = some e' from h]
    simp

theorem Reports.exists_ok_iff {x : Except ε α} {es : List ε} (h : x.Reports es) :
    (∃ a, x = .ok a) ↔ es = [] := by
  cases x with
  | ok a => exact ⟨fun _ => h, fun _ => ⟨a, rfl⟩⟩
  | error e =>
    have hhead : es.head? = some e := h
    constructor
    · rintro ⟨a, ha⟩
      cases ha
    · rintro rfl
      cases hhead

/-- **Failures of a sequence.** The second step has failures only where the first has none. -/
theorem Reports.bind {x : Except ε α} {f : α → Except ε β} {es fs : List ε} (hx : x.Reports es)
    (hf : ∀ a, x = .ok a → (f a).Reports fs) : (x >>= f).Reports (es ++ fs) := by
  cases x with
  | ok a =>
    rw [show es = [] from hx]
    exact hf a rfl
  | error e =>
    show (es ++ fs).head? = some e
    rw [List.head?_append, show es.head? = some e from hx]
    rfl

theorem Reports.map {x : Except ε α} {es : List ε} (hx : x.Reports es) (f : α → β) :
    (x.map f).Reports es := by
  cases x with
  | ok a => exact hx
  | error e => exact hx

/-- A last step that cannot fail adds no failures. -/
theorem Reports.bind_ok {x : Except ε α} {es : List ε} (hx : x.Reports es) (f : α → β) :
    (x >>= fun a => .ok (f a)).Reports es := by
  cases x with
  | ok a => exact hx
  | error e => exact hx

/-- A step for each member of a list, each with at most one failure. -/
theorem reports_mapM {f : α → Except ε β} {failure? : α → Option ε}
    (hf : ∀ a, (f a).Reports (failure? a).toList) (as : List α) :
    (as.mapM f).Reports (as.filterMap failure?) := by
  induction as with
  | nil => rfl
  | cons a as ih =>
    rw [List.mapM_cons, show (a :: as).filterMap failure?
      = (failure? a).toList ++ as.filterMap failure? by
        rw [List.filterMap_cons]
        cases failure? a <;> rfl]
    exact (hf a).bind fun b _ => ih.bind_ok (b :: ·)

end Except
