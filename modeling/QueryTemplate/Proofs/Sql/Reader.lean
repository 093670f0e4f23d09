import QueryTemplate.Proofs.Except
import QueryTemplate.Sql.Reader

/-!
# What readers ensure

A reader takes tokens from the front of a text and gives a value, or fails. `Reader.Ensures I P` says of a
reader that gives a value that the value has the property `P` and the tokens that are left keep the
property `I`. The lemmas below carry it through the ways in which readers are put together, so that a rule
of a grammar is followed step by step.
-/

namespace QueryTemplate.Sql.Reader

variable {α β : Type} {I : List Token → Prop} {P : α → Prop} {Q : β → Prop}

/-- From tokens with the property `I` the reader gives a value with the property `P`, and leaves tokens
with `I`. -/
def Ensures (I : List Token → Prop) (P : α → Prop) (r : Reader α) : Prop :=
  ∀ ts a rest, I ts → r ts = .ok (a, rest) → P a ∧ I rest

namespace Ensures

theorem pure {a : α} (h : P a) : Ensures I P (pure a) := by
  intro ts a' rest hts hread
  cases hread
  exact ⟨h, hts⟩

theorem throw (failure : Failure) : Ensures I P (throw failure) := by
  intro ts a rest _ hread
  cases hread

theorem bind {r : Reader α} {f : α → Reader β} (hr : Ensures I P r) (hf : ∀ a, P a → Ensures I Q (f a)) :
    Ensures I Q (r >>= f) := by
  intro ts b rest hts hread
  obtain ⟨⟨a, mid⟩, ha, hb⟩ := Except.bind_eq_ok_iff.1 hread
  obtain ⟨hvalue, hmid⟩ := hr ts a mid hts ha
  exact hf a hvalue mid b rest hmid hb

theorem map {r : Reader α} {f : α → β} (hr : Ensures I P r) (hf : ∀ a, P a → Q (f a)) :
    Ensures I Q (f <$> r) :=
  hr.bind fun a ha => .pure (hf a ha)

variable {p : Prop} [Decidable p]

theorem ite {r s : Reader α} (hr : Ensures I P r) (hs : Ensures I P s) :
    Ensures I P (if p then r else s) := by
  split
  · exact hr
  · exact hs

/-- Both branches go on in the same way. -/
theorem branch {r s : Reader α} {f : α → Reader β} (hr : Ensures I P r) (hs : Ensures I P s)
    (hf : ∀ a, P a → Ensures I Q (f a)) : Ensures I Q (if p then r >>= f else s >>= f) :=
  .ite (hr.bind hf) (hs.bind hf)

/-- A part that stands there or not, with a value to go on with where it does not. -/
theorem optional {r : Reader α} {f : α → Reader β} {a : α} (hr : Ensures I P r) (ha : P a)
    (hf : ∀ a, P a → Ensures I Q (f a)) : Ensures I Q (if p then r >>= f else f a) :=
  .ite (hr.bind hf) (hf a ha)

/-- Another reader comes first in one case. -/
theorem when {r : Reader α} {s : Reader β} (hr : Ensures I P r) (hs : Ensures I Q s) :
    Ensures I Q (if p then r >>= fun _ => s else s) :=
  .ite (hr.bind fun _ _ => hs) hs

/-- Another reader comes first in all cases but one. -/
theorem otherwise {r : Reader α} {s : Reader β} (hr : Ensures I P r) (hs : Ensures I Q s) :
    Ensures I Q (if p then s else r >>= fun _ => s) :=
  .ite hs (hr.bind fun _ _ => hs)

end Ensures

end QueryTemplate.Sql.Reader
