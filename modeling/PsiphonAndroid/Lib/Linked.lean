import Mathlib.Data.List.Basic

/-!
# Messages that change hands

A receiver keeps something for the owner of the messages it gets. A message may say that the owner is another one; a message that
does not say so is taken to be of the owner before it. `Linked` says when a sequence of messages is understood rightly by a
receiver that keeps something for a given owner, or nothing.
-/

namespace Lib

section Linked

variable {F P : Type*} {announces : F → Bool} {owner : F → P}

/-- `Linked announces owner o fs p`: to a receiver that keeps something for `o`, every message of `fs` either announces its owner
or has the owner of what comes before it, and the last owner is `p`. -/
def Linked (announces : F → Bool) (owner : F → P) : Option P → List F → P → Prop
  | o, [], p => o = none ∨ o = some p
  | o, f :: fs, p => (announces f = true ∨ o = none ∨ o = some (owner f)) ∧ Linked announces owner (some (owner f)) fs p

/-- A receiver that keeps nothing understands what any other does. -/
theorem Linked.forget {o : Option P} {fs : List F} {p : P} (h : Linked announces owner o fs p) : Linked announces owner none fs p := by
  cases fs with
  | nil => exact Or.inl rfl
  | cons f fs => exact ⟨Or.inr (Or.inl rfl), h.2⟩

/-- After a message, the rest is understood by a receiver that keeps something for the message's owner. -/
theorem Linked.after {o : Option P} {w : List F} {f : F} {fs : List F} {p : P} (h : Linked announces owner o (w ++ f :: fs) p) :
    Linked announces owner (some (owner f)) fs p := by
  induction w generalizing o with
  | nil => exact h.2
  | cons g w ih => exact ih h.2

/-- A receiver that starts anew understands the rest. -/
theorem Linked.suffix {o : Option P} {w fs : List F} {p : P} (h : Linked announces owner o (w ++ fs) p) :
    Linked announces owner none fs p := by
  induction w generalizing o with
  | nil => exact h.forget
  | cons g w ih => exact ih h.2

/-- One message more, which announces its owner or has the last one. -/
theorem Linked.snoc {o : Option P} {fs : List F} {p : P} (h : Linked announces owner o fs p) {f : F}
    (hf : announces f = true ∨ owner f = p) : Linked announces owner o (fs ++ [f]) (owner f) := by
  induction fs generalizing o with
  | nil =>
    refine ⟨?_, Or.inr rfl⟩
    rcases hf with hf | hf
    · exact Or.inl hf
    · rcases h with h | h
      · exact Or.inr (Or.inl h)
      · exact Or.inr (Or.inr (by rw [hf]; exact h))
  | cons g fs ih => exact ⟨h.1, ih h.2⟩

end Linked

end Lib
