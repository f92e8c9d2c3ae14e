import Mathlib

/-! # Postconditions of computations in `Except`

`Except.Post P x` says that every result `x` returns satisfies `P`; an
error satisfies every postcondition. The rules follow the shape of the
computation (a value, an error, a branch, a map, a bind) so that a proof
about a chain of tests walks the chain and never has to decide its
conditions.
-/

namespace Except

variable {ε α β : Type} {P Q : α → Prop}

/-- Every result of `x` satisfies `P`. -/
def Post (P : α → Prop) (x : Except ε α) : Prop := ∀ a, x = .ok a → P a

theorem post_ok {a : α} (h : P a) : (Except.ok a : Except ε α).Post P := by
  rintro b ⟨⟩
  exact h

theorem post_error {e : ε} : (Except.error e : Except ε α).Post P := by
  rintro b ⟨⟩

theorem post_of_forall {x : Except ε α} (h : ∀ a, P a) : x.Post P := fun a _ => h a

theorem Post.mono {x : Except ε α} (hx : x.Post P) (h : ∀ a, P a → Q a) : x.Post Q :=
  fun a ha => h a (hx a ha)

theorem post_ite {c : Prop} [Decidable c] {x y : Except ε α} (hx : c → x.Post P) (hy : ¬c → y.Post P) :
    (if c then x else y).Post P := by
  by_cases hc : c
  · rw [if_pos hc]
    exact hx hc
  · rw [if_neg hc]
    exact hy hc

theorem post_map {P : β → Prop} {f : α → β} {x : Except ε α} (hx : x.Post Q) (h : ∀ a, Q a → P (f a)) :
    (x.map f).Post P := by
  intro b hb
  cases x with
  | error e => cases hb
  | ok a =>
    cases hb
    exact h a (hx a rfl)

theorem post_bind {P : β → Prop} {x : Except ε α} {f : α → Except ε β} (hx : x.Post Q)
    (hf : ∀ a, Q a → (f a).Post P) : (x >>= f).Post P := by
  intro b hb
  cases x with
  | error e => cases hb
  | ok a => exact hf a (hx a rfl) b hb

/-- A bind succeeds exactly when its first computation does and the rest
succeeds on its result; the rule that peels a chain of binds. -/
theorem bind_eq_ok {x : Except ε α} {f : α → Except ε β} {b : β} :
    x >>= f = .ok b ↔ ∃ a, x = .ok a ∧ f a = .ok b := by
  cases x with
  | error e => exact ⟨fun h => (by cases h), fun ⟨_, h, _⟩ => (by cases h)⟩
  | ok a => exact ⟨fun h => ⟨a, rfl, h⟩, fun ⟨_, h, hf⟩ => (by cases h; exact hf)⟩

theorem map_eq_ok {x : Except ε α} {f : α → β} {b : β} : x.map f = .ok b ↔ ∃ a, x = .ok a ∧ f a = b := by
  cases x with
  | error e => exact ⟨fun h => (by cases h), fun ⟨_, h, _⟩ => (by cases h)⟩
  | ok a => exact ⟨fun h => ⟨a, rfl, (by cases h; rfl)⟩, fun ⟨_, h, hf⟩ => (by cases h; rw [← hf]; rfl)⟩

end Except
