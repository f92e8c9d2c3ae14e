import Mathlib
import Lustre.Lib.Run

/-! # Sliding-window replay detection

A receiver that must accept each sequence number at most once, but cannot
remember every number it has accepted, keeps the highest number `top` so far
and a bitmap of `W` bits: bit `i % W` says whether `i` was accepted, for the
numbers `top - W < i ≤ top`. A number further below `top` is refused.

`accept` is what such a receiver is for, stated over the whole history: a
number is accepted exactly when it was not accepted before and lies within
`W` of the highest one. `Represents` says that a bitmap and a highest number
stand for a history in this way. The lemmas say how the three updates such a
receiver makes keep it — a jump of `W` or more resets the bitmap, a shorter
one clears the bits of the numbers passed over (`advance`), and a number in
the window sets its bit — and what testing a bit then tells. Over runs,
`accept` never accepts a number twice.
-/

namespace ReplayWindow

/-- The numbers accepted so far, latest first, and the highest of them. -/
structure History where
  seen : List Nat
  top : Nat
  deriving DecidableEq, Repr

/-- Accept a number not accepted before that lies within `W` of the highest. -/
def accept (W : Nat) (h : History) (s : Nat) : Bool × History :=
  if s ∉ h.seen ∧ h.top < s + W then (true, ⟨s :: h.seen, max h.top s⟩) else (false, h)

/-- The bitmap `bits`, with highest number `h.top`, stands for the history
`h`: nothing accepted lies above `top`, and in the window the bit of a number
is set exactly when it was accepted. -/
structure Represents (W : Nat) (bits : Nat → Bool) (h : History) : Prop where
  le_top : ∀ a ∈ h.seen, a ≤ h.top
  bit : ∀ i, h.top < i + W → i ≤ h.top → (bits (i % W) = true ↔ i ∈ h.seen)

/-- Clear the bits of the `n` numbers after `top`, in order. -/
def advance (W : Nat) (bits : Nat → Bool) (top : Nat) : Nat → Nat → Bool
  | 0 => bits
  | n + 1 => advance W (Function.update bits ((top + 1) % W) false) (top + 1) n

/-- Clear the `W` bits. -/
def reset (W : Nat) (bits : Nat → Bool) : Nat → Bool :=
  fun b => if b < W then false else bits b

section Bits

variable {W : Nat}

/-- Two numbers less than `W` apart have different bits. -/
theorem mod_ne_of_lt {i j : Nat} (hij : i < j) (hji : j < i + W) : i % W ≠ j % W := by
  intro h
  have hdvd : W ∣ j - i := Nat.dvd_of_mod_eq_zero (Nat.sub_mod_eq_zero_of_mod_eq h.symm)
  have hle := Nat.le_of_dvd (by omega) hdvd
  omega

/-- A bit after `advance` is clear when some number passed over has it, and
as before otherwise. -/
theorem advance_apply (bits : Nat → Bool) (b : Nat) :
    ∀ (n top : Nat), advance W bits top n b = false ∨
      ((∀ k, top < k → k ≤ top + n → k % W ≠ b) ∧ advance W bits top n b = bits b) := by
  intro n
  induction n generalizing bits with
  | zero => intro top; exact Or.inr ⟨fun k hk hk' => by omega, rfl⟩
  | succ n ih =>
    intro top
    rcases ih (Function.update bits ((top + 1) % W) false) (top + 1) with h | ⟨hk, heq⟩
    · exact Or.inl h
    · by_cases hb : b = (top + 1) % W
      · left
        rw [advance, heq, hb, Function.update_self]
      · -- the first number passed over has another bit: the rest decides
        right
        refine ⟨fun k hk1 hk2 => ?_, ?_⟩
        · rcases Nat.lt_or_ge (top + 1) k with hlt | hge
          · exact hk k hlt (by omega)
          · rw [show k = top + 1 by omega]
            exact fun h => hb h.symm
        · rw [advance, heq, Function.update_of_ne hb]

/-- A bit that no number passed over has is left as it was. -/
theorem advance_of_ne (bits : Nat → Bool) {b n top : Nat} (hb : ∀ k, top < k → k ≤ top + n → k % W ≠ b) :
    advance W bits top n b = bits b := by
  induction n generalizing bits top with
  | zero => rfl
  | succ n ih =>
    have hne : b ≠ (top + 1) % W := fun h => hb (top + 1) (by omega) (by omega) h.symm
    rw [advance, ih _ (fun k hk hk' => hb k (by omega) (by omega)), Function.update_of_ne hne]

/-- The bit of a number passed over is clear. -/
theorem advance_passed (bits : Nat → Bool) {k n top : Nat} (hk : top < k) (hk' : k ≤ top + n) :
    advance W bits top n (k % W) = false := by
  rcases advance_apply bits (k % W) n top with h | ⟨hne, -⟩
  · exact h
  · exact absurd rfl (hne k hk hk')

end Bits

section Updates

variable {W : Nat} {bits : Nat → Bool} {h : History}

theorem Represents.init : Represents W (fun _ => false) ⟨[], 0⟩ := by
  constructor
  · intro a ha
    cases ha
  · intro i _ hi
    simp only [Bool.false_eq_true, List.not_mem_nil]

/-- In the window, the bit of a number says whether it was accepted. -/
theorem Represents.test (hr : Represents W bits h) {s : Nat} (hs : s ≤ h.top) (hw : h.top < s + W) :
    bits (s % W) = true ↔ s ∈ h.seen :=
  hr.bit s hw hs

/-- A number within the window whose bit is clear is accepted, and setting
its bit keeps the representation. -/
theorem Represents.set_in (hr : Represents W bits h) {s : Nat} (hs : s ≤ h.top) (hw : h.top < s + W)
    (hbit : bits (s % W) = false) :
    accept W h s = (true, ⟨s :: h.seen, h.top⟩) ∧
      Represents W (Function.update bits (s % W) true) ⟨s :: h.seen, h.top⟩ := by
  have hnot : s ∉ h.seen := fun hm => by
    rw [← hr.test hs hw, hbit] at hm
    cases hm
  refine ⟨by rw [accept, if_pos ⟨hnot, hw⟩, Nat.max_eq_left hs], ⟨?_, ?_⟩⟩
  · intro a ha
    rcases List.mem_cons.mp ha with rfl | ha
    · exact hs
    · exact hr.le_top a ha
  · intro i hi hi'
    by_cases his : i = s
    · subst his
      simp only [Function.update_self, List.mem_cons_self]
    · -- another number of the window keeps its bit and its history
      have hne : i % W ≠ s % W := by
        rcases Nat.lt_or_gt_of_ne his with hlt | hgt
        · exact mod_ne_of_lt hlt (by dsimp only at hi; omega)
        · exact (mod_ne_of_lt hgt (by dsimp only at hi'; omega)).symm
      rw [Function.update_of_ne hne, List.mem_cons, or_iff_right his]
      exact hr.bit i hi hi'

/-- A number at least `W` above the highest is accepted, and the reset
bitmap with its bit set represents the history it starts. -/
theorem Represents.jump (hr : Represents W bits h) (hW : 0 < W) {s : Nat} (hs : h.top + W ≤ s) :
    accept W h s = (true, ⟨s :: h.seen, s⟩) ∧
      Represents W (Function.update (reset W bits) (s % W) true) ⟨s :: h.seen, s⟩ := by
  have hnot : s ∉ h.seen := fun hm => by
    have := hr.le_top s hm
    omega
  refine ⟨by rw [accept, if_pos ⟨hnot, by omega⟩, Nat.max_eq_right (by omega)], ⟨?_, ?_⟩⟩
  · intro a ha
    rcases List.mem_cons.mp ha with rfl | ha
    · exact Nat.le_refl a
    · show a ≤ s
      have := hr.le_top a ha
      omega
  · intro i hi hi'
    dsimp only at hi hi'
    by_cases his : i = s
    · subst his
      simp only [Function.update_self, List.mem_cons_self]
    · -- every other number of the new window is above the old highest
      have hne : i % W ≠ s % W := mod_ne_of_lt (by omega) (by omega)
      have hfresh : i ∉ h.seen := fun hm => by
        have := hr.le_top i hm
        omega
      rw [Function.update_of_ne hne, reset, if_pos (Nat.mod_lt i hW), List.mem_cons, or_iff_right his]
      simp only [Bool.false_eq_true, hfresh]

/-- A number less than `W` above the highest is accepted; clearing the bits
passed over and setting its own keeps the representation. -/
theorem Represents.advance (hr : Represents W bits h) {s : Nat} (hlt : h.top < s) (hs : s < h.top + W) :
    accept W h s = (true, ⟨s :: h.seen, s⟩) ∧
      Represents W (Function.update (advance W bits h.top (s - h.top)) (s % W) true) ⟨s :: h.seen, s⟩ := by
  have hnot : s ∉ h.seen := fun hm => by
    have := hr.le_top s hm
    omega
  refine ⟨by rw [accept, if_pos ⟨hnot, by omega⟩, Nat.max_eq_right (by omega)], ⟨?_, ?_⟩⟩
  · intro a ha
    rcases List.mem_cons.mp ha with rfl | ha
    · exact Nat.le_refl a
    · show a ≤ s
      have := hr.le_top a ha
      omega
  · intro i hi hi'
    dsimp only at hi hi'
    by_cases his : i = s
    · subst his
      simp only [Function.update_self, List.mem_cons_self]
    · have hne : i % W ≠ s % W := mod_ne_of_lt (by omega) (by omega)
      rw [Function.update_of_ne hne, List.mem_cons, or_iff_right his]
      rcases Nat.lt_or_ge h.top i with hpass | hold
      · -- passed over: its bit is cleared, and it was never accepted
        have hfresh : i ∉ h.seen := fun hm => by
          have := hr.le_top i hm
          omega
        rw [advance_passed bits hpass (by omega)]
        simp only [Bool.false_eq_true, hfresh]
      · -- still in the old window: no number passed over shares its bit
        rw [advance_of_ne bits (fun k hk hk' hkm => mod_ne_of_lt (by omega) (by omega) hkm.symm)]
        exact hr.bit i (by omega) hold

/-- A number `W` or more below the highest is refused and changes nothing. -/
theorem accept_behind {s : Nat} (hs : s + W ≤ h.top) : accept W h s = (false, h) := by
  rw [accept, if_neg (fun hc => by omega)]

/-- A number in the window whose bit is set is refused and changes nothing. -/
theorem Represents.accept_seen (hr : Represents W bits h) {s : Nat} (hs : s ≤ h.top) (hw : h.top < s + W)
    (hbit : bits (s % W) = true) : accept W h s = (false, h) := by
  rw [accept, if_neg (fun hc => hc.1 ((hr.test hs hw).mp hbit))]

end Updates

/-! ## Runs -/

/-- The inputs whose return value is `true`. -/
def selected {α : Type} : List α → List Bool → List α
  | a :: as, b :: bs => if b then a :: selected as bs else selected as bs
  | _, _ => []

theorem selected_map {α β : Type} (f : α → β) :
    ∀ (as : List α) (bs : List Bool), selected (as.map f) bs = (selected as bs).map f
  | [], _ => rfl
  | _ :: _, [] => rfl
  | a :: as, b :: bs => by
    cases b <;> simp only [List.map_cons, selected, selected_map f as bs, Bool.false_eq_true, if_false, if_true,
      List.map_cons]

/-- The receiver as a step that always returns. -/
def acceptStep (W : Nat) (h : History) (s : Nat) : Option (Bool × History) :=
  some (accept W h s)

/-- One `accept` keeps the history free of repeats and adds to it exactly
the number it accepts. -/
theorem accept_seen_eq (W : Nat) (h : History) (s : Nat) (hnd : h.seen.Nodup) :
    ((accept W h s).2.seen = if (accept W h s).1 then s :: h.seen else h.seen) ∧ (accept W h s).2.seen.Nodup := by
  unfold accept
  by_cases hc : s ∉ h.seen ∧ h.top < s + W
  · rw [if_pos hc]
    exact ⟨rfl, List.nodup_cons.mpr ⟨hc.1, hnd⟩⟩
  · rw [if_neg hc]
    exact ⟨rfl, hnd⟩

/-- Anti-replay: along every run, the history grows by the numbers accepted,
latest first, and no number is accepted twice. -/
theorem run_accept_seen (W : Nat) :
    ∀ (is : List Nat) (h : History), h.seen.Nodup →
      ∃ bs h', StepRun.run (acceptStep W) h is = some (bs, h') ∧
        h'.seen = (selected is bs).reverse ++ h.seen ∧ h'.seen.Nodup
  | [], h, hnd => ⟨[], h, rfl, rfl, hnd⟩
  | s :: is, h, hnd => by
    obtain ⟨hseen, hnd₁⟩ := accept_seen_eq W h s hnd
    obtain ⟨bs, h', hrun, hseen', hnd'⟩ := run_accept_seen W is (accept W h s).2 hnd₁
    refine ⟨(accept W h s).1 :: bs, h', ?_, ?_, hnd'⟩
    · simp only [StepRun.run_cons, acceptStep, Option.bind_some, hrun, Option.map_some]
    · rw [hseen', hseen]
      cases (accept W h s).1 <;> simp [selected]

end ReplayWindow
