import Mathlib

/-! # Arrays filled from the top down

A loop that stores values into an array from an index downwards, one slot
a value, and gives up once no slot is left, is `pushAll` over the values:
the state is the number of slots still free below the last one written,
the next one being `free - 1`, and the array. Giving up (`.error`) keeps
the array as the stores before it left it. With enough slots the values end
up in the slots `free - 1`, `free - 2`, ..., and reading them back in that
order gives the values (`pushAll_of_le`); with too few, the first `free`
values fill the slots below `free` before the loop gives up
(`pushAll_of_lt`). Either way the slots at or above the start keep what they
held. Pushes compose over concatenation (`pushAll_append`).

A loop that may trap (`none`), stop early with a value (`some (.error r)`,
as a `return -1` does) or go on with a new state is `exitFold`; when each
turn pushes a list of values, the whole loop pushes their concatenation
(`exitFold_pushAll`). Nothing here refers to a particular program.
-/

namespace DownFill

variable {α : Type}

/-- Store `x` in the next slot down; with no slot left, give up with the
array as it is. -/
def push (x : α) : Nat × (Nat → α) → Except (Nat → α) (Nat × (Nat → α))
  | (0, a) => .error a
  | (free + 1, a) => .ok (free, Function.update a free x)

/-- Store the values one after the other. -/
def pushAll : List α → Nat × (Nat → α) → Except (Nat → α) (Nat × (Nat → α))
  | [], st => .ok st
  | x :: xs, st => (push x st).bind (pushAll xs)

/-- The `n` slots from `top - 1` down, in that order. -/
def readDown (a : Nat → α) : Nat → Nat → List α
  | _, 0 => []
  | top, n + 1 => a (top - 1) :: readDown a (top - 1) n

@[simp] theorem pushAll_nil (st : Nat × (Nat → α)) : pushAll [] st = .ok st := rfl

theorem pushAll_cons (x : α) (xs : List α) (st : Nat × (Nat → α)) :
    pushAll (x :: xs) st = (push x st).bind (pushAll xs) := rfl

@[simp] theorem pushAll_cons_zero (x : α) (xs : List α) (a : Nat → α) : pushAll (x :: xs) (0, a) = .error a := rfl

@[simp] theorem pushAll_cons_succ (x : α) (xs : List α) (free : Nat) (a : Nat → α) :
    pushAll (x :: xs) (free + 1, a) = pushAll xs (free, Function.update a free x) := rfl

@[simp] theorem pushAll_singleton (x : α) (st : Nat × (Nat → α)) : pushAll [x] st = push x st := by
  rw [pushAll_cons]
  cases push x st <;> rfl

theorem pushAll_append : ∀ (xs ys : List α) (st : Nat × (Nat → α)),
    pushAll (xs ++ ys) st = (pushAll xs st).bind (pushAll ys)
  | [], _, _ => rfl
  | x :: xs, ys, st => by
    rw [List.cons_append, pushAll_cons, pushAll_cons]
    cases push x st with
    | error a => rfl
    | ok st' => exact pushAll_append xs ys st'

/-- Enough slots: the values go to the slots from `free - 1` down, read back
in order, and nothing at or above `free` changes. -/
theorem pushAll_of_le : ∀ (xs : List α) (free : Nat) (a : Nat → α), xs.length ≤ free →
    ∃ a', pushAll xs (free, a) = .ok (free - xs.length, a') ∧ readDown a' free xs.length = xs ∧
      ∀ i, free ≤ i → a' i = a i
  | [], free, a, _ => ⟨a, rfl, rfl, fun _ _ => rfl⟩
  | x :: xs, free + 1, a, h => by
    rw [List.length_cons] at h
    obtain ⟨a', hpush, hread, hframe⟩ := pushAll_of_le xs free (Function.update a free x) (by omega)
    refine ⟨a', ?_, ?_, fun i hi => ?_⟩
    · rw [pushAll_cons_succ, hpush, List.length_cons, Nat.add_sub_add_right]
    · -- the first value sits in the top slot, which the rest leave alone
      rw [List.length_cons, readDown, Nat.add_sub_cancel, hread,
        hframe free (le_refl _), Function.update_self]
    · rw [hframe i (by omega), Function.update_of_ne (by omega)]
  | _ :: _, 0, _, h => by
    rw [List.length_cons] at h
    omega

/-- Too few slots: the first `free` values fill the slots below `free`,
read back in order, before the pushes give up; nothing at or above `free`
changes. -/
theorem pushAll_of_lt : ∀ (xs : List α) (free : Nat) (a : Nat → α), free < xs.length →
    ∃ a', pushAll xs (free, a) = .error a' ∧ readDown a' free free = xs.take free ∧ ∀ i, free ≤ i → a' i = a i
  | [], _, _, h => absurd h (Nat.not_lt_zero _)
  | _ :: _, 0, a, _ => ⟨a, rfl, rfl, fun _ _ => rfl⟩
  | x :: xs, free + 1, a, h => by
    rw [List.length_cons] at h
    obtain ⟨a', hpush, hread, hframe⟩ := pushAll_of_lt xs free (Function.update a free x) (by omega)
    refine ⟨a', by rw [pushAll_cons_succ, hpush], ?_, fun i hi => ?_⟩
    · rw [readDown, Nat.add_sub_cancel, hread, hframe free (le_refl _), Function.update_self,
        List.take_succ_cons]
    · rw [hframe i (by omega), Function.update_of_ne (by omega)]

/-- Reading `m + n` slots down is reading `m`, then `n` below them. -/
theorem readDown_add (a : Nat → α) : ∀ (top m n : Nat), readDown a top (m + n) = readDown a top m ++ readDown a (top - m) n
  | top, 0, n => by rw [Nat.zero_add, Nat.sub_zero]; rfl
  | top, m + 1, n => by
    rw [Nat.add_right_comm, readDown, readDown, readDown_add a (top - 1) m n, List.cons_append, Nat.sub_sub,
      Nat.add_comm 1 m]

/-- Reading slots sees only those slots. -/
theorem readDown_congr {a b : Nat → α} : ∀ {top n : Nat}, n ≤ top → (∀ i, top - n ≤ i → i < top → a i = b i) →
    readDown a top n = readDown b top n
  | _, 0, _, _ => rfl
  | top, n + 1, hn, h => by
    rw [readDown, readDown, h (top - 1) (by omega) (by omega),
      readDown_congr (by omega) fun i hi hlt => h i (by omega) (by omega)]

/-! ## Loops that may stop early -/

section Exit

variable {β ρ σ : Type}

/-- Visit the elements in turn: a trap (`none`) or an early stop with a
value (`some (.error r)`) ends the loop. -/
def exitFold (visit : β → σ → Option (Except ρ σ)) : List β → σ → Option (Except ρ σ)
  | [], st => some (.ok st)
  | x :: xs, st => do
    match ← visit x st with
    | .error r => return .error r
    | .ok st => exitFold visit xs st

theorem exitFold_append (visit : β → σ → Option (Except ρ σ)) :
    ∀ (xs ys : List β) (st : σ), exitFold visit (xs ++ ys) st =
      (exitFold visit xs st).bind fun r => match r with
        | .error r => some (.error r)
        | .ok st => exitFold visit ys st
  | [], _, _ => rfl
  | x :: xs, ys, st => by
    simp only [List.cons_append, exitFold, Option.bind_eq_bind, Option.bind_assoc]
    congr 1
    funext r
    cases r with
    | error r => rfl
    | ok st' => exact exitFold_append visit xs ys st'

/-- A loop whose turns each push a list of values pushes them all, and stops
where the pushes run out of slots. -/
theorem exitFold_pushAll (f : β → List α) :
    ∀ (xs : List β) (st : Nat × (Nat → α)),
      exitFold (fun x st => some (pushAll (f x) st)) xs st = some (pushAll (xs.flatMap f) st)
  | [], _ => rfl
  | x :: xs, st => by
    rw [List.flatMap_cons, pushAll_append]
    cases h : pushAll (f x) st with
    | error a => simp only [exitFold, h, Option.bind_eq_bind, Option.bind_some]; rfl
    | ok st' =>
      simp only [exitFold, h, Option.bind_eq_bind, Option.bind_some]
      exact exitFold_pushAll f xs st'

end Exit

end DownFill
