import Mathlib

/-! # Runs of a fallible step function

A component whose operations may each fail (a tripped assertion, a missing
case) is modelled by a step function `σ → ι → Option (ρ × σ)`: from a state
and an input, either nothing or a return value and the next state. A run
feeds it a list of inputs and collects the return values.

The rules here are lockstep simulation (`run_rel`): if a relation between
two machines' states is kept by every step, with equal return values, it is
kept by every run; the invariant rule (`run_inv`) for runs whose steps all
satisfy a side condition; and the totality rule (`run_total`): such runs
return when every such step does. A loop that folds a step over a list
keeps an invariant that every step keeps (`foldl_inv`). The states reached
from a start by admitted steps (`Reachable`) keep what the start has and
every admitted step keeps. Nothing here refers to a particular program.
-/

namespace StepRun

variable {σ τ ι ρ : Type}

/-- Feed the inputs one by one, collecting the return values; the run fails
as soon as a step does. -/
def run (step : σ → ι → Option (ρ × σ)) (s : σ) : List ι → Option (List ρ × σ)
  | [] => some ([], s)
  | i :: is => (step s i).bind fun (r, s') =>
      (run step s' is).map fun (rs, s'') => (r :: rs, s'')

@[simp] theorem run_nil (step : σ → ι → Option (ρ × σ)) (s : σ) :
    run step s [] = some ([], s) := rfl

theorem run_cons (step : σ → ι → Option (ρ × σ)) (s : σ) (i : ι) (is : List ι) :
    run step s (i :: is) = (step s i).bind fun (r, s') =>
      (run step s' is).map fun (rs, s'') => (r :: rs, s'') := rfl

/-- Two results agree: both failed, or both returned the same value and
states related by `R`. -/
def Agree (R : σ → τ → Prop) : Option (ρ × σ) → Option (ρ × τ) → Prop :=
  Option.Rel fun c b => c.1 = b.1 ∧ R c.2 b.2

theorem Agree.mono {R R' : σ → τ → Prop} (hR : ∀ s t, R s t → R' s t)
    {c : Option (ρ × σ)} {b : Option (ρ × τ)} (h : Agree R c b) : Agree R' c b := by
  cases h with
  | none => exact .none
  | some hcb => exact .some ⟨hcb.1, hR _ _ hcb.2⟩

/-- A result that agrees with a returned one returned too. -/
theorem Agree.some_right {R : σ → τ → Prop} {c : Option (ρ × σ)} {r : ρ} {t : τ} (h : Agree R c (some (r, t))) :
    ∃ s, c = some (r, s) ∧ R s t := by
  cases h with
  | @some c b hcb =>
    obtain ⟨r', s⟩ := c
    obtain ⟨hr, hR⟩ := hcb
    dsimp only at hr hR
    rw [hr]
    exact ⟨s, rfl, hR⟩

/-- A run over inputs transformed by `f` is the run of the step that
transforms each input. -/
theorem run_map_input (step : σ → ι → Option (ρ × σ)) (f : τ → ι) :
    ∀ (s : σ) (is : List τ), run step s (is.map f) = run (fun s i => step s (f i)) s is
  | _, [] => rfl
  | s, i :: is => by
    simp only [List.map_cons, run_cons, run_map_input step f _ is]

section Simulation

variable (stepC : σ → ι → Option (ρ × σ)) (stepA : τ → ι → Option (ρ × τ)) (R : σ → τ → Prop)

/-- Lockstep simulation on the inputs of `A`: a relation kept by every step
on such an input, with equal return values, is kept by every run of them,
with equal lists of return values. -/
theorem run_rel_on (A : ι → Prop) (hstep : ∀ s t i, A i → R s t → Agree R (stepC s i) (stepA t i)) :
    ∀ (is : List ι) (s : σ) (t : τ), (∀ i ∈ is, A i) → R s t →
      Agree R (run stepC s is) (run stepA t is)
  | [], s, t, _, h => .some ⟨rfl, h⟩
  | i :: is, s, t, hA, h => by
    rw [run_cons, run_cons]
    -- one step, then the rest of the run from the related states it reaches
    have hs := hstep s t i (hA i List.mem_cons_self) h
    generalize stepC s i = c at hs ⊢
    generalize stepA t i = b at hs ⊢
    cases hs with
    | none => exact .none
    | @some c b hcb =>
      obtain ⟨r, s'⟩ := c
      obtain ⟨r', t'⟩ := b
      obtain ⟨hr, h'⟩ := hcb
      dsimp only at hr h'
      subst hr
      simp only [Option.bind_some]
      have hrest := run_rel_on A hstep is s' t' (fun j hj => hA j (List.mem_cons_of_mem i hj)) h'
      generalize run stepC s' is = c' at hrest ⊢
      generalize run stepA t' is = b' at hrest ⊢
      cases hrest with
      | none => exact .none
      | @some c'' b'' hcb' =>
        obtain ⟨rs, s''⟩ := c''
        obtain ⟨rs', t''⟩ := b''
        obtain ⟨hrs, h''⟩ := hcb'
        dsimp only at hrs h''
        subst hrs
        exact .some ⟨rfl, h''⟩

/-- Lockstep simulation: a relation kept by every step, with equal return
values, is kept by every run, with equal lists of return values. -/
theorem run_rel (hstep : ∀ s t i, R s t → Agree R (stepC s i) (stepA t i)) (is : List ι) (s : σ) (t : τ)
    (h : R s t) : Agree R (run stepC s is) (run stepA t is) :=
  run_rel_on stepC stepA R (fun _ => True) (fun s t i _ => hstep s t i) is s t (fun _ _ => trivial) h

end Simulation

/-! ## Invariants of runs -/

section Invariant

variable (step : σ → ι → Option (ρ × σ)) (Allowed : σ → ι → Prop)

/-- Every step of the run from `s` is one that `Allowed` admits in the state
it is taken from. -/
def AllowedRun : σ → List ι → Prop
  | _, [] => True
  | s, i :: is => Allowed s i ∧ ∀ r s', step s i = some (r, s') → AllowedRun s' is

/-- A run is admitted when its first step is, and the rest is from the state
that step returns. -/
theorem allowedRun_cons_of_step {s s₁ : σ} {i : ι} {r : ρ} {is : List ι} (ha : Allowed s i)
    (hs : step s i = some (r, s₁)) (hrest : AllowedRun step Allowed s₁ is) :
    AllowedRun step Allowed s (i :: is) := by
  refine ⟨ha, fun r' s' h => ?_⟩
  rw [hs, Option.some.injEq, Prod.mk.injEq] at h
  rw [← h.2]
  exact hrest

/-- `AllowedRun` computed: the side condition is checked at each step up to
the first that fails, after which nothing is asked. -/
def allowedRunB [∀ s i, Decidable (Allowed s i)] : σ → List ι → Bool
  | _, [] => true
  | s, i :: is => decide (Allowed s i) &&
      match step s i with
      | none => true
      | some (_, s') => allowedRunB s' is

theorem allowedRun_of_allowedRunB [∀ s i, Decidable (Allowed s i)] :
    ∀ (s : σ) (is : List ι), allowedRunB step Allowed s is = true → AllowedRun step Allowed s is
  | _, [], _ => trivial
  | s, i :: is, h => by
    rw [allowedRunB, Bool.and_eq_true, decide_eq_true_eq] at h
    refine ⟨h.1, fun r s' hs => ?_⟩
    have hrest := h.2
    rw [hs] at hrest
    exact allowedRun_of_allowedRunB s' is hrest

/-- Steps admitted by a condition on the input alone admit every run of
inputs that satisfy it. -/
theorem allowedRun_of_forall (A : ι → Prop) :
    ∀ (is : List ι) (s : σ), (∀ i ∈ is, A i) → AllowedRun step (fun _ i => A i) s is
  | [], _, _ => trivial
  | i :: is, s, h => ⟨h i (by simp), fun _ s' _ => allowedRun_of_forall A is s' fun j hj => h j (by simp [hj])⟩

/-- The invariant rule: a property that every admitted step keeps holds after
every run made of admitted steps. -/
theorem run_inv (P : σ → Prop)
    (hstep : ∀ s i r s', Allowed s i → P s → step s i = some (r, s') → P s') :
    ∀ (is : List ι) (s : σ) (rs : List ρ) (s' : σ), AllowedRun step Allowed s is → P s →
      run step s is = some (rs, s') → P s'
  | [], s, rs, s', _, hs, h => by
    simp only [run_nil, Option.some.injEq, Prod.mk.injEq] at h
    rw [← h.2]
    exact hs
  | i :: is, s, rs, s', hrun, hs, h => by
    obtain ⟨⟨r, s1⟩, hs1, hrest⟩ := Option.bind_eq_some_iff.mp h
    obtain ⟨⟨rs1, s2⟩, hrun1, heq⟩ := Option.map_eq_some_iff.mp hrest
    simp only [Prod.mk.injEq] at heq
    rw [← heq.2]
    exact run_inv P hstep is s1 rs1 s2 (hrun.2 r s1 hs1) (hstep s i r s1 hrun.1 hs hs1) hrun1

/-- The rule for failures: a run of admitted steps, from a state with the
invariant, that fails, fails at an admitted step taken from a state with the
invariant. -/
theorem run_eq_none (P : σ → Prop)
    (hstep : ∀ s i r s', Allowed s i → P s → step s i = some (r, s') → P s') :
    ∀ (is : List ι) (s : σ), AllowedRun step Allowed s is → P s → run step s is = none →
      ∃ s' i, i ∈ is ∧ P s' ∧ Allowed s' i ∧ step s' i = none
  | [], s, _, _, h => by simp at h
  | i :: is, s, hrun, hs, h => by
    rw [run_cons] at h
    cases hs1 : step s i with
    | none => exact ⟨s, i, by simp, hs, hrun.1, hs1⟩
    | some rs =>
      obtain ⟨r, s1⟩ := rs
      rw [hs1, Option.bind_some] at h
      -- the rest of the run fails, from the state this step reached
      have hrest : run step s1 is = none := Option.map_eq_none_iff.mp h
      obtain ⟨s', j, hj, hrest'⟩ :=
        run_eq_none P hstep is s1 (hrun.2 r s1 hs1) (hstep s i r s1 hrun.1 hs hs1) hrest
      exact ⟨s', j, List.mem_cons_of_mem i hj, hrest'⟩

/-- The totality rule: when every admitted step from a state of `P` returns
a value of `Q` and a state of `P`, every run of admitted steps from a state
of `P` returns, with values of `Q` only, in a state of `P`. -/
theorem run_total (P : σ → Prop) (Q : ρ → Prop)
    (hstep : ∀ s i, Allowed s i → P s → ∃ r s', step s i = some (r, s') ∧ Q r ∧ P s') :
    ∀ (is : List ι) (s : σ), AllowedRun step Allowed s is → P s →
      ∃ rs s', run step s is = some (rs, s') ∧ (∀ r ∈ rs, Q r) ∧ P s'
  | [], s, _, hs => ⟨[], s, rfl, fun _ h => (by cases h), hs⟩
  | i :: is, s, hrun, hs => by
    obtain ⟨r, s1, hs1, hq, hp⟩ := hstep s i hrun.1 hs
    obtain ⟨rs, s', hrest, hqs, hp'⟩ := run_total P Q hstep is s1 (hrun.2 r s1 hs1) hp
    refine ⟨r :: rs, s', by simp only [run_cons, hs1, Option.bind_some, hrest, Option.map_some], ?_, hp'⟩
    intro r' hr'
    rcases List.mem_cons.mp hr' with rfl | hr'
    · exact hq
    · exact hqs r' hr'

/-- The states reached from a state of `Start` by steps that `Allowed`
admits. -/
inductive Reachable (Start : σ → Prop) : σ → Prop
  | start {s : σ} : Start s → Reachable Start s
  | step {s s' : σ} {i : ι} {r : ρ} : Reachable Start s → Allowed s i → step s i = some (r, s') → Reachable Start s'

/-- The invariant rule for reached states: a property of every start state
that every admitted step keeps. -/
theorem Reachable.inv {Start : σ → Prop} (P : σ → Prop) (hstart : ∀ s, Start s → P s)
    (hstep : ∀ s i r s', Allowed s i → P s → step s i = some (r, s') → P s') {s : σ}
    (hs : Reachable step Allowed Start s) : P s := by
  induction hs with
  | start h => exact hstart _ h
  | step _ ha hst ih => exact hstep _ _ _ _ ha ih hst

/-- A run of admitted steps from a reached state ends in a reached state. -/
theorem Reachable.of_run {Start : σ → Prop} :
    ∀ (is : List ι) {s s' : σ} {rs : List ρ}, AllowedRun step Allowed s is → Reachable step Allowed Start s →
      run step s is = some (rs, s') → Reachable step Allowed Start s'
  | [], _, _, _, _, hs, hrun => by
    simp only [run_nil, Option.some.injEq, Prod.mk.injEq] at hrun
    rw [← hrun.2]
    exact hs
  | i :: is, _, _, _, hall, hs, hrun => by
    obtain ⟨⟨r, s₁⟩, hstep, hrest⟩ := Option.bind_eq_some_iff.mp hrun
    obtain ⟨⟨rs₁, s₂⟩, hrun₁, heq⟩ := Option.map_eq_some_iff.mp hrest
    simp only [Prod.mk.injEq] at heq
    rw [← heq.2]
    exact Reachable.of_run is (hall.2 r s₁ hstep) (.step hs hall.1 hstep) hrun₁

end Invariant

/-- The invariant rule for a left fold: what holds of the start and is kept
by the step at every element holds at the end. -/
theorem foldl_inv {α β : Type} (P : β → Prop) (f : β → α → β) :
    ∀ (l : List α) (b : β), P b → (∀ b, ∀ a ∈ l, P b → P (f b a)) → P (l.foldl f b)
  | [], _, hb, _ => hb
  | a :: l, b, hb, hf => foldl_inv P f l (f b a) (hf b a List.mem_cons_self hb)
      (fun b' a' ha' hb' => hf b' a' (List.mem_cons_of_mem a ha') hb')

end StepRun
