import Mathlib
import Lustre.Ldlm.Flock

/-! # A conflict the server does not look for

`ldlm_process_flock_lock` skips its scan for conflicting locks when
`*flags == LDLM_FL_WAIT_NOREPROC`, the value the client's completion path
passes. On the server the flags are those of the request as they came off
the wire (`ldlm_handle_enqueue`: `flags = ldlm_flags_from_wire(
dlm_req->lock_flags)`, unmasked, through `ldlm_lock_enqueue` to the policy),
so an enqueue that carries exactly that bit is granted without the scan,
beside any lock of another owner.
-/

namespace Lustre.Ldlm

/-- No two granted locks of different owners with incompatible modes
overlap. -/
def FlockSafe (granted : List FlockLock) : Prop :=
  ∀ a ∈ granted, ∀ b ∈ granted,
    ldlmSameFlockOwner a b = true ∨ lockmodeCompat a.mode b.mode = true ∨ ldlmFlocksOverlap a b = false

instance (granted : List FlockLock) : Decidable (FlockSafe granted) := by
  unfold FlockSafe
  infer_instance

/-! ## Two writers on one range -/

/-- A server whose owners never deadlock and whose allocations succeed. -/
def quietEnv : FlockEnv := ⟨fun _ _ => false, fun _ => false, fun _ => true⟩

/-- Owner 1 holds `PW` on `[0, 10]`. -/
def pwLow : FlockLock := ⟨1, 1, 100, .pw, 0, 10⟩

/-- Owner 2 asks for `PW` on `[5, 15]`. -/
def pwHigh : FlockLock := ⟨2, 2, 200, .pw, 5, 15⟩

/-- With no flag the second writer waits; with the wire flags exactly
`LDLM_FL_WAIT_NOREPROC` it is granted, and two writers hold `[5, 10]`. -/
theorem flock_noreproc_grants_conflict :
    (ldlmProcessFlockLock quietEnv pwHigh 0 .enqueue ⟨[pwLow], []⟩).1 = .blocked ∧
      ldlmProcessFlockLock quietEnv pwHigh ldlmFlWaitNoreproc .enqueue ⟨[pwLow], []⟩ =
        (.granted, ⟨[pwLow, pwHigh], []⟩) ∧
      FlockSafe [pwLow] ∧ ¬ FlockSafe [pwLow, pwHigh] := by
  decide

end Lustre.Ldlm
