import Mathlib
import Lustre.Wbc.Cmd
import Lustre.Wbc.Reservation.Spec
import Lustre.Lib.ExceptPost

/-! # What a command can set, and the reclaim thread

Every command `wbc_cmd_parse` accepts carries a ratio in `[0, 100)`
(`wbcCmdParse_ratio`), so every state a run of commands, creates, removals
and reclaim passes reaches from `wbc_super_init` has one
(`wbc_event_run_ratio`). The high-water counts, though, are computed only by a
command that sets the ratio, and a pass of the reclaim thread does nothing once half of the limit is free
(`wbcEventRun_reclaim_of_le`), whether or not the trigger holds. With a ratio
of 1 the trigger holds at two inodes of a hundred, and the thread spins.
-/

namespace Lustre.Wbc

open CFormat Except

/-! ## What a command can set -/

/-- The ratio a value sets is one `hiwm_ratio` accepts. -/
def WbcConfValue.RatioOk : WbcConfValue → Prop
  | .hiwmRatio r => 0 ≤ r ∧ r < 100
  | _ => True

/-! The value branches that read a number with `memparse`. -/

theorem wbcParseLimit_post {P : WbcConfValue → Prop} {val : List Char} {f : UInt64 → WbcConfValue}
    (h : ∀ n, P (f n)) : (wbcParseLimit val f).Post P := by
  unfold wbcParseLimit
  exact post_ite (fun _ => post_error) (fun _ => post_ok (h _))

theorem wbcParseSize_post {P : WbcConfValue → Prop} {ps tr : Nat} {val : List Char}
    (h : ∀ n, P (.maxPages n)) : (wbcParseSize ps tr val).Post P := by
  unfold wbcParseSize
  exact post_ite (fun _ => post_error) (fun _ => post_ok (h _))

/-- Only `hiwm_ratio` sets the ratio, and only to a value below 100. -/
theorem wbcParseValue_ratioOk (ps tr : Nat) (key val : List Char) :
    (wbcParseValue ps tr key val).Post WbcConfValue.RatioOk := by
  unfold wbcParseValue
  -- down the chain of keys, never deciding a comparison of strings
  repeat' first
    | refine post_ite (fun _ => ?_) (fun _ => ?_)
    | exact post_ok trivial
    | exact post_error
    | exact post_map (Q := fun _ => True) (post_of_forall fun _ => trivial) fun _ _ => trivial
    | exact wbcParseLimit_post fun _ => trivial
    | exact wbcParseSize_post fun _ => trivial
  -- hiwm_ratio: the value is below 100
  refine post_bind (Q := fun _ => True) (post_of_forall fun _ => trivial) fun num _ => ?_
  refine post_ite (fun _ => post_error) (fun hlt => post_ok ?_)
  have : num.toNat < 100 := UInt64.lt_iff_toNat_lt.mp (UInt64.not_le.mp hlt)
  exact ⟨by omega, by omega⟩

/-- A configuration whose ratio is one `hiwm_ratio` accepts. -/
def RatioInRange (conf : WbcConfTunables) : Prop := 0 ≤ conf.wbccHiwmRatio ∧ conf.wbccHiwmRatio < 100

instance : DecidablePred RatioInRange := fun _ => inferInstanceAs (Decidable (_ ∧ _))

theorem set_ratioInRange {cmd : WbcCmd} {v : WbcConfValue} (hc : RatioInRange cmd.wbccConf) (hv : v.RatioOk) :
    RatioInRange (cmd.set v).wbccConf := by
  cases v <;> first | exact hv | exact hc

theorem wbcParseValuePair_ratio (ps tr : Nat) {cmd : WbcCmd} (hc : RatioInRange cmd.wbccConf) (buffer : List Char) :
    (wbcParseValuePair ps tr cmd buffer).Post (RatioInRange ·.wbccConf) := by
  unfold wbcParseValuePair
  split
  · exact post_error
  · exact post_error
  · exact post_map (wbcParseValue_ratioOk ps tr _ _) fun _ hv => set_ratioInRange hc hv

theorem wbcParseValuePairs_ratio (ps tr fuel : Nat) {cmd : WbcCmd} (hc : RatioInRange cmd.wbccConf)
    (val : Option (List Char)) : (wbcParseValuePairs ps tr fuel cmd val).Post (RatioInRange ·.wbccConf) := by
  induction fuel generalizing cmd val with
  | zero => exact post_ok hc
  | succ fuel ih =>
    rcases val with _ | _ | ⟨c, val⟩
    · exact post_ok hc
    · exact post_ok hc
    · simp only [wbcParseValuePairs]
      split
      · exact post_error
      · rename_i hpair
        exact ih (wbcParseValuePair_ratio ps tr hc _ _ hpair) _

/-- Every command `wbc_cmd_parse` accepts carries a ratio in `[0, 100)`. -/
theorem wbcCmdParse_ratio (ps tr : Nat) (buffer : List Char) :
    (wbcCmdParse ps tr buffer).Post (RatioInRange ·.wbccConf) := by
  have h0 : RatioInRange wbcConfZero := by decide
  unfold wbcCmdParse
  refine post_ite (fun _ => post_ok h0) fun _ => post_ite (fun _ => post_ok h0) fun _ => post_ite (fun _ => post_ok h0) fun _ => ?_
  -- the token before the first blank, then what follows it
  split
  split
  · exact post_error
  · exact post_error
  · exact post_ite (fun _ => wbcParseValuePairs_ratio ps tr _ h0 _) fun _ => post_error

/-! ## Applying a command -/

section Update

variable {cmd : WbcCmd} {bit : UInt32} {f : WbcConfTunables → WbcConfTunables} {conf : WbcConfTunables}

/-- A field of the configuration after one `if (cmd->wbcc_flags & bit)`. -/
theorem WbcCmd.takeIf_apply {β : Type} (g : WbcConfTunables → β) :
    g (cmd.takeIf bit f conf) = if cmd.has bit then g (f conf) else g conf := by
  unfold WbcCmd.takeIf
  split <;> rfl

theorem wbcConfUpdateTunables_ratio (m : UInt64) :
    (wbcConfUpdateTunables m conf cmd).wbccHiwmRatio =
      if cmd.has wbcCmdOpReclaimRatio then cmd.wbccConf.wbccHiwmRatio else conf.wbccHiwmRatio := by
  simp only [wbcConfUpdateTunables, WbcCmd.takeIf_apply WbcConfTunables.wbccHiwmRatio,
    apply_ite WbcConfTunables.wbccHiwmRatio, ite_self]

end Update

/-- A configuration command leaves the state as it was, or takes the inode
limit from the reservation model and the rest from the command. -/
theorem wbcSuperConfUpdateCmd_cases (st : WbcState) (cmd : WbcCmd) :
    (wbcSuperConfUpdateCmd st cmd).2 = st ∨
      ∃ super, (wbcSuperConfUpdateCmd st cmd).2 =
        { super, tunables := wbcConfUpdateTunables super.wbcsConf.wbccMaxInodes st.tunables cmd } := by
  unfold wbcSuperConfUpdateCmd
  extract_lets inodesLimit pagesRefused
  split
  · exact Or.inr ⟨_, rfl⟩
  · exact Or.inl rfl

/-! ## The ratio of every reachable state -/

theorem wbcSuperResetCommonConf_ratio (conf : WbcConfTunables) : RatioInRange (wbcSuperResetCommonConf conf) := by
  show 0 ≤ wbcDefaultHiwmRatio ∧ wbcDefaultHiwmRatio < 100
  decide

theorem wbcSuperConfUpdateCmd_ratio {st : WbcState} {cmd : WbcCmd} (hs : RatioInRange st.tunables)
    (hc : RatioInRange cmd.wbccConf) : RatioInRange (wbcSuperConfUpdateCmd st cmd).2.tunables := by
  rcases wbcSuperConfUpdateCmd_cases st cmd with h | ⟨super, h⟩
  · rw [h]
    exact hs
  · rw [h]
    unfold RatioInRange
    rw [wbcConfUpdateTunables_ratio]
    split
    · exact hc
    · exact hs

theorem wbcCmdHandle_ratio {st : WbcState} {cmd : WbcCmd} (hs : RatioInRange st.tunables)
    (hc : RatioInRange cmd.wbccConf) : ∀ r ∈ wbcCmdHandle st cmd, RatioInRange r.2.tunables := by
  intro r hr
  unfold wbcCmdHandle at hr
  split at hr
  · -- disable: the common configuration is reset
    obtain ⟨st', hst', rfl⟩ := Option.mem_map.mp hr
    unfold wbcSuperDisableCacheCmd at hst'
    simp only [Option.bind_eq_bind, Option.mem_def, Option.bind_eq_some_iff] at hst'
    obtain ⟨_, _, hst'⟩ := hst'
    split at hst'
    · cases hst'
    · cases hst'
      exact wbcSuperResetCommonConf_ratio _
  · -- enable: the defaults leave the ratio
    split at hr
    · cases hr
      exact hs
    · cases hr
      exact hs
  · cases hr
    exact wbcSuperConfUpdateCmd_ratio hs hc
  · cases hr
    exact wbcSuperConfUpdateCmd_ratio hs hc
  · cases hr
    exact hs

theorem wbcEventStep_ratio (ps tr : Nat) {st : WbcState} (hs : RatioInRange st.tunables) (e : WbcEvent) :
    ∀ r ∈ wbcEventStep ps tr st e, RatioInRange r.2.tunables := by
  intro r hr
  cases e with
  | cmd buffer =>
    simp only [wbcEventStep, wbcCmdParseAndHandle] at hr
    cases hcmd : wbcCmdParse ps tr buffer with
    | error rc =>
      rw [hcmd] at hr
      cases hr
      exact hs
    | ok cmd =>
      rw [hcmd] at hr
      exact wbcCmdHandle_ratio hs (wbcCmdParse_ratio ps tr buffer _ hcmd) r hr
  | create opc dir nameLen outcome =>
    simp only [wbcEventStep] at hr
    obtain ⟨_, _, rfl⟩ := Option.mem_map.mp hr
    exact hs
  | remove dir ino =>
    simp only [wbcEventStep] at hr
    obtain ⟨_, _, rfl⟩ := Option.mem_map.mp hr
    exact hs
  | reclaim =>
    simp only [wbcEventStep] at hr
    split at hr
    · obtain ⟨_, _, rfl⟩ := Option.mem_map.mp hr
      exact hs
    · cases hr
      exact hs

theorem reclaimLoop_of_le {low : UInt64} {s : WbcSuper} (h : low ≤ s.wbcsConf.wbccFreeInodes) (fuel : Nat) :
    reclaimLoop low fuel s = some s := by
  cases fuel with
  | zero => rfl
  | succ fuel => rw [reclaimLoop, if_neg (UInt64.not_lt.mpr h)]

theorem wbcEventStep_reclaim_of_le (ps tr : Nat) {st : WbcState}
    (h : (st.super.wbcsConf.wbccMaxInodes >>> 1).toUInt32.toUInt64 ≤ st.super.wbcsConf.wbccFreeInodes) :
    wbcEventStep ps tr st .reclaim = some (0, st) := by
  simp only [wbcEventStep]
  split
  · simp only [wbcReclaimInodes, reclaimLoop_of_le h]
    rfl
  · rfl

/-- Once half of the limit is free, a pass of the reclaim thread changes
nothing, however many inodes are in use. -/
theorem wbcEventRun_reclaim_of_le (ps tr : Nat) {st : WbcState}
    (h : (st.super.wbcsConf.wbccMaxInodes >>> 1).toUInt32.toUInt64 ≤ st.super.wbcsConf.wbccFreeInodes) (n : Nat) :
    wbcEventRun ps tr st (List.replicate n .reclaim) = some st := by
  induction n with
  | zero => rfl
  | succ n ih =>
    rw [List.replicate_succ, wbcEventRun, wbcEventStep_reclaim_of_le ps tr h]
    exact ih

/-! ## A reclaim thread that spins -/

/-- The super block of a mount whose root the MDT sent as a cached tree,
as `wbc_super_init` leaves its configuration. -/
def rootInit : WbcState := { wbcSuperInit with super := rootCached }

/-- A limit of 100 inodes with a ratio of 1, then two files created in the
root. -/
def ratioOneEvents : List WbcEvent :=
  [.cmd "conf max_inodes=100 hiwm_ratio=1".toList, .create .create 0 1 .ok, .create .create 0 1 .ok]

/-- The state those events lead to. -/
def ratioOneState : WbcState := (wbcEventRun 12 0 rootInit ratioOneEvents).getD rootInit

/-- With a limit of 100 inodes and a ratio of 1, two files in the cache
already trip the trigger, but 98 inodes are free, more than the half that
`wbc_reclaim_inodes` reclaims down to: each pass of the thread finds too
many inodes, releases nothing and leaves the reserved LRU as it is. A later
`conf max_inodes=1000` keeps the count of 1, not the 10 the ratio gives. -/
theorem wbc_reclaim_spins_at_low_ratio :
    wbcEventRun 12 0 rootInit ratioOneEvents = some ratioOneState ∧
      ratioOneState.tunables.wbccHiwmRatio = 1 ∧
      wbcCacheTooMuchInodes ratioOneState = true ∧ ratioOneState.super.wbcsRsvdInodeLru ≠ [] ∧
      (∀ n, wbcEventRun 12 0 ratioOneState (List.replicate n .reclaim) = some ratioOneState) ∧
      (wbcEventRun 12 0 ratioOneState [.cmd "conf max_inodes=1000".toList]).map
          (fun st => (st.super.wbcsConf.wbccMaxInodes, st.tunables.wbccHiwmInodesCount)) = some (1000, 1) ∧
      hiwmCount 1000 1 = 10 :=
  ⟨by decide, by decide, by decide, by decide, wbcEventRun_reclaim_of_le 12 0 (by decide), by decide, by decide⟩

end Lustre.Wbc
