import Mathlib
import Lustre.Basic
import Lustre.Wbc.Reservation
import Lustre.Lib.Scanf

/-! # WBC commands and the reclaim thread

`lustre/llite/wbc.c` and `wbc.h`. A command written to the `conf` file of a
client's debugfs directory is parsed by `wbc_cmd_parse` into a `struct
wbc_cmd` and applied by `wbc_cmd_handle`: `disable`, `enable`, `clear`, or
`conf` with `key=value` pairs separated by single blanks. The reclaim thread
`ll_wbc_reclaim_main` starts reclaiming inodes once more of the inode limit is
in use than `wbcc_hiwm_inodes_count`, and reclaims until half of the limit is
free.

The configuration `struct wbc_conf` is split in two here: its inode counters
are `WbcConf` of the reservation model, inside `WbcSuper`, and the rest is
`WbcConfTunables`. `wbcc_used_pages`, a per-CPU counter, is its sum.

The kernel helpers the parser calls are modelled from the kernel's
`lib/kstrtox.c`, `lib/vsprintf.c` and `lib/cmdline.c`: `kstrtoul` (with the
conversion of `Lustre.Lib.Scanf`), `kstrtobool`, `simple_strtoull` and
`memparse`. `PAGE_SHIFT` and the machine's RAM in pages, which the `size`
key reads, are parameters. Shrinking the roots, which `disable` and `clear`
do, is not modelled: `clear` leaves the configuration as it is.
-/

namespace Lustre.Wbc

open CFormat

/-! ## The configuration -/

/-- `enum lu_wbc_cache_mode`. -/
inductive LuWbcCacheMode where
  | none
  | memfs
  | dataPcc
  deriving DecidableEq, Repr

/-- `enum lu_wbc_flush_mode`; `WBC_FLUSH_LAZY_DEFAULT` and
`WBC_FLUSH_DEFAULT_MODE` are `WBC_FLUSH_LAZY_DROP`. -/
inductive LuWbcFlushMode where
  | none
  | lazyDrop
  | lazyKeep
  | agingDrop
  | agingKeep
  deriving DecidableEq, Repr

/-- `enum wbc_remove_policy`; `WBC_RMPOL_DEFAULT` is `WBC_RMPOL_SYNC`. -/
inductive WbcRemovePolicy where
  | none
  | sync
  | delay
  | subtree
  deriving DecidableEq, Repr

/-- `enum wbc_readdir_policy`; `WBC_READDIR_POL_DEFAULT` is
`WBC_READDIR_DCACHE_COMPAT`. -/
inductive WbcReaddirPolicy where
  | dcacheCompat
  | dcacheDecomplete
  deriving DecidableEq, Repr

/-- `enum wbc_flush_policy`; `WBC_FLUSH_POL_DEFAULT` is
`WBC_FLUSH_POL_PTLRPCD`. -/
inductive WbcFlushPolicy where
  | rqset
  | batch
  | ptlrpcd
  deriving DecidableEq, Repr

/-- `WBC_DEFAULT_MAX_RPCS`. -/
def wbcDefaultMaxRpcs : UInt32 := 0

/-- `WBC_DEFAULT_MAX_QLEN`. -/
def wbcDefaultMaxQlen : UInt32 := 8192

/-- `WBC_DEFAULT_MAX_NRPAGES_PER_FILE`: `ULONG_MAX`. -/
def wbcDefaultMaxNrpagesPerFile : UInt64 := 0xFFFFFFFFFFFFFFFF

/-- `OBD_MAX_FIDS_IN_ARRAY`. -/
def obdMaxFidsInArray : UInt32 := 4096

/-- `WBC_DEFAULT_HIWM_RATIO`: reclaim is off. -/
def wbcDefaultHiwmRatio : Int := 0

/-- The fields of `struct wbc_conf` besides the inode counters. -/
structure WbcConfTunables where
  wbccCacheMode : LuWbcCacheMode
  wbccFlushMode : LuWbcFlushMode
  wbccRmpol : WbcRemovePolicy
  wbccReaddirPol : WbcReaddirPolicy
  wbccFlushPol : WbcFlushPolicy
  wbccMaxBatchCount : UInt32
  wbccMaxRpcs : UInt32
  wbccMaxQlen : UInt32
  wbccMaxNrpagesPerFile : UInt64
  wbccMaxRmfidCount : UInt32
  wbccBackgroundAsyncRpc : Bool
  wbccMaxPages : UInt64
  wbccUsedPages : Nat
  wbccHiwmRatio : Int
  wbccHiwmInodesCount : UInt32
  wbccHiwmPagesCount : UInt32
  wbccDirtyFlushThresh : UInt64
  wbccActiveDataWriteback : Bool
  deriving DecidableEq, Repr

/-- The configuration of one super block with the inode reservations. -/
structure WbcState where
  super : WbcSuper
  tunables : WbcConfTunables
  deriving DecidableEq, Repr

/-- `enum wbc_cmd_type`. -/
inductive WbcCmdType where
  | disable
  | enable
  | config
  | change
  | clear
  deriving DecidableEq, Repr

/-- `WBC_CMD_OP_CACHE_MODE` and the other bits of `enum wbc_cmd_op`. -/
def wbcCmdOpCacheMode : UInt32 := 0x0001
def wbcCmdOpFlushMode : UInt32 := 0x0002
def wbcCmdOpMaxRpcs : UInt32 := 0x0004
def wbcCmdOpRmpol : UInt32 := 0x0008
def wbcCmdOpInodesLimit : UInt32 := 0x0010
def wbcCmdOpPagesLimit : UInt32 := 0x0020
def wbcCmdOpReaddirPol : UInt32 := 0x0040
def wbcCmdOpReclaimRatio : UInt32 := 0x0080
def wbcCmdOpFlushPol : UInt32 := 0x0100
def wbcCmdOpMaxBatchCount : UInt32 := 0x0200
def wbcCmdOpMaxQlen : UInt32 := 0x0400
def wbcCmdOpMaxNrpagesPerFile : UInt32 := 0x0800
def wbcCmdOpMaxRmfidCount : UInt32 := 0x1000
def wbcCmdOpDirtyFlushThresh : UInt32 := 0x2000
def wbcCmdOpActiveDataWriteback : UInt32 := 0x4000

/-- `struct wbc_cmd`: the operation bits, the type and the values; its
`wbc_conf` is the inode limit and the tunables. -/
structure WbcCmd where
  wbccFlags : UInt32
  wbccCmd : WbcCmdType
  wbccMaxInodes : UInt64
  wbccConf : WbcConfTunables
  deriving DecidableEq, Repr

/-- A zeroed `struct wbc_conf`, as `OBD_ALLOC_PTR` leaves the command's. -/
def wbcConfZero : WbcConfTunables :=
  { wbccCacheMode := .none, wbccFlushMode := .none, wbccRmpol := .none, wbccReaddirPol := .dcacheCompat,
    wbccFlushPol := .rqset, wbccMaxBatchCount := 0, wbccMaxRpcs := 0, wbccMaxQlen := 0,
    wbccMaxNrpagesPerFile := 0, wbccMaxRmfidCount := 0, wbccBackgroundAsyncRpc := false, wbccMaxPages := 0,
    wbccUsedPages := 0, wbccHiwmRatio := 0, wbccHiwmInodesCount := 0, wbccHiwmPagesCount := 0,
    wbccDirtyFlushThresh := 0, wbccActiveDataWriteback := false }

/-! ## Kernel helpers -/

/-- `strsep(&s, delim)` for one delimiter: the token before it and what
follows it, `NULL` when it does not occur. -/
def strsep (s : List Char) (delim : Char) : List Char × Option (List Char) :=
  match s.span (· ≠ delim) with
  | (tok, []) => (tok, none)
  | (tok, _ :: rest) => (tok, some rest)

/-- `kstrtoul(s, base, &res)` on a 64-bit kernel, with the error as the
negative errno. -/
def kstrtoul (s : List Char) (base : Nat) : Except Int UInt64 :=
  match kstrtoull s base with
  | .ok v => .ok (UInt64.ofNat v)
  | .error .range => .error (-erange)
  | .error .inval => .error (-einval)

/-- `kstrtobool(s, &res)`: `y`, `Y`, `1`, `on` are true and `n`, `N`, `0`,
`off` false, by their first one or two characters. -/
def kstrtobool : List Char → Except Int Bool
  | 'y' :: _ | 'Y' :: _ | '1' :: _ => .ok true
  | 'n' :: _ | 'N' :: _ | '0' :: _ => .ok false
  | 'o' :: 'n' :: _ | 'o' :: 'N' :: _ | 'O' :: 'n' :: _ | 'O' :: 'N' :: _ => .ok true
  | 'o' :: 'f' :: _ | 'o' :: 'F' :: _ | 'O' :: 'f' :: _ | 'O' :: 'F' :: _ => .ok false
  | _ => .error (-einval)

/-- `simple_strtoull(s, &end, 0)`: the value of the digits at the front, in
the radix the prefix picks, and what follows them. -/
def simpleStrtoull (s : List Char) : UInt64 × List Char :=
  let base := autoRadix s
  let s := fixupRadix base s
  let r := parseInteger base 0 s
  (UInt64.ofNat r.1, s.drop r.2)

/-- The shifts of a `memparse` suffix: `K`, `M`, `G`, `T`, `P`, `E`, in
either case. -/
def memparseShifts : Char → Option Nat
  | 'K' | 'k' => some 1
  | 'M' | 'm' => some 2
  | 'G' | 'g' => some 3
  | 'T' | 't' => some 4
  | 'P' | 'p' => some 5
  | 'E' | 'e' => some 6
  | _ => none

/-- `memparse(s, &rest)`: a number with an optional size suffix, each step
of the suffix a shift by 10 bits. -/
def memparse (s : List Char) : UInt64 × List Char :=
  let (ret, rest) := simpleStrtoull s
  match rest with
  | c :: rest' =>
    match memparseShifts c with
    | some k => (ret <<< (UInt64.ofNat (10 * k)), rest')
    | none => (ret, rest)
  | [] => (ret, [])

/-! ## Parsing -/

/-- A value that one `key=value` pair sets in the command's configuration. -/
inductive WbcConfValue where
  | cacheMode (m : LuWbcCacheMode)
  | flushMode (m : LuWbcFlushMode)
  | maxRpcs (n : UInt32)
  | maxQlen (n : UInt32)
  | maxNrpagesPerFile (n : UInt64)
  | maxRmfidCount (n : UInt32)
  | rmpol (p : WbcRemovePolicy)
  | readdirPol (p : WbcReaddirPolicy)
  | hiwmRatio (r : Int)
  | maxInodes (n : UInt64)
  | maxPages (n : UInt64)
  | flushPol (p : WbcFlushPolicy)
  | maxBatchCount (n : UInt32)
  | dirtyFlushThresh (n : UInt64)
  | activeDataWriteback (b : Bool)
  deriving DecidableEq, Repr

/-- The command with a new configuration and one more bit. -/
def WbcCmd.withConf (cmd : WbcCmd) (bit : UInt32) (conf : WbcConfTunables) : WbcCmd :=
  { cmd with wbccConf := conf, wbccFlags := cmd.wbccFlags ||| bit }

/-- What a branch of `wbc_parse_value_pair` does once the value is read:
the field of the command's configuration set, and its bit of
`wbcc_flags`. -/
def WbcCmd.set (cmd : WbcCmd) : WbcConfValue → WbcCmd
  | .cacheMode m => cmd.withConf wbcCmdOpCacheMode { cmd.wbccConf with wbccCacheMode := m }
  | .flushMode m => cmd.withConf wbcCmdOpFlushMode { cmd.wbccConf with wbccFlushMode := m }
  | .maxRpcs n => cmd.withConf wbcCmdOpMaxRpcs { cmd.wbccConf with wbccMaxRpcs := n }
  | .maxQlen n => cmd.withConf wbcCmdOpMaxQlen { cmd.wbccConf with wbccMaxQlen := n }
  | .maxNrpagesPerFile n =>
    cmd.withConf wbcCmdOpMaxNrpagesPerFile { cmd.wbccConf with wbccMaxNrpagesPerFile := n }
  | .maxRmfidCount n => cmd.withConf wbcCmdOpMaxRmfidCount { cmd.wbccConf with wbccMaxRmfidCount := n }
  | .rmpol p => cmd.withConf wbcCmdOpRmpol { cmd.wbccConf with wbccRmpol := p }
  | .readdirPol p => cmd.withConf wbcCmdOpReaddirPol { cmd.wbccConf with wbccReaddirPol := p }
  | .hiwmRatio r => cmd.withConf wbcCmdOpReclaimRatio { cmd.wbccConf with wbccHiwmRatio := r }
  | .maxInodes n => { cmd with wbccMaxInodes := n, wbccFlags := cmd.wbccFlags ||| wbcCmdOpInodesLimit }
  | .maxPages n => cmd.withConf wbcCmdOpPagesLimit { cmd.wbccConf with wbccMaxPages := n }
  | .flushPol p => cmd.withConf wbcCmdOpFlushPol { cmd.wbccConf with wbccFlushPol := p }
  | .maxBatchCount n => cmd.withConf wbcCmdOpMaxBatchCount { cmd.wbccConf with wbccMaxBatchCount := n }
  | .dirtyFlushThresh n => cmd.withConf wbcCmdOpDirtyFlushThresh { cmd.wbccConf with wbccDirtyFlushThresh := n }
  | .activeDataWriteback b =>
    cmd.withConf wbcCmdOpActiveDataWriteback { cmd.wbccConf with wbccActiveDataWriteback := b }

/-- The `max_inodes` and `max_pages` branches of `wbc_parse_value_pair`:
`memparse` of the whole value, `-EINVAL` when anything follows it. -/
def wbcParseLimit (val : List Char) (f : UInt64 → WbcConfValue) : Except Int WbcConfValue :=
  let (num, rest) := memparse val
  if rest ≠ [] then .error (-einval) else .ok (f num)

/-- The `size` branch of `wbc_parse_value_pair`: bytes, or a percentage of
the RAM, as pages rounded up. -/
def wbcParseSize (pageShift totalramPages : Nat) (val : List Char) : Except Int WbcConfValue :=
  let (size, rest) := memparse val
  let (size, rest) := match rest with
    | '%' :: rest => ((size <<< UInt64.ofNat pageShift) * UInt64.ofNat totalramPages / 100, rest)
    | rest => (size, rest)
  if rest ≠ [] then .error (-einval)
  else
    let pageSize : UInt64 := 1 <<< UInt64.ofNat pageShift
    .ok (.maxPages ((size + pageSize - 1) / pageSize))

/-- The chain of `strcmp`s of `wbc_parse_value_pair` on the key and its
value: what the pair sets, or the error it returns. -/
def wbcParseValue (pageShift totalramPages : Nat) (key val : List Char) : Except Int WbcConfValue :=
  if key = "cache_mode".toList then
    if val = "memfs".toList then .ok (.cacheMode .memfs)
    else if val = "dop".toList then .ok (.cacheMode .dataPcc)
    else .error (-einval)
  else if key = "flush_mode".toList then
    if val = "lazy".toList then .ok (.flushMode .lazyDrop)
    else if val = "lazy_drop".toList then .ok (.flushMode .lazyDrop)
    else if val = "lazy_keep".toList then .ok (.flushMode .lazyKeep)
    else if val = "aging_drop".toList then .ok (.flushMode .agingDrop)
    else if val = "aging_keep".toList then .ok (.flushMode .agingKeep)
    else .error (-einval)
  else if key = "max_rpcs".toList then (kstrtoul val 10).map fun num => .maxRpcs num.toUInt32
  else if key = "max_qlen".toList then (kstrtoul val 10).map fun num => .maxQlen num.toUInt32
  else if key = "max_nrpages_per_file".toList then (kstrtoul val 10).map .maxNrpagesPerFile
  else if key = "max_rmfid_count".toList then (kstrtoul val 10).map fun num => .maxRmfidCount num.toUInt32
  else if key = "rmpol".toList then
    if val = "sync".toList then .ok (.rmpol .sync)
    else if val = "delay".toList then .ok (.rmpol .delay)
    else if val = "subtree".toList then .ok (.rmpol .subtree)
    else .error (-einval)
  else if key = "readdir_pol".toList then
    if val = "dcache_compat".toList then .ok (.readdirPol .dcacheCompat)
    else if val = "dcache_decomp".toList then .ok (.readdirPol .dcacheDecomplete)
    else .error (-einval)
  else if key = "hiwm_ratio".toList then do
    let num ← kstrtoul val 10
    if num ≥ 100 then .error (-erange) else .ok (.hiwmRatio (num.toNat : Int))
  else if key = "max_inodes".toList then wbcParseLimit val .maxInodes
  else if key = "max_pages".toList then wbcParseLimit val .maxPages
  else if key = "size".toList then wbcParseSize pageShift totalramPages val
  else if key = "flush_pol".toList then
    if val = "batch".toList then .ok (.flushPol .batch)
    else if val = "rqset".toList then .ok (.flushPol .rqset)
    else .error (-einval)
  else if key = "max_batch_count".toList then (kstrtoul val 10).map fun num => .maxBatchCount num.toUInt32
  else if key = "dirty_flush_thresh".toList then (kstrtoul val 10).map .dirtyFlushThresh
  else if key = "active_data_writeback".toList ∨ key = "adw".toList then (kstrtobool val).map .activeDataWriteback
  else .error (-einval)

/-- `wbc_parse_value_pair(cmd, buffer)`: one `key=value` pair into the
command. -/
def wbcParseValuePair (pageShift totalramPages : Nat) (cmd : WbcCmd) (buffer : List Char) : Except Int WbcCmd :=
  match strsep buffer '=' with
  | (_, none) => .error (-einval)
  | (_, some []) => .error (-einval)
  | (key, some val) => cmd.set <$> wbcParseValue pageShift totalramPages key val

/-- The loop of `wbc_parse_value_pairs(cmd, buffer)`: the blank-separated
pairs in turn, for at most `fuel` of them; the first error stops it. -/
def wbcParseValuePairs (pageShift totalramPages : Nat) : Nat → WbcCmd → Option (List Char) → Except Int WbcCmd
  | 0, cmd, _ => .ok cmd
  | _ + 1, cmd, none => .ok cmd
  | _ + 1, cmd, some [] => .ok cmd
  | fuel + 1, cmd, some val =>
    let (token, val) := strsep val ' '
    match wbcParseValuePair pageShift totalramPages cmd token with
    | .error rc => .error rc
    | .ok cmd => wbcParseValuePairs pageShift totalramPages fuel cmd val

/-- `wbc_cmd_parse(buffer, count)`: the three plain commands by their
prefix, or `conf` and its pairs. -/
def wbcCmdParse (pageShift totalramPages : Nat) (buffer : List Char) : Except Int WbcCmd :=
  let cmd : WbcCmd := { wbccFlags := 0, wbccCmd := .disable, wbccMaxInodes := 0, wbccConf := wbcConfZero }
  if "disable".toList.isPrefixOf buffer then .ok { cmd with wbccCmd := .disable }
  else if "enable".toList.isPrefixOf buffer then .ok { cmd with wbccCmd := .enable }
  else if "clear".toList.isPrefixOf buffer then .ok { cmd with wbccCmd := .clear }
  else
    let (token, val) := strsep buffer ' '
    match val with
    | none => .error (-einval)
    | some [] => .error (-einval)
    | some val =>
      if token = "conf".toList then
        -- each pass takes a token and at least its blank
        wbcParseValuePairs pageShift totalramPages (val.length + 1) { cmd with wbccCmd := .config } (some val)
      else .error (-einval)

/-! ## Applying a command -/

/-- `wbc_super_reset_common_conf(conf)` on the tunables; the inode counters
are reset by `wbcSuperDisableCache`. -/
def wbcSuperResetCommonConf (conf : WbcConfTunables) : WbcConfTunables :=
  { conf with
    wbccRmpol := .sync, wbccReaddirPol := .dcacheCompat, wbccFlushPol := .ptlrpcd, wbccMaxBatchCount := 0,
    wbccMaxRpcs := wbcDefaultMaxRpcs, wbccMaxQlen := wbcDefaultMaxQlen,
    wbccMaxNrpagesPerFile := wbcDefaultMaxNrpagesPerFile, wbccMaxRmfidCount := obdMaxFidsInArray,
    wbccBackgroundAsyncRpc := false, wbccMaxPages := 0, wbccHiwmRatio := wbcDefaultHiwmRatio,
    wbccHiwmInodesCount := 0, wbccHiwmPagesCount := 0, wbccActiveDataWriteback := true }

/-- `wbc_super_init(super, sb)` on the configuration: no cache, no flush
mode, the common defaults, nothing reserved and no inode in core. -/
def wbcSuperInit : WbcState :=
  { super := { wbcsConf := ⟨0, 0⟩, wbcsRsvdInodeLru := [], inodes := [] },
    tunables := wbcSuperResetCommonConf { wbcConfZero with wbccCacheMode := .none, wbccFlushMode := .none } }

/-- `wbc_super_conf_default(conf)`. -/
def wbcSuperConfDefault (conf : WbcConfTunables) : WbcConfTunables :=
  { conf with
    wbccCacheMode := .memfs, wbccFlushMode := .lazyDrop, wbccRmpol := .sync, wbccMaxRpcs := wbcDefaultMaxRpcs,
    wbccMaxQlen := wbcDefaultMaxQlen, wbccMaxNrpagesPerFile := wbcDefaultMaxNrpagesPerFile,
    wbccMaxRmfidCount := obdMaxFidsInArray }

/-- Whether an operation bit is set in a command. -/
def WbcCmd.has (cmd : WbcCmd) (bit : UInt32) : Bool := cmd.wbccFlags &&& bit ≠ 0

/-- The high-water count of a limit: `max * wbcc_hiwm_ratio / 100` in
`unsigned long`, stored in a `__u32`. -/
def hiwmCount (max : UInt64) (ratio : Int) : UInt32 := (max * UInt64.ofInt ratio / 100).toUInt32

/-- One `if (cmd->wbcc_flags & bit)` of `wbc_super_conf_update`. -/
def WbcCmd.takeIf (cmd : WbcCmd) (bit : UInt32) (f : WbcConfTunables → WbcConfTunables)
    (conf : WbcConfTunables) : WbcConfTunables :=
  if cmd.has bit then f conf else conf

/-- The part of `wbc_super_conf_update(super, conf, cmd)` after the checks
and the inode limit: the page limit, then the ratio with both counts, then
each other value the command carries. -/
def wbcConfUpdateTunables (maxInodes : UInt64) (conf : WbcConfTunables) (cmd : WbcCmd) : WbcConfTunables :=
  let c := cmd.wbccConf
  conf
  |> cmd.takeIf wbcCmdOpPagesLimit (fun conf => { conf with wbccMaxPages := c.wbccMaxPages })
  -- the counts from the limits as they are now, only when the ratio is set
  |> cmd.takeIf wbcCmdOpReclaimRatio (fun conf =>
      { conf with
        wbccHiwmRatio := c.wbccHiwmRatio,
        wbccHiwmInodesCount := hiwmCount maxInodes c.wbccHiwmRatio,
        wbccHiwmPagesCount := hiwmCount conf.wbccMaxPages c.wbccHiwmRatio })
  |> (fun conf => if conf.wbccCacheMode = .none then { conf with wbccCacheMode := .memfs } else conf)
  |> cmd.takeIf wbcCmdOpCacheMode (fun conf => { conf with wbccCacheMode := c.wbccCacheMode })
  |> cmd.takeIf wbcCmdOpFlushMode (fun conf => { conf with wbccFlushMode := c.wbccFlushMode })
  |> cmd.takeIf wbcCmdOpMaxRpcs (fun conf => { conf with wbccMaxRpcs := c.wbccMaxRpcs })
  |> cmd.takeIf wbcCmdOpMaxQlen (fun conf => { conf with wbccMaxQlen := c.wbccMaxQlen })
  |> cmd.takeIf wbcCmdOpMaxNrpagesPerFile (fun conf =>
      { conf with wbccMaxNrpagesPerFile := c.wbccMaxNrpagesPerFile })
  |> cmd.takeIf wbcCmdOpMaxRmfidCount (fun conf => { conf with wbccMaxRmfidCount := c.wbccMaxRmfidCount })
  |> cmd.takeIf wbcCmdOpRmpol (fun conf => { conf with wbccRmpol := c.wbccRmpol })
  |> cmd.takeIf wbcCmdOpReaddirPol (fun conf => { conf with wbccReaddirPol := c.wbccReaddirPol })
  |> cmd.takeIf wbcCmdOpFlushPol (fun conf => { conf with wbccFlushPol := c.wbccFlushPol })
  |> cmd.takeIf wbcCmdOpMaxBatchCount (fun conf => { conf with wbccMaxBatchCount := c.wbccMaxBatchCount })
  |> cmd.takeIf wbcCmdOpDirtyFlushThresh (fun conf =>
      { conf with wbccDirtyFlushThresh := c.wbccDirtyFlushThresh })
  |> cmd.takeIf wbcCmdOpActiveDataWriteback (fun conf =>
      { conf with wbccActiveDataWriteback := c.wbccActiveDataWriteback })

/-- `wbc_super_conf_update(super, conf, cmd)`: the checks and the inode
limit as `wbcSuperConfUpdate` of the reservation model, then the rest. -/
def wbcSuperConfUpdateCmd (st : WbcState) (cmd : WbcCmd) : Int × WbcState :=
  let inodesLimit := if cmd.has wbcCmdOpInodesLimit then some cmd.wbccMaxInodes else none
  let pagesRefused := cmd.has wbcCmdOpPagesLimit && decide (st.tunables.wbccUsedPages > cmd.wbccConf.wbccMaxPages.toNat)
  match wbcSuperConfUpdate st.super inodesLimit pagesRefused with
  | (0, super) => (0, { super, tunables := wbcConfUpdateTunables super.wbcsConf.wbccMaxInodes st.tunables cmd })
  | (rc, _) => (rc, st)

/-- `wbc_super_disable_cache(super)`: no cache and no flush mode, the
inode counters reset by `wbcSuperDisableCache` and the rest by
`wbc_super_reset_common_conf`; the `LASSERTF` also wants no page in use. -/
def wbcSuperDisableCacheCmd (st : WbcState) : Option WbcState := do
  let super ← wbcSuperDisableCache st.super
  if st.tunables.wbccUsedPages ≠ 0 then none
  return { super,
           tunables := wbcSuperResetCommonConf { st.tunables with wbccCacheMode := .none, wbccFlushMode := .none } }

/-- `wbc_cmd_handle(super, cmd)`: the return code and the state after it,
`none` when an assertion fails. -/
def wbcCmdHandle (st : WbcState) (cmd : WbcCmd) : Option (Int × WbcState) :=
  match cmd.wbccCmd with
  | .disable => (wbcSuperDisableCacheCmd st).map (0, ·)
  | .enable =>
    if st.tunables.wbccCacheMode = .none then some (0, { st with tunables := wbcSuperConfDefault st.tunables })
    else some (-ealready, st)
  | .config | .change => some (wbcSuperConfUpdateCmd st cmd)
  | .clear => some (0, st)

/-- `wbc_cmd_parse_and_handle(buffer, count, super)`. -/
def wbcCmdParseAndHandle (pageShift totalramPages : Nat) (st : WbcState) (buffer : List Char) :
    Option (Int × WbcState) :=
  match wbcCmdParse pageShift totalramPages buffer with
  | .error rc => some (rc, st)
  | .ok cmd => wbcCmdHandle st cmd

/-! ## The reclaim thread -/

/-- `wbc_cache_too_much_inodes(conf)`: with a ratio, more of the limit in
use than the high-water count. -/
def wbcCacheTooMuchInodes (st : WbcState) : Bool :=
  if st.tunables.wbccHiwmRatio ≠ 0 then
    st.super.wbcsConf.wbccMaxInodes - st.super.wbcsConf.wbccFreeInodes > st.tunables.wbccHiwmInodesCount.toUInt64
  else false

/-- `wbc_cache_too_much_pages(conf)`. -/
def wbcCacheTooMuchPages (st : WbcState) : Bool :=
  if st.tunables.wbccHiwmRatio ≠ 0 then decide (st.tunables.wbccUsedPages > st.tunables.wbccHiwmPagesCount.toNat)
  else false

/-! ## Runs -/

/-- What happens to one super block: a command written to its `conf` file,
a create or a removal in the cache, or a pass of the reclaim thread. -/
inductive WbcEvent where
  | cmd (buffer : List Char)
  | create (opc : CreateOpc) (dir nameLen : Nat) (outcome : NewNodeOutcome)
  | remove (dir ino : Nat)
  | reclaim
  deriving DecidableEq, Repr

/-- One event: its return code and the state after it, `none` for a failed
assertion. A pass of `ll_wbc_reclaim_main` that finds too many inodes calls
`wbc_reclaim_inodes`; the page reclaim it runs otherwise is not modelled and
leaves the state alone, as a pass that finds nothing to do does. -/
def wbcEventStep (pageShift totalramPages : Nat) (st : WbcState) : WbcEvent → Option (Int × WbcState)
  | .cmd buffer => wbcCmdParseAndHandle pageShift totalramPages st buffer
  | .create opc dir nameLen outcome =>
    (memfsCreate st.super opc dir nameLen outcome).map fun (rc, super) => (rc, { st with super })
  | .remove dir ino => (memfsRemove st.super dir ino).map fun super => (0, { st with super })
  | .reclaim =>
    if wbcCacheTooMuchInodes st then (wbcReclaimInodes st.super).map fun super => (0, { st with super })
    else some (0, st)

/-- The events in turn; `none` once an assertion fails. -/
def wbcEventRun (pageShift totalramPages : Nat) : WbcState → List WbcEvent → Option WbcState
  | st, [] => some st
  | st, e :: es => (wbcEventStep pageShift totalramPages st e).bind fun r => wbcEventRun pageShift totalramPages r.2 es

end Lustre.Wbc
