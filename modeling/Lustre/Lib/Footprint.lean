import Mathlib

/-! # Memory accesses of code handed a buffer

C code handed a pointer and a length reads and writes memory at offsets
from the pointer, and nothing stops it from going past the length. Such
code is modelled in `Probe`: a state monad over the memory seen from the
pointer (`Nat → UInt8`: the buffer's bytes, then whatever lies after them)
that also records every access, as the offset and width of the bytes it
touches. A load returns what the memory holds; a store changes it.

Code stays in a buffer of `n` bytes when every access it records lies in
`[0, n)` (`Within`). The rules here say what each access adds to the record
and what it leaves of the memory:

* `load` and `store` append one access (`load_log`, `store_log`); a store
  changes exactly the bytes it covers (`store_bytes`);
* `Appends R`: code built from them appends to the record only accesses
  that `R` admits (`Appends.bind`), so an access made once stays recorded
  whatever follows, and code whose accesses lie in `[0, n)` stays there
  (`Appends.within`);
* `WritesIn`: code whose stores lie in a region leaves every byte outside
  it as it was (`WritesIn.bind`).

Fields are stored little-endian (`toLE`, `ofLE`, with `ofLE_toLE`), and a
`__swab` of a field in place reverses its bytes (`swabField`). Nothing
here refers to a particular program.
-/

namespace Footprint

/-- One access: `len` bytes from `off`, read or written. -/
structure Access where
  off : Nat
  len : Nat
  write : Bool
  deriving DecidableEq, Repr

/-- The memory seen from a pointer, and the accesses made so far. -/
structure Mem where
  bytes : Nat → UInt8
  log : List Access

/-- Code over memory. -/
abbrev Probe := StateM Mem

/-- A buffer at the pointer, and `past` after it. -/
def Mem.ofBuffer (buf : List UInt8) (past : Nat → UInt8) : Mem :=
  ⟨fun i => buf.getD i (past i), []⟩

/-- Load `len` bytes from `off`. -/
def load (off len : Nat) : Probe (List UInt8) := fun m =>
  ((List.range len).map fun i => m.bytes (off + i), { m with log := m.log ++ [⟨off, len, false⟩] })

/-- Store a run of bytes at `off`. -/
def store (off : Nat) (bs : List UInt8) : Probe Unit := fun m =>
  ((), { bytes := fun i => if off ≤ i ∧ i < off + bs.length then bs.getD (i - off) 0 else m.bytes i
         log := m.log ++ [⟨off, bs.length, true⟩] })

/-! ## Little-endian fields -/

/-- The number a little-endian byte run denotes. -/
def ofLE (l : List UInt8) : Nat := l.foldr (fun b acc => b.toNat + 256 * acc) 0

/-- The `w` low bytes of `x`, least significant first. -/
def toLE : Nat → Nat → List UInt8
  | 0, _ => []
  | w + 1, x => UInt8.ofNat (x % 256) :: toLE w (x / 256)

/-- A field of `w` bytes at `off`, as a little-endian host reads it. -/
def loadLE (off w : Nat) : Probe Nat := ofLE <$> load off w

/-- Store `x` into a field of `w` bytes at `off`. -/
def storeLE (off w x : Nat) : Probe Unit := store off (toLE w x)

/-- `__swab` of a field in place. -/
def swabField (off w : Nat) : Probe Unit := do
  let bs ← load off w
  store off bs.reverse

/-- `__swab` of a `w`-byte value. -/
def swabN (w x : Nat) : Nat := ofLE (toLE w x).reverse

@[simp] theorem length_toLE (w x : Nat) : (toLE w x).length = w := by
  induction w generalizing x with
  | zero => rfl
  | succ w ih => simp [toLE, ih]

theorem ofLE_toLE (w x : Nat) : ofLE (toLE w x) = x % 256 ^ w := by
  induction w generalizing x with
  | zero => simp [toLE, ofLE, Nat.mod_one]
  | succ w ih =>
    have byte : (UInt8.ofNat (x % 256)).toNat = x % 256 := by simp
    have h := ih (x / 256)
    simp only [ofLE, toLE, List.foldr_cons] at h ⊢
    rw [byte, h, Nat.pow_succ, Nat.mul_comm (256 ^ w) 256, Nat.mod_mul]

/-! ## Strings in memory -/

/-- The scan for the end of a string, from `off`, one byte at a time:
`fuel` bounds it by the address space. -/
def strlenFrom : Nat → Nat → Probe Nat
  | 0, _ => pure 0
  | fuel + 1, off => do
    let b ← load off 1
    if b = [0] then pure 0 else do
      let n ← strlenFrom fuel (off + 1)
      pure (n + 1)

/-- `strlcpy(dst, src, size)` from memory at `src` into a string of the
model: the copy, and the length of the source. -/
def strlcpyFrom (src size : Nat) : Probe (List UInt8 × Nat) := do
  let len ← strlenFrom (2 ^ 64) src
  let copy ← load src (min len (size - 1))
  return (copy, len)

/-! ## What one access does -/

/-- Every byte an access touches lies in the first `n` bytes: the access
is empty, or ends by `n`. -/
def Within (n : Nat) (log : List Access) : Prop := ∀ a ∈ log, a.len = 0 ∨ a.off + a.len ≤ n

instance (n : Nat) (log : List Access) : Decidable (Within n log) :=
  inferInstanceAs (Decidable (∀ a ∈ log, a.len = 0 ∨ a.off + a.len ≤ n))

/-- The bytes of an access lie below `n` exactly when it is `Within` them. -/
theorem bytes_lt_iff {n : Nat} (a : Access) :
    (∀ i, a.off ≤ i → i < a.off + a.len → i < n) ↔ a.len = 0 ∨ a.off + a.len ≤ n := by
  constructor
  · intro h
    by_cases h0 : a.len = 0
    · exact .inl h0
    · exact .inr (by have := h (a.off + a.len - 1) (by omega) (by omega); omega)
  · rintro (h0 | hle) i hi hi'
    · omega
    · omega

theorem Within.append {n : Nat} {l₁ l₂ : List Access} : Within n (l₁ ++ l₂) ↔ Within n l₁ ∧ Within n l₂ := by
  simp only [Within, List.mem_append]
  constructor
  · intro h
    exact ⟨fun a ha => h a (.inl ha), fun a ha => h a (.inr ha)⟩
  · rintro ⟨h₁, h₂⟩ a (ha | ha)
    · exact h₁ a ha
    · exact h₂ a ha

@[simp] theorem load_log (off len : Nat) (m : Mem) :
    (load off len m).2.log = m.log ++ [⟨off, len, false⟩] := rfl

@[simp] theorem load_bytes (off len : Nat) (m : Mem) : (load off len m).2.bytes = m.bytes := rfl

@[simp] theorem store_log (off : Nat) (bs : List UInt8) (m : Mem) :
    (store off bs m).2.log = m.log ++ [⟨off, bs.length, true⟩] := rfl

theorem store_bytes (off : Nat) (bs : List UInt8) (m : Mem) (i : Nat) :
    (store off bs m).2.bytes i = if off ≤ i ∧ i < off + bs.length then bs.getD (i - off) 0 else m.bytes i := rfl

/-! ## Code that appends only some accesses -/

/-- Running `p` appends to the record only accesses that `R` admits. -/
def Appends {α : Type} (R : Access → Prop) (p : Probe α) : Prop :=
  ∀ m, ∃ l, (p m).2.log = m.log ++ l ∧ ∀ a ∈ l, R a

section Appends

variable {α β : Type} {R : Access → Prop}

theorem Appends.pure (a : α) : Appends R (Pure.pure a : Probe α) :=
  fun m => ⟨[], (List.append_nil m.log).symm, fun _ h => (by cases h)⟩

theorem Appends.load {off len : Nat} (h : R ⟨off, len, false⟩) : Appends R (load off len) :=
  fun _ => ⟨_, rfl, fun _ ha => (List.mem_singleton.mp ha) ▸ h⟩

theorem Appends.store {off : Nat} {bs : List UInt8} (h : R ⟨off, bs.length, true⟩) : Appends R (store off bs) :=
  fun _ => ⟨_, rfl, fun _ ha => (List.mem_singleton.mp ha) ▸ h⟩

theorem Appends.bind {p : Probe α} {f : α → Probe β} (hp : Appends R p) (hf : ∀ a, Appends R (f a)) :
    Appends R (p >>= f) := by
  intro m
  obtain ⟨l₁, h₁, hR₁⟩ := hp m
  obtain ⟨l₂, h₂, hR₂⟩ := hf (p m).1 (p m).2
  refine ⟨l₁ ++ l₂, ?_, ?_⟩
  · show (f (p m).1 (p m).2).2.log = _
    rw [h₂, h₁, List.append_assoc]
  · intro a ha
    rcases List.mem_append.mp ha with ha | ha
    · exact hR₁ a ha
    · exact hR₂ a ha

theorem Appends.map {p : Probe α} (hp : Appends R p) (f : α → β) : Appends R (f <$> p) := fun m => hp m

theorem Appends.ite {c : Prop} [Decidable c] {p q : Probe α} (hp : Appends R p) (hq : Appends R q) :
    Appends R (if c then p else q) := by
  by_cases h : c
  · rw [if_pos h]
    exact hp
  · rw [if_neg h]
    exact hq

theorem Appends.mono {R' : Access → Prop} {p : Probe α} (hp : Appends R p) (h : ∀ a, R a → R' a) :
    Appends R' p := by
  intro m
  obtain ⟨l, hl, hR⟩ := hp m
  exact ⟨l, hl, fun a ha => h a (hR a ha)⟩

/-- Code that only makes accesses in the first `n` bytes keeps a record
that lies there. -/
theorem Appends.within {n : Nat} {p : Probe α} (hp : Appends (fun a => a.len = 0 ∨ a.off + a.len ≤ n) p)
    {m : Mem} (hm : Within n m.log) : Within n (p m).2.log := by
  obtain ⟨l, hl, hR⟩ := hp m
  rw [hl, Within.append]
  exact ⟨hm, hR⟩

end Appends

/-! ## Code that writes only in a region -/

/-- Every byte outside `R` is as it was after `p`. -/
def WritesIn {α : Type} (R : Nat → Prop) (p : Probe α) : Prop := ∀ m i, ¬ R i → (p m).2.bytes i = m.bytes i

section WritesIn

variable {α β : Type} {R : Nat → Prop}

theorem WritesIn.pure (a : α) : WritesIn R (Pure.pure a : Probe α) := fun _ _ _ => rfl

theorem WritesIn.load (off len : Nat) : WritesIn R (load off len) := fun _ _ _ => rfl

theorem WritesIn.store {off : Nat} {bs : List UInt8} (h : ∀ i, off ≤ i → i < off + bs.length → R i) :
    WritesIn R (store off bs) := by
  intro m i hi
  rw [store_bytes, if_neg fun hc => hi (h i hc.1 hc.2)]

theorem WritesIn.bind {p : Probe α} {f : α → Probe β} (hp : WritesIn R p) (hf : ∀ a, WritesIn R (f a)) :
    WritesIn R (p >>= f) := fun m i hi => (hf (p m).1 (p m).2 i hi).trans (hp m i hi)

theorem WritesIn.map {p : Probe α} (hp : WritesIn R p) (f : α → β) : WritesIn R (f <$> p) := fun m i hi => hp m i hi

theorem WritesIn.mono {R' : Nat → Prop} {p : Probe α} (hp : WritesIn R p) (h : ∀ i, R i → R' i) :
    WritesIn R' p := fun m i hi => hp m i fun hr => hi (h i hr)

theorem WritesIn.ite {c : Prop} [Decidable c] {p q : Probe α} (hp : WritesIn R p) (hq : WritesIn R q) :
    WritesIn R (if c then p else q) := by
  by_cases h : c
  · rw [if_pos h]
    exact hp
  · rw [if_neg h]
    exact hq

end WritesIn

/-! ## Reading fields back -/

/-- The little-endian field of `w` bytes at `off` of a memory. -/
def readLE (bytes : Nat → UInt8) (off w : Nat) : Nat := ofLE ((List.range w).map fun i => bytes (off + i))

@[simp] theorem loadLE_run (off w : Nat) (m : Mem) : (loadLE off w m).1 = readLE m.bytes off w := rfl

@[simp] theorem loadLE_log (off w : Nat) (m : Mem) :
    (loadLE off w m).2.log = m.log ++ [⟨off, w, false⟩] := rfl

@[simp] theorem loadLE_bytes (off w : Nat) (m : Mem) : (loadLE off w m).2.bytes = m.bytes := rfl

@[simp] theorem pure_run {α : Type} (a : α) (m : Mem) : (pure a : Probe α) m = (a, m) := rfl

/-- A field loaded, then code run on what it holds. -/
@[simp] theorem loadLE_bind {β : Type} (off w : Nat) (f : Nat → Probe β) (m : Mem) :
    (loadLE off w >>= f) m = f (readLE m.bytes off w) { m with log := m.log ++ [⟨off, w, false⟩] } := rfl

/-- `p` returns `v` from whatever memory it starts. -/
def Returns {α : Type} (v : α) (p : Probe α) : Prop := ∀ m, (p m).1 = v

/-- What follows code that always returns `v` runs on `v`. -/
theorem Returns.bind_eq {α β : Type} {v : α} {p : Probe α} (hp : Returns v p) (f : α → Probe β) :
    p >>= f = p >>= fun _ => f v := by
  funext m
  show f (p m).1 (p m).2 = f v (p m).2
  rw [hp m]

theorem readLE_congr {b₁ b₂ : Nat → UInt8} {off w : Nat} (h : ∀ i, off ≤ i → i < off + w → b₁ i = b₂ i) :
    readLE b₁ off w = readLE b₂ off w := by
  unfold readLE
  congr 1
  apply List.map_congr_left
  intro i hi
  exact h (off + i) (Nat.le_add_right off i) (by have := List.mem_range.mp hi; omega)

/-- A field reads back what was stored into it, within its width. -/
theorem readLE_storeLE (off w x : Nat) (m : Mem) : readLE (storeLE off w x m).2.bytes off w = x % 256 ^ w := by
  have hmap : ((List.range w).map fun i => (storeLE off w x m).2.bytes (off + i)) = toLE w x := by
    apply List.ext_getElem
    · simp
    · intro i h₁ h₂
      simp only [List.getElem_map, List.getElem_range, storeLE, store_bytes, length_toLE]
      rw [if_pos ⟨Nat.le_add_right off i, by simp at h₁; omega⟩, Nat.add_sub_cancel_left,
        List.getD_eq_getElem?_getD, List.getElem?_eq_getElem (by simp at h₁ ⊢; omega), Option.getD_some]
  unfold readLE
  rw [hmap, ofLE_toLE]

/-- Code that leaves a field's bytes as they were leaves the field. -/
theorem WritesIn.readLE {α : Type} {R : Nat → Prop} {p : Probe α} (hp : WritesIn R p) {off w : Nat}
    (h : ∀ i, off ≤ i → i < off + w → ¬ R i) (m : Mem) : readLE (p m).2.bytes off w = readLE m.bytes off w :=
  readLE_congr fun i hi hi' => hp m i (h i hi hi')

/-! ## Fields a computation leaves set -/

section SetsLE

variable {α β : Type} {off w v : Nat}

/-- From whatever memory `p` starts, it leaves the field of `w` bytes at
`off` reading `v`. -/
def SetsLE (off w v : Nat) (p : Probe α) : Prop := ∀ m, readLE (p m).2.bytes off w = v

theorem SetsLE.storeLE (off w x : Nat) : SetsLE off w (x % 256 ^ w) (storeLE off w x) :=
  readLE_storeLE off w x

/-- A field set by `p` stays set through code that writes elsewhere. -/
theorem SetsLE.bind_left {R : Nat → Prop} {p : Probe α} {f : α → Probe β} (hp : SetsLE off w v p)
    (hf : ∀ a, WritesIn R (f a)) (hR : ∀ i, off ≤ i → i < off + w → ¬ R i) : SetsLE off w v (p >>= f) :=
  fun m => ((hf _).readLE hR _).trans (hp m)

/-- A field set by what follows is set, whatever comes first. -/
theorem SetsLE.bind_right {p : Probe α} {f : α → Probe β} (hf : ∀ a, SetsLE off w v (f a)) :
    SetsLE off w v (p >>= f) :=
  fun _ => hf _ _

end SetsLE

/-! ## Extents laid out in order -/

/-- Extents `(offset, size)` laid one after another from `lo`: each starts
where or after the one before ends, and the last ends by `hi`. -/
def Laid : Nat → Nat → List (Nat × Nat) → Prop
  | lo, hi, [] => lo ≤ hi
  | lo, hi, x :: rest => lo ≤ x.1 ∧ Laid (x.1 + x.2) hi rest

instance Laid.decidable : (lo hi : Nat) → (l : List (Nat × Nat)) → Decidable (Laid lo hi l)
  | lo, hi, [] => inferInstanceAs (Decidable (lo ≤ hi))
  | lo, hi, x :: rest =>
    letI := Laid.decidable (x.1 + x.2) hi rest
    inferInstanceAs (Decidable (lo ≤ x.1 ∧ Laid (x.1 + x.2) hi rest))

theorem Laid.le {lo hi : Nat} {l : List (Nat × Nat)} (h : Laid lo hi l) : lo ≤ hi := by
  induction l generalizing lo with
  | nil => exact h
  | cons x rest ih =>
    have hx := h.1
    have := ih h.2
    omega

/-- Every extent lies in `[lo, hi)`. -/
theorem Laid.le_of_mem {lo hi : Nat} {l : List (Nat × Nat)} (h : Laid lo hi l) {x : Nat × Nat} (hx : x ∈ l) :
    lo ≤ x.1 ∧ x.1 + x.2 ≤ hi := by
  induction l generalizing lo with
  | nil => cases hx
  | cons y rest ih =>
    rcases List.mem_cons.mp hx with rfl | hx
    · exact ⟨h.1, h.2.le⟩
    · have hy := h.1
      have := ih h.2 hx
      omega

theorem Laid.mono {lo lo' hi hi' : Nat} {l : List (Nat × Nat)} (hlo : lo' ≤ lo) (hhi : hi ≤ hi')
    (h : Laid lo hi l) : Laid lo' hi' l := by
  induction l generalizing lo lo' with
  | nil => exact Nat.le_trans hlo (Nat.le_trans h hhi)
  | cons x rest ih => exact ⟨Nat.le_trans hlo h.1, ih (Nat.le_refl _) h.2⟩

/-! ## Code that touches only a region -/

/-- `p` touches only bytes of `S`: each access it records covers bytes of
`S`, and every byte outside `S` is as it was. -/
structure Touches {α : Type} (S : Nat → Prop) (p : Probe α) : Prop where
  appends : Appends (fun a => ∀ i, a.off ≤ i → i < a.off + a.len → S i) p
  writes : WritesIn S p

section Touches

variable {α β : Type} {S : Nat → Prop}

theorem Touches.pure (a : α) : Touches S (Pure.pure a : Probe α) := ⟨.pure a, .pure a⟩

theorem Touches.load {off len : Nat} (h : ∀ i, off ≤ i → i < off + len → S i) : Touches S (load off len) :=
  ⟨.load h, .load off len⟩

theorem Touches.store {off : Nat} {bs : List UInt8} (h : ∀ i, off ≤ i → i < off + bs.length → S i) :
    Touches S (store off bs) :=
  ⟨.store h, .store h⟩

theorem Touches.loadLE {off w : Nat} (h : ∀ i, off ≤ i → i < off + w → S i) : Touches S (loadLE off w) :=
  ⟨(Appends.load h).map _, (WritesIn.load off w).map _⟩

theorem Touches.storeLE {off w x : Nat} (h : ∀ i, off ≤ i → i < off + w → S i) : Touches S (storeLE off w x) :=
  .store (by simpa using h)

theorem Touches.bind {p : Probe α} {f : α → Probe β} (hp : Touches S p) (hf : ∀ a, Touches S (f a)) :
    Touches S (p >>= f) :=
  ⟨hp.appends.bind fun a => (hf a).appends, hp.writes.bind fun a => (hf a).writes⟩

theorem Touches.ite {c : Prop} [Decidable c] {p q : Probe α} (hp : Touches S p) (hq : Touches S q) :
    Touches S (if c then p else q) :=
  ⟨hp.appends.ite hq.appends, hp.writes.ite hq.writes⟩

theorem Touches.mono {S' : Nat → Prop} {p : Probe α} (hp : Touches S p) (h : ∀ i, S i → S' i) : Touches S' p :=
  ⟨hp.appends.mono fun _ ha i h₁ h₂ => h i (ha i h₁ h₂), hp.writes.mono h⟩

/-- Code that touches only the first `n` bytes keeps its record in them. -/
theorem Touches.within {n : Nat} {p : Probe α} (hp : Touches (fun i => i < n) p) {m : Mem}
    (hm : Within n m.log) : Within n (p m).2.log :=
  (hp.appends.mono fun a ha => (bytes_lt_iff a).mp ha).within hm

end Touches

end Footprint
