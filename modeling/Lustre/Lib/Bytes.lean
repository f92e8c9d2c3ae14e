import Mathlib

/-! # Byte buffers: big-endian fields, in-place writes, `memmove`, `strncmp`

A C buffer is modelled as the list of its bytes. This module gives the few
operations the models perform on such buffers, with the laws their proofs use:

* `toBE` / `ofBE` — a fixed-width field stored most significant byte
  first, and the number a byte run denotes (`ofBE_toBE`);
* `writeBytes` — a `memcpy` of a run into the buffer at an offset;
* `memmove` — the overlap-safe copy, read first and written after;
* `strncmp` — the C comparison of two runs up to a length, where the end of
  a list reads as the terminating zero;
* `strnlen` — the bounded scan for a terminating zero, which fails when it
  would read past the end of the buffer.

Nothing here refers to a particular program.
-/

namespace ByteCodec

/-! ## Big-endian fields -/

/-- The `w` low bytes of `x`, most significant first. -/
def toBE : Nat → Nat → List UInt8
  | 0, _ => []
  | w + 1, x => toBE w (x / 256) ++ [UInt8.ofNat (x % 256)]

/-- The number a big-endian byte run denotes. -/
def ofBE (l : List UInt8) : Nat :=
  l.foldl (fun acc b => acc * 256 + b.toNat) 0

@[simp] theorem length_toBE (w x : Nat) : (toBE w x).length = w := by
  induction w generalizing x with
  | zero => rfl
  | succ w ih => simp [toBE, ih]

theorem ofBE_append_singleton (l : List UInt8) (b : UInt8) :
    ofBE (l ++ [b]) = ofBE l * 256 + b.toNat := by
  simp [ofBE, List.foldl_append]

theorem toNat_ofNat_mod_256 (x : Nat) : (UInt8.ofNat (x % 256)).toNat = x % 256 := by
  rw [UInt8.toNat_ofNat']
  omega

/-- Reading a big-endian field back gives the value modulo the field's range. -/
theorem ofBE_toBE (w x : Nat) : ofBE (toBE w x) = x % 256 ^ w := by
  induction w generalizing x with
  | zero => simp [toBE, ofBE, Nat.mod_one]
  | succ w ih =>
    rw [toBE, ofBE_append_singleton, ih, toNat_ofNat_mod_256, Nat.pow_succ,
      Nat.mul_comm (256 ^ w) 256, Nat.mod_mul, Nat.add_comm, Nat.mul_comm]

theorem ofBE_toBE_of_lt {w x : Nat} (h : x < 256 ^ w) :
    ofBE (toBE w x) = x := by
  rw [ofBE_toBE, Nat.mod_eq_of_lt h]

/-- `__swab32`: the four bytes of a 32-bit word in reverse order. -/
def swab32 (x : UInt32) : UInt32 :=
  ((x &&& 0xff) <<< 24) ||| (((x >>> 8) &&& 0xff) <<< 16) |||
    (((x >>> 16) &&& 0xff) <<< 8) ||| (x >>> 24)

/-- Swapping the bytes twice gives the word back: the bits are compared one
by one. -/
theorem swab32_swab32 (x : UInt32) : swab32 (swab32 x) = x := by
  apply UInt32.eq_of_toBitVec_eq
  apply BitVec.eq_of_getLsbD_eq
  intro i hi
  simp [swab32]
  interval_cases i <;> simp

/-! ## Writes and moves -/

/-- The run `l.take n` of the `n` bytes from offset `off` on. -/
def readBytes (buf : List UInt8) (off n : Nat) : List UInt8 :=
  (buf.drop off).take n

/-- `memcpy(buf + off, src, len(src))`: the run `src` written over the buffer
from offset `off` on. -/
def writeBytes (buf : List UInt8) (off : Nat) (src : List UInt8) : List UInt8 :=
  buf.take off ++ src ++ buf.drop (off + src.length)

/-- `memmove(buf + dst, buf + src, n)`: the source run is read in full before
it is written, which is what makes overlapping moves safe. -/
def memmove (buf : List UInt8) (dst src n : Nat) : List UInt8 :=
  writeBytes buf dst (readBytes buf src n)

theorem length_writeBytes {buf src : List UInt8} {off : Nat}
    (h : off + src.length ≤ buf.length) :
    (writeBytes buf off src).length = buf.length := by
  simp only [writeBytes, List.length_append, List.length_take, List.length_drop]
  omega

/-- A write just past a known prefix replaces the start of what follows. -/
theorem writeBytes_append {pre tail src : List UInt8} :
    writeBytes (pre ++ tail) pre.length src = pre ++ src ++ tail.drop src.length := by
  simp [writeBytes, List.drop_append]

/-- Moving the run that follows a block of length `k` down over the block: the
first `n` bytes of the run take the block's place. -/
theorem memmove_append {pre blk post : List UInt8} {n : Nat} (hn : n ≤ post.length) :
    memmove (pre ++ blk ++ post) pre.length (pre.length + blk.length) n =
      pre ++ post.take n ++ (blk ++ post).drop n := by
  have hread : readBytes (pre ++ blk ++ post) (pre.length + blk.length) n = post.take n := by
    rw [readBytes, ← List.length_append, List.drop_left]
  have hlen : (post.take n).length = n := by simp [hn]
  rw [memmove, hread, List.append_assoc, writeBytes_append, hlen]

/-- A read that ends before a write sees the bytes that were there. -/
theorem readBytes_writeBytes_of_le {buf src : List UInt8} {off a n : Nat} (hoff : off ≤ buf.length)
    (h : a + n ≤ off) : readBytes (writeBytes buf off src) a n = readBytes buf a n := by
  have hpre : (buf.take off).length = off := by simp [hoff]
  have htake : ((buf.take off ++ src ++ buf.drop (off + src.length)).drop a).take n =
      ((buf.take off).drop a).take n := by
    rw [List.append_assoc, List.drop_append_of_le_length (by omega),
      List.take_append_of_le_length (by simp; omega)]
  rw [readBytes, writeBytes, htake, readBytes, List.drop_take, List.take_take,
    Nat.min_eq_left (by omega)]

/-- Moving a run forward by `d`, over bytes of the run itself or after it:
the `d` bytes before the new place are left as they were. -/
theorem memmove_append_forward {pre post : List UInt8} {d n : Nat} (h : d + n ≤ post.length) :
    memmove (pre ++ post) (pre.length + d) pre.length n =
      pre ++ post.take d ++ post.take n ++ post.drop (d + n) := by
  have hread : readBytes (pre ++ post) pre.length n = post.take n := by
    rw [readBytes, List.drop_left]
  have hlen : (post.take n).length = n := by simp; omega
  have hsplit : pre ++ post = (pre ++ post.take d) ++ post.drop d := by
    rw [List.append_assoc, List.take_append_drop]
  have hpre : (pre ++ post.take d).length = pre.length + d := by simp; omega
  rw [memmove, hread, hsplit, ← hpre, writeBytes_append, hlen, List.drop_drop]

/-! ## Runs of slots

A region cut into consecutive slots is the flattening of the list of slots;
the slot `k` starts after the slots before it. -/

section Slots

variable {α : Type}

theorem flatten_eq_take_getD_drop {slots : List (List α)} {k : Nat} (hk : k < slots.length) :
    slots.flatten = (slots.take k).flatten ++ slots.getD k [] ++ (slots.drop (k + 1)).flatten := by
  have hget : slots.getD k [] = slots[k] := by
    simp [List.getD_eq_getElem?_getD, List.getElem?_eq_getElem hk]
  conv_lhs => rw [← List.take_append_drop k slots, List.drop_eq_getElem_cons hk]
  rw [hget, List.flatten_append, List.flatten_cons, List.append_assoc]

theorem flatten_set {slots : List (List α)} {k : Nat} (hk : k < slots.length) (y : List α) :
    (slots.set k y).flatten = (slots.take k).flatten ++ y ++ (slots.drop (k + 1)).flatten := by
  have hk' : k < (slots.set k y).length := by simpa using hk
  have hget : (slots.set k y).getD k [] = y := by
    simp [List.getD_eq_getElem?_getD, List.getElem?_set_self hk]
  rw [flatten_eq_take_getD_drop hk', List.take_set_of_le (Nat.le_refl k),
    List.drop_set_of_lt (by omega : k < k + 1), hget]

theorem getD_set_of_lt {l : List α} {s : Nat} (hs : s < l.length) (c d : α) (n : Nat) :
    (l.set s c).getD n d = if n = s then c else l.getD n d := by
  by_cases hn : n = s
  · simp [hn, List.getD_eq_getElem?_getD, hs]
  · simp [hn, List.getD_eq_getElem?_getD, Ne.symm hn]

end Slots

/-- Reading slot `k` of a region: the first `n` bytes of the slot. -/
theorem readBytes_flatten {pre post : List UInt8} {slots : List (List UInt8)} {k n : Nat}
    (hk : k < slots.length) (hn : n ≤ (slots.getD k []).length) :
    readBytes (pre ++ slots.flatten ++ post) (pre.length + (slots.take k).flatten.length) n =
      (slots.getD k []).take n := by
  have hsplit : pre ++ ((slots.take k).flatten ++ slots.getD k [] ++ (slots.drop (k + 1)).flatten) ++ post =
      (pre ++ (slots.take k).flatten) ++ (slots.getD k [] ++ ((slots.drop (k + 1)).flatten ++ post)) := by
    simp
  rw [flatten_eq_take_getD_drop hk, hsplit, ← List.length_append, readBytes, List.drop_left,
    List.take_append_of_le_length hn]

/-! ## `strncmp` -/

/-- `strncmp(a, b, n)` on two character runs, each character read through
`code` (its `unsigned char` value); reading past the end of a run reads the
terminating zero. -/
def strncmp {α : Type} (code : α → Nat) : List α → List α → Nat → Int
  | _, _, 0 => 0
  | a, b, n + 1 =>
    let ca := (a.head?.map code).getD 0
    let cb := (b.head?.map code).getD 0
    if ca ≠ cb then (ca : Int) - cb
    else if ca = 0 then 0
    else strncmp code a.tail b.tail n

/-- On two runs of at least `n` characters with no zero among their first `n`,
`strncmp` returns zero exactly when those characters agree. -/
theorem strncmp_eq_zero_iff {α : Type} {code : α → Nat} (hinj : Function.Injective code) :
    ∀ (n : Nat) (a b : List α), n ≤ a.length → n ≤ b.length →
      (∀ x ∈ a.take n, code x ≠ 0) → (∀ x ∈ b.take n, code x ≠ 0) →
      (strncmp code a b n = 0 ↔ a.take n = b.take n)
  | 0, a, b, _, _, _, _ => by simp [strncmp]
  | n + 1, [], _, ha, _, _, _ => by simp at ha
  | n + 1, _, [], _, hb, _, _ => by simp at hb
  | n + 1, x :: a, y :: b, ha, hb, hza, hzb => by
    have hx : code x ≠ 0 := hza x (by simp)
    have ih := strncmp_eq_zero_iff hinj n a b (by simpa using ha) (by simpa using hb)
      (fun z hz => hza z (by simp [hz])) (fun z hz => hzb z (by simp [hz]))
    by_cases hxy : code x = code y
    · have hxy' : x = y := hinj hxy
      subst hxy'
      simp [strncmp, hx, ih]
    · have hne : x ≠ y := fun h => hxy (congrArg code h)
      simp only [strncmp, List.head?_cons, Option.map_some, Option.getD_some, ne_eq, hxy,
        not_false_eq_true, ↓reduceIte, List.take_succ_cons, List.cons.injEq, hne, false_and,
        iff_false]
      omega

/-! ## `strnlen` -/

/-- `strnlen(mem + off, n)`: the number of bytes before the first zero, at
most `n`; `none` when the scan reads past the end of `mem`. -/
def strnlen (mem : List UInt8) (off : Nat) : Nat → Option Nat
  | 0 => some 0
  | n + 1 =>
    match mem[off]? with
    | none => none
    | some c => if c = 0 then some 0 else (strnlen mem (off + 1) n).map (· + 1)

/-- A scan that starts at the end of the buffer reads past it at once. -/
theorem strnlen_at_end (mem : List UInt8) (n : Nat) : strnlen mem mem.length (n + 1) = none := by
  simp [strnlen]

end ByteCodec
