import Mathlib

/-! # Scatter-gather lists and positional copies

A buffer made of fragments, each a run of `len` bytes from `addr`, stands
for the concatenation of its fragments (`bytes`). Copying `n` bytes from one
such buffer to another copies position by position: the `i`-th address of
the destination window gets what the `i`-th address of the source window
held. `copyAt mem dst src` is that memory, every source byte read before any
destination byte is written.

The rule is the composition rule (`copyAt_append`): two copies
one after the other are one copy of the joined windows, when the second
reads nothing the first wrote and writes nothing twice. A loop that copies a
window chunk by chunk is proved with it. Nothing here refers to a particular
program.
-/

namespace Gather

/-- A fragment: `len` bytes from `addr`. -/
structure Frag where
  addr : Nat
  len : Nat
  deriving DecidableEq, Repr

/-- The addresses of the bytes of a list of fragments, in order. -/
def bytes (fs : List Frag) : List Nat := fs.flatMap fun f => List.range' f.addr f.len

@[simp] theorem bytes_nil : bytes [] = [] := rfl

theorem bytes_cons (f : Frag) (fs : List Frag) : bytes (f :: fs) = List.range' f.addr f.len ++ bytes fs := by
  rw [bytes, List.flatMap_cons]
  rfl

theorem length_bytes_cons (f : Frag) (fs : List Frag) : (bytes (f :: fs)).length = f.len + (bytes fs).length := by
  rw [bytes_cons, List.length_append, List.length_range']

/-- Past the whole first fragment, the bytes are those of the rest. -/
theorem drop_bytes_cons {f : Frag} {fs : List Frag} {off : Nat} (h : f.len ≤ off) :
    (bytes (f :: fs)).drop off = (bytes fs).drop (off - f.len) := by
  rw [bytes_cons, List.drop_append, List.length_range', List.drop_eq_nil_of_le (by simpa using h),
    List.nil_append]

/-- The length of the first fragment, `0` for none. -/
def headLen : List Frag → Nat
  | [] => 0
  | f :: _ => f.len

@[simp] theorem headLen_cons (f : Frag) (fs : List Frag) : headLen (f :: fs) = f.len := rfl

theorem headLen_le_length_bytes : ∀ fs : List Frag, headLen fs ≤ (bytes fs).length
  | [] => le_refl 0
  | f :: fs => by
    rw [headLen_cons, length_bytes_cons]
    exact Nat.le_add_right _ _

/-- The `n` bytes of a list of fragments from position `off` on. -/
def window (fs : List Frag) (off n : Nat) : List Nat := ((bytes fs).drop off).take n

theorem length_window {fs : List Frag} {off n : Nat} (h : off + n ≤ (bytes fs).length) :
    (window fs off n).length = n := by
  rw [window, List.length_take, List.length_drop]
  omega

/-- A window that runs past the first fragment is the rest of that
fragment, then a window of the others from their start. -/
theorem window_cons_of_len_le {f : Frag} {fs : List Frag} {off n : Nat} (hoff : off ≤ f.len) (h : f.len ≤ off + n) :
    window (f :: fs) off n = List.range' (f.addr + off) (f.len - off) ++ window fs 0 (n - (f.len - off)) := by
  rw [window, window, bytes_cons, List.drop_append_of_le_length (by rw [List.length_range']; exact hoff),
    List.drop_range', List.take_append, List.take_of_length_le (by rw [List.length_range']; omega),
    List.length_range', List.drop_zero, Nat.mul_one]

theorem take_window {fs : List Frag} {off n k : Nat} (h : k ≤ n) : (window fs off n).take k = window fs off k := by
  rw [window, window, List.take_take, Nat.min_eq_left h]

/-- A window inside the first fragment is a run of its addresses. -/
theorem window_cons_of_le {f : Frag} {fs : List Frag} {off n : Nat} (h : off + n ≤ f.len) :
    window (f :: fs) off n = List.range' (f.addr + off) n := by
  have hrun : ((List.range' f.addr f.len).drop off).take n = List.range' (f.addr + off) n := by
    rw [List.drop_range']
    apply List.ext_getElem
    · simp only [List.length_take, List.length_range']
      omega
    · intro i _ _
      simp only [List.getElem_take, List.getElem_range']
      omega
  rw [window, bytes_cons, List.drop_append_of_le_length (by rw [List.length_range']; omega),
    List.take_append_of_le_length (by rw [List.length_drop, List.length_range']; omega), hrun]

section Copy

variable {α β : Type} [DecidableEq α]

/-- The memory after each address of `dst` gets the value the address at the
same position of `src` held; where `dst` lists an address twice, its first
position counts. -/
def copyAt (mem : α → β) : List α → List α → α → β
  | d :: ds, s :: ss => fun a => if a = d then mem s else copyAt mem ds ss a
  | _, _ => mem

@[simp] theorem copyAt_nil (mem : α → β) (src : List α) : copyAt mem [] src = mem := rfl

theorem copyAt_cons (mem : α → β) (d s : α) (ds ss : List α) (a : α) :
    copyAt mem (d :: ds) (s :: ss) a = if a = d then mem s else copyAt mem ds ss a := rfl

/-- Writing `x` at `d` and then copying reads and writes the same as copying
and then writing `x` at `d`, when the copy neither reads nor writes `d`. -/
theorem copyAt_ite {mem : α → β} {d : α} {x : β} :
    ∀ {dst src : List α}, d ∉ dst → d ∉ src → ∀ a,
      copyAt (fun b => if b = d then x else mem b) dst src a = if a = d then x else copyAt mem dst src a
  | [], _, _, _, a => rfl
  | _ :: _, [], _, _, a => rfl
  | e :: es, s :: ss, hd, hs, a => by
    have hde : d ≠ e := fun h => hd (h ▸ List.mem_cons_self)
    have hds : s ≠ d := fun (h : s = d) => hs (h ▸ List.mem_cons_self)
    rw [copyAt_cons, copyAt_cons, if_neg hds,
      copyAt_ite (fun h => hd (List.mem_cons_of_mem e h)) (fun h => hs (List.mem_cons_of_mem s h))]
    by_cases hae : a = e
    · rw [if_pos hae, if_neg (fun (h : a = d) => hde (h ▸ hae)), if_pos hae]
    · rw [if_neg hae, if_neg hae]

/-- The composition rule: a copy after a copy is one copy of the joined
windows, when the second neither reads nor writes what the first wrote. -/
theorem copyAt_append (mem : α → β) :
    ∀ {d₁ s₁ : List α} (d₂ s₂ : List α), d₁.length = s₁.length → (∀ s ∈ s₂, s ∉ d₁) → (∀ d ∈ d₂, d ∉ d₁) →
      copyAt (copyAt mem d₁ s₁) d₂ s₂ = copyAt mem (d₁ ++ d₂) (s₁ ++ s₂)
  | [], [], _, _, _, _, _ => rfl
  | d :: d₁, s :: s₁, d₂, s₂, hlen, hs, hd => by
    -- peel the first write off both sides
    funext a
    have hrest := copyAt_append mem d₂ s₂ (Nat.succ.inj hlen)
      (fun s' h h' => hs s' h (List.mem_cons_of_mem d h')) (fun d' h h' => hd d' h (List.mem_cons_of_mem d h'))
    have hnd : d ∉ d₂ := fun h => hd d h List.mem_cons_self
    have hns : d ∉ s₂ := fun h => hs d h List.mem_cons_self
    show copyAt (fun b => if b = d then mem s else copyAt mem d₁ s₁ b) d₂ s₂ a = _
    rw [copyAt_ite hnd hns, List.cons_append, List.cons_append, copyAt_cons, hrest]

/-- A copy done in two chunks, the first `k` positions and then the rest, is
one copy, when no address is written twice and no address read is written. -/
theorem copyAt_take_drop (mem : α → β) {dst src : List α} (k : Nat) (hlen : dst.length = src.length)
    (hnd : dst.Nodup) (hdisj : ∀ s ∈ src, s ∉ dst) :
    copyAt (copyAt mem (dst.take k) (src.take k)) (dst.drop k) (src.drop k) = copyAt mem dst src := by
  have hsplit : (dst.take k).Disjoint (dst.drop k) :=
    List.disjoint_of_nodup_append (by rwa [List.take_append_drop])
  rw [copyAt_append mem _ _ (by simp only [List.length_take, hlen])
      (fun s hs hs' => hdisj s (List.mem_of_mem_drop hs) (List.mem_of_mem_take hs'))
      (fun d hd hd' => hsplit hd' hd),
    List.take_append_drop, List.take_append_drop]

end Copy

end Gather
