import Mathlib
import Lustre.Lib.CArith
import Lustre.NidStrings

/-! # NID strings read back to the NID they were written from

`libcfs_str2nid (libcfs_nid2str_r nid) = nid` for every NID of a known LND
(and, for the loopback LND, for `0@lo` only). The argument follows the text
`libcfs_nid2str_r` writes, `<address>@<name>[<netnum>]`:

* the text fits `LNET_NIDSTR_SIZE`, so nothing is cut (`libcfsNid2strR_known`);
* the first `@` is the one after the address, which has none;
* the network name is found by prefix: no name of the table is a prefix of
  another, and the first one that matches is the one written
  (`netstrfnsByPrefix_name`); the network number, when written, is read back
  by `%u%n` (`libcfsStr2netInternal_netSuffix`);
* the address is read back by `%u.%u.%u.%u%n`, or, for the numeric LNDs, by
  `%u%n` after both hexadecimal formats fail on its first two characters.
-/

namespace Lustre.NidStrings

open ByteCodec CFormat CArith

/-! ## Bit fields -/

theorem lnetNetNum_toNat (net : UInt32) : (lnetNetNum net).toNat = net.toNat % 2 ^ 16 := by
  rw [lnetNetNum, UInt32.toNat_and, show (0xffff : UInt32).toNat = 2 ^ 16 - 1 from rfl,
    Nat.and_two_pow_sub_one_eq_mod]

theorem lnetNetTyp_toNat (net : UInt32) : (lnetNetTyp net).toNat = net.toNat / 2 ^ 16 % 2 ^ 16 := by
  rw [lnetNetTyp, UInt32.toNat_and, show (0xffff : UInt32).toNat = 2 ^ 16 - 1 from rfl,
    Nat.and_two_pow_sub_one_eq_mod, UInt32.toNat_shiftRight, Nat.shiftRight_eq_div_pow]
  rfl

theorem lnetMkNet_toNat {type num : UInt32} (htype : type.toNat < 2 ^ 16) (hnum : num.toNat < 2 ^ 16) :
    (lnetMkNet type num).toNat = type.toNat * 2 ^ 16 + num.toNat := by
  have hshift : type.toNat <<< ((16 : UInt32).toNat % 32) % 2 ^ 32 = type.toNat <<< 16 := by
    rw [show (16 : UInt32).toNat % 32 = 16 from rfl, Nat.shiftLeft_eq]
    apply Nat.mod_eq_of_lt
    omega
  rw [lnetMkNet, UInt32.toNat_or, UInt32.toNat_shiftLeft, hshift, shiftLeft_or_eq_add _ hnum]

/-- A network is rebuilt from its type and number. -/
theorem lnetMkNet_typ_num (net : UInt32) : lnetMkNet (lnetNetTyp net) (lnetNetNum net) = net := by
  apply UInt32.toNat_inj.mp
  have hnet := net.toNat_lt
  rw [lnetMkNet_toNat (by rw [lnetNetTyp_toNat]; omega) (by rw [lnetNetNum_toNat]; omega),
    lnetNetTyp_toNat, lnetNetNum_toNat]
  omega

theorem lnetNidAddr_toNat (nid : UInt64) : (lnetNidAddr nid).toNat = nid.toNat % 2 ^ 32 := by
  rw [lnetNidAddr, UInt64.toNat_toUInt32, UInt64.toNat_and,
    show (0xffffffff : UInt64).toNat = 2 ^ 32 - 1 from rfl, Nat.and_two_pow_sub_one_eq_mod,
    Nat.mod_mod]

theorem lnetNidNet_toNat (nid : UInt64) : (lnetNidNet nid).toNat = nid.toNat / 2 ^ 32 % 2 ^ 32 := by
  rw [lnetNidNet, UInt64.toNat_toUInt32, UInt64.toNat_and,
    show (0xffffffff : UInt64).toNat = 2 ^ 32 - 1 from rfl, Nat.and_two_pow_sub_one_eq_mod,
    Nat.mod_mod, UInt64.toNat_shiftRight, Nat.shiftRight_eq_div_pow]
  rfl

/-- A NID is rebuilt from its network and address. -/
theorem lnetMkNid_net_addr (nid : UInt64) : lnetMkNid (lnetNidNet nid) (lnetNidAddr nid) = nid := by
  apply UInt64.toNat_inj.mp
  have hnid := nid.toNat_lt
  have hnet : (lnetNidNet nid).toNat < 2 ^ 32 := (lnetNidNet nid).toNat_lt
  have hshift : (lnetNidNet nid).toUInt64.toNat <<< ((32 : UInt64).toNat % 64) % 2 ^ 64 =
      (lnetNidNet nid).toNat <<< 32 := by
    rw [UInt32.toNat_toUInt64, show (32 : UInt64).toNat % 64 = 32 from rfl, Nat.shiftLeft_eq]
    apply Nat.mod_eq_of_lt
    omega
  have haddr : (lnetNidAddr nid).toUInt64.toNat < 2 ^ 32 := by
    rw [UInt32.toNat_toUInt64]
    exact (lnetNidAddr nid).toNat_lt
  rw [lnetMkNid, UInt64.toNat_or, UInt64.toNat_shiftLeft, hshift, shiftLeft_or_eq_add _ haddr,
    UInt32.toNat_toUInt64, lnetNidNet_toNat, lnetNidAddr_toNat]
  omega

/-! ## Byte fields of an IP address -/

theorem addrByte_toNat (addr : UInt32) {s : UInt32} (hs : s.toNat < 32) :
    ((addr >>> s) &&& 0xff).toNat = addr.toNat / 2 ^ s.toNat % 256 := by
  rw [UInt32.toNat_and, show (0xff : UInt32).toNat = 2 ^ 8 - 1 from rfl,
    Nat.and_two_pow_sub_one_eq_mod, UInt32.toNat_shiftRight, Nat.mod_eq_of_lt hs,
    Nat.shiftRight_eq_div_pow]

/-- A byte passes `(a & ~0xff) == 0`. -/
theorem and_not_0xff_eq_zero {a : UInt32} (h : a.toNat < 256) : a &&& ~~~0xff = 0 := by
  apply UInt32.toNat_inj.mp
  have hmask : (~~~(0xff : UInt32)).toNat = 2 ^ 32 - 2 ^ 8 := rfl
  rw [UInt32.toNat_and, hmask, and_two_pow_sub_two_pow (by decide) a.toNat_lt]
  simp
  omega

/-- The byte `(addr >> k) & 0xff`, shifted back to its place. -/
theorem addrByte_shiftLeft_toNat (addr : UInt32) {k : UInt32} (hk : k.toNat ≤ 24) :
    (((addr >>> k) &&& 0xff) <<< k).toNat = addr.toNat / 2 ^ k.toNat % 256 * 2 ^ k.toNat := by
  have hpow : 2 ^ k.toNat ≤ 2 ^ 24 := Nat.pow_le_pow_right (by decide) hk
  have hlt : addr.toNat / 2 ^ k.toNat % 256 * 2 ^ k.toNat < 2 ^ 32 := by
    calc addr.toNat / 2 ^ k.toNat % 256 * 2 ^ k.toNat
        < 256 * 2 ^ k.toNat := Nat.mul_lt_mul_of_pos_right (Nat.mod_lt _ (by decide)) (Nat.two_pow_pos _)
      _ ≤ 256 * 2 ^ 24 := Nat.mul_le_mul_left _ hpow
      _ = 2 ^ 32 := by decide
  have hk32 : k.toNat % 32 = k.toNat := Nat.mod_eq_of_lt (by omega)
  rw [UInt32.toNat_shiftLeft, hk32, addrByte_toNat addr (by omega), Nat.shiftLeft_eq,
    Nat.mod_eq_of_lt hlt]

/-- `(a << 24) | (b << 16) | (c << 8) | d` on the four bytes of an address
gives the address back. -/
theorem ipAddr_join (addr : UInt32) :
    (((addr >>> 24) &&& 0xff) <<< 24) ||| (((addr >>> 16) &&& 0xff) <<< 16) |||
      (((addr >>> 8) &&& 0xff) <<< 8) ||| (addr &&& 0xff) = addr := by
  apply UInt32.toNat_inj.mp
  have hx := addr.toNat_lt
  have hd : (addr &&& 0xff).toNat = addr.toNat % 256 := by
    rw [UInt32.toNat_and, show (0xff : UInt32).toNat = 2 ^ 8 - 1 from rfl,
      Nat.and_two_pow_sub_one_eq_mod]
  simp only [UInt32.toNat_or]
  rw [addrByte_shiftLeft_toNat addr (by decide), addrByte_shiftLeft_toNat addr (by decide),
    addrByte_shiftLeft_toNat addr (by decide), hd]
  simp only [show (24 : UInt32).toNat = 24 from rfl, show (16 : UInt32).toNat = 16 from rfl,
    show (8 : UInt32).toNat = 8 from rfl]
  rw [bytes_or_eq_add (by omega) (by omega) (by omega)]
  omega

theorem addrLowByte_toNat (addr : UInt32) : (addr &&& 0xff).toNat = addr.toNat % 256 := by
  rw [UInt32.toNat_and, show (0xff : UInt32).toNat = 2 ^ 8 - 1 from rfl,
    Nat.and_two_pow_sub_one_eq_mod]

/-! ## The table -/

theorem nfName_length_le : ∀ nf ∈ libcfsNetstrfns, nf.nfName.length ≤ 4 := by
  decide

/-- The three kinds of entry: the loopback LND, the IP LNDs and the numeric
ones, each writing addresses in the form it reads them. -/
theorem netstrfns_kind : ∀ nf ∈ libcfsNetstrfns,
    (nf.nfAddr2str = .decnum ∧ nf.nfStr2addr = .lo ∧ nf.nfType = loLnd) ∨
      (nf.nfAddr2str = .ip ∧ nf.nfStr2addr = .ip ∧ nf.nfType ≠ loLnd) ∨
      (nf.nfAddr2str = .decnum ∧ nf.nfStr2addr = .num ∧ nf.nfType ≠ loLnd) := by
  decide

theorem libcfsLnd2netstrfns_mem {lnd : UInt32} {nf : Netstrfns}
    (h : libcfsLnd2netstrfns lnd = some nf) : nf ∈ libcfsNetstrfns ∧ nf.nfType = lnd :=
  ⟨List.mem_of_find?_eq_some h, by simpa using List.find?_some h⟩

/-- No name of the table is a prefix of another, and the table is searched
in order: the entry whose name a string starts with is found. -/
theorem netstrfnsByPrefix_name {nf : Netstrfns} (hmem : nf ∈ libcfsNetstrfns) (s : List Char) :
    netstrfnsByPrefix (nf.nfName ++ s) = some nf := by
  simp only [libcfsNetstrfns, List.mem_cons, List.not_mem_nil, or_false] at hmem
  rcases hmem with rfl | rfl | rfl | rfl | rfl | rfl <;>
    simp [netstrfnsByPrefix, libcfsNetstrfns, strncmp]

/-! ## Writing -/

theorem length_libcfsIpAddr2str_le (addr : UInt32) : (libcfsIpAddr2str addr).length ≤ 15 := by
  have hbyte : ∀ s : UInt32, s.toNat < 32 → (fmtNat 10 ((addr >>> s) &&& 0xff).toNat).length ≤ 3 :=
    fun s hs => length_fmtNat_le (by decide) 2 _ (by rw [addrByte_toNat addr hs]; omega)
  have hd : (fmtNat 10 (addr &&& 0xff).toNat).length ≤ 3 :=
    length_fmtNat_le (by decide) 2 _ (by rw [addrLowByte_toNat]; omega)
  have h24 := hbyte 24 (by decide)
  have h16 := hbyte 16 (by decide)
  have h8 := hbyte 8 (by decide)
  simp only [libcfsIpAddr2str, List.length_append, List.length_cons]
  omega

theorem length_addr2str_le (nf : Netstrfns) (addr : UInt32) : (nf.addr2str addr).length ≤ 15 := by
  unfold Netstrfns.addr2str
  split
  · have := length_fmtNat_le (show 2 ≤ 10 by decide) 9 addr.toNat (by have := addr.toNat_lt; omega)
    simp only [libcfsDecnumAddr2str]
    omega
  · exact length_libcfsIpAddr2str_le addr

theorem length_netSuffix_le {nf : Netstrfns} (hmem : nf ∈ libcfsNetstrfns) (nnum : UInt32)
    (hnum : nnum.toNat < 2 ^ 16) : (netSuffix nf nnum).length ≤ 10 := by
  have hname := nfName_length_le nf hmem
  have hdigits := length_fmtNat_le (show 2 ≤ 10 by decide) 4 nnum.toNat (by omega)
  simp only [netSuffix, List.length_cons, List.length_append]
  split <;> simp <;> omega

/-- A NID of a known LND is written in full, as its address, `@`, the
network name and, unless zero, the network number. -/
theorem libcfsNid2strR_known {nid : UInt64} {nf : Netstrfns} (hany : nid ≠ lnetNidAny)
    (hnf : libcfsLnd2netstrfns (lnetNetTyp (lnetNidNet nid)) = some nf) :
    libcfsNid2strR nid lnetNidstrSize =
      nf.addr2str (lnetNidAddr nid) ++ netSuffix nf (lnetNetNum (lnetNidNet nid)) := by
  have hmem := (libcfsLnd2netstrfns_mem hnf).1
  have haddr := length_addr2str_le nf (lnetNidAddr nid)
  have hsuf := length_netSuffix_le hmem (lnetNetNum (lnetNidNet nid))
    (by rw [lnetNetNum_toNat]; omega)
  have hs1 : snprintf lnetNidstrSize (nf.addr2str (lnetNidAddr nid)) = nf.addr2str (lnetNidAddr nid) :=
    List.take_of_length_le (by simp only [lnetNidstrSize]; omega)
  simp only [libcfsNid2strR, if_neg hany, hnf, hs1]
  rw [snprintf, List.take_of_length_le (by simp only [lnetNidstrSize]; omega)]

/-! ## Reading -/

theorem digitChar_ne_sep : ∀ d, d < 16 →
    digitChar d ≠ '@' ∧ digitChar d ≠ '.' ∧ digitChar d ≠ 'x' ∧ digitChar d ≠ 'X' := by
  decide

theorem isDigitOf_at : isDigitOf 10 '@' = false := by decide

theorem isDigitOf_dot : isDigitOf 10 '.' = false := by decide

theorem head_not_digit {c : Char} (hc : isDigitOf 10 c = false) (t : List Char) :
    ∀ x ∈ (c :: t).head?, isDigitOf 10 x = false := by
  intro x hx
  rw [List.head?_cons, Option.mem_def, Option.some.injEq] at hx
  rw [← hx]
  exact hc

/-- A `UInt32` printed with `%u` and read back into an `unsigned int`. -/
theorem ofNat_toNat_mod (x : UInt32) : UInt32.ofNat (x.toNat % 2 ^ 64 % 2 ^ 32) = x := by
  have hx := x.toNat_lt
  rw [Nat.mod_eq_of_lt (show x.toNat % 2 ^ 64 < 2 ^ 32 by omega),
    Nat.mod_eq_of_lt (show x.toNat < 2 ^ 64 by omega), UInt32.ofNat_toNat]

theorem at_not_mem_fmtNat (n : Nat) : '@' ∉ fmtNat 10 n := by
  intro h
  obtain ⟨d, hd, hc⟩ := digitChar_of_mem_fmtNat (show 2 ≤ 10 by decide) (by decide) n '@' h
  exact (digitChar_ne_sep d (by omega)).1 hc.symm

/-- Addresses are written without `@`. -/
theorem at_not_mem_addr2str (nf : Netstrfns) (addr : UInt32) : '@' ∉ nf.addr2str addr := by
  unfold Netstrfns.addr2str
  split
  · exact at_not_mem_fmtNat _
  · simp only [libcfsIpAddr2str, List.mem_append, List.mem_cons, at_not_mem_fmtNat, false_or]
    decide

/-- `strchr(str, '@')` finds the `@` written after the address. -/
theorem idxOf?_append_at {A : List Char} (h : '@' ∉ A) (N : List Char) :
    (A ++ '@' :: N).idxOf? '@' = some A.length := by
  induction A with
  | nil => simp [List.idxOf?, List.findIdx?_cons]
  | cons c A ih =>
    rw [List.mem_cons, not_or] at h
    have hc : c ≠ '@' := fun hc => h.1 hc.symm
    simp [List.idxOf?_cons, hc, ih h.2]

/-- `%u.%u.%u.%u%n` on a printed dotted quad. -/
theorem vsscanf_ipAddrFormat (a b c d : Nat) (rest : List Char)
    (hrest : ∀ x ∈ rest.head?, isDigitOf 10 x = false) :
    vsscanf ipAddrFormat
        (fmtNat 10 a ++ '.' :: (fmtNat 10 b ++ '.' :: (fmtNat 10 c ++ '.' :: (fmtNat 10 d ++ rest)))) 0 =
      (4, [a % 2 ^ 64 % 2 ^ 32, b % 2 ^ 64 % 2 ^ 32, c % 2 ^ 64 % 2 ^ 32, d % 2 ^ 64 % 2 ^ 32,
        (fmtNat 10 a).length + 1 + (fmtNat 10 b).length + 1 + (fmtNat 10 c).length + 1 +
          (fmtNat 10 d).length]) := by
  have hdot := head_not_digit isDigitOf_dot
  rw [ipAddrFormat, vsscanf_conv_fmtNat _ _ _ _ (hdot _), vsscanf_lit_self,
    vsscanf_conv_fmtNat _ _ _ _ (hdot _), vsscanf_lit_self, vsscanf_conv_fmtNat _ _ _ _ (hdot _),
    vsscanf_lit_self, vsscanf_conv_fmtNat _ _ _ _ hrest, vsscanf_count, vsscanf_nil]
  simp only [Nat.zero_add]

/-- `libcfs_ip_str2addr` reads back what `libcfs_ip_addr2str` wrote. -/
theorem libcfsIpStr2addr_addr2str (addr : UInt32) (rest : List Char) :
    libcfsIpStr2addr (libcfsIpAddr2str addr ++ '@' :: rest) (libcfsIpAddr2str addr).length =
      some addr := by
  have hbyte : ∀ s : UInt32, s.toNat < 32 → ((addr >>> s) &&& 0xff).toNat < 256 := by
    intro s hs
    rw [addrByte_toNat addr hs]
    omega
  have hlow : (addr &&& 0xff).toNat < 256 := by
    rw [addrLowByte_toNat]
    omega
  have hstr : libcfsIpAddr2str addr ++ '@' :: rest =
      fmtNat 10 ((addr >>> 24) &&& 0xff).toNat ++ '.' :: (fmtNat 10 ((addr >>> 16) &&& 0xff).toNat ++
        '.' :: (fmtNat 10 ((addr >>> 8) &&& 0xff).toNat ++ '.' :: (fmtNat 10 (addr &&& 0xff).toNat ++
          '@' :: rest))) := by
    simp [libcfsIpAddr2str]
  have hlen : (libcfsIpAddr2str addr).length =
      (fmtNat 10 ((addr >>> 24) &&& 0xff).toNat).length + 1 +
        (fmtNat 10 ((addr >>> 16) &&& 0xff).toNat).length + 1 +
        (fmtNat 10 ((addr >>> 8) &&& 0xff).toNat).length + 1 + (fmtNat 10 (addr &&& 0xff).toNat).length := by
    simp only [libcfsIpAddr2str, List.length_append, List.length_cons]
    omega
  unfold libcfsIpStr2addr
  rw [hstr, vsscanf_ipAddrFormat _ _ _ _ _ (head_not_digit isDigitOf_at rest)]
  simp only [List.getD_cons_zero, List.getD_cons_succ, ofNat_toNat_mod]
  rw [if_pos ⟨le_rfl, hlen.symm, and_not_0xff_eq_zero (hbyte 24 (by decide)),
    and_not_0xff_eq_zero (hbyte 16 (by decide)), and_not_0xff_eq_zero (hbyte 8 (by decide)),
    and_not_0xff_eq_zero hlow⟩, ipAddr_join]

/-- Neither hexadecimal format of `libcfs_num_str2addr` gets past the first
two characters of a decimal number followed by `@`. -/
theorem vsscanf_hex_of_decimal {x : Char} (hx : x = 'x' ∨ x = 'X') (n : Nat) (rest : List Char) :
    (vsscanf [.lit '0', .lit x, .conv 16, .count] (fmtNat 10 n ++ '@' :: rest) 0).1 = 0 := by
  have hdig := digitChar_of_mem_fmtNat (show 2 ≤ 10 by decide) (by decide) n
  obtain ⟨c, cs, hcs⟩ := List.exists_cons_of_ne_nil (fmtNat_ne_nil 10 n)
  obtain ⟨d, hd, rfl⟩ := hdig c (by simp [hcs])
  have hxat : '@' ≠ x := by rcases hx with rfl | rfl <;> decide
  rw [hcs, List.cons_append]
  by_cases h0 : digitChar d = '0'
  · rw [h0, vsscanf_lit_self]
    -- the second character is a digit, or the `@` after a one-digit number
    cases cs with
    | nil => rw [List.nil_append, vsscanf_lit_ne hxat]
    | cons e es =>
      obtain ⟨d', hd', rfl⟩ := hdig e (by simp [hcs])
      have hne : digitChar d' ≠ x := by
        rcases hx with rfl | rfl
        · exact (digitChar_ne_sep d' (by omega)).2.2.1
        · exact (digitChar_ne_sep d' (by omega)).2.2.2
      rw [List.cons_append, vsscanf_lit_ne hne]
  · rw [vsscanf_lit_ne h0]

theorem numAttempt_hex_of_decimal {fmt : List ScanDirective}
    (hfmt : fmt = hexLowerFormat ∨ fmt = hexUpperFormat) (n : Nat) (rest : List Char) (nob : Nat) :
    numAttempt fmt (fmtNat 10 n ++ '@' :: rest) nob = none := by
  have h0 : (vsscanf fmt (fmtNat 10 n ++ '@' :: rest) 0).1 = 0 := by
    rcases hfmt with rfl | rfl
    · exact vsscanf_hex_of_decimal (Or.inl rfl) n rest
    · exact vsscanf_hex_of_decimal (Or.inr rfl) n rest
  simp [numAttempt, h0]

/-- `libcfs_num_str2addr` reads back what `libcfs_decnum_addr2str` wrote,
with its third format. -/
theorem libcfsNumStr2addr_decnum (addr : UInt32) (rest : List Char) :
    libcfsNumStr2addr (libcfsDecnumAddr2str addr ++ '@' :: rest) (libcfsDecnumAddr2str addr).length =
      some addr := by
  unfold libcfsNumStr2addr libcfsDecnumAddr2str
  rw [numAttempt_hex_of_decimal (Or.inl rfl), numAttempt_hex_of_decimal (Or.inr rfl)]
  simp only [numAttempt, decimalFormat,
    vsscanf_conv_fmtNat _ _ _ _ (head_not_digit isDigitOf_at rest), vsscanf_count, vsscanf_nil]
  simp

/-- Each entry's `nf_str2addr` reads back what its `nf_addr2str` wrote; for
the loopback LND, address 0 only. -/
theorem str2addr_addr2str {nf : Netstrfns} (hmem : nf ∈ libcfsNetstrfns) (addr : UInt32)
    (hlo : nf.nfType = loLnd → addr = 0) (rest : List Char) :
    nf.str2addr (nf.addr2str addr ++ '@' :: rest) (nf.addr2str addr).length = some addr := by
  rcases netstrfns_kind nf hmem with ⟨ha, hs, ht⟩ | ⟨ha, hs, -⟩ | ⟨ha, hs, -⟩
  · rw [hlo ht]
    simp [Netstrfns.str2addr, hs, libcfsLoStr2addr]
  · simp only [Netstrfns.str2addr, Netstrfns.addr2str, ha, hs]
    exact libcfsIpStr2addr_addr2str addr rest
  · simp only [Netstrfns.str2addr, Netstrfns.addr2str, ha, hs]
    exact libcfsNumStr2addr_decnum addr rest

/-- `libcfs_str2net_internal` reads back the network part `libcfs_nid2str_r`
wrote after the `@`. -/
theorem libcfsStr2netInternal_netSuffix {nf : Netstrfns} (hmem : nf ∈ libcfsNetstrfns)
    {nnum : UInt32} (hlo : nf.nfType = loLnd → nnum = 0) :
    libcfsStr2netInternal (nf.nfName ++ (if nnum = 0 then [] else fmtNat 10 nnum.toNat)) =
      some (nf, lnetMkNet nf.nfType nnum) := by
  by_cases h0 : nnum = 0
  · have hfind := netstrfnsByPrefix_name hmem []
    rw [List.append_nil] at hfind
    simp [libcfsStr2netInternal, h0, hfind]
  · have hnlo : nf.nfType ≠ loLnd := fun h => h0 (hlo h)
    have hfind := netstrfnsByPrefix_name hmem (fmtNat 10 nnum.toNat)
    have hlen : (nf.nfName ++ fmtNat 10 nnum.toNat).length ≠ nf.nfName.length := by
      have hne := fmtNat_ne_nil 10 nnum.toNat
      rw [List.length_append]
      intro h
      exact hne (List.eq_nil_of_length_eq_zero (by omega))
    have hscan : vsscanf decimalFormat (fmtNat 10 nnum.toNat) 0 =
        (1, [nnum.toNat % 2 ^ 64 % 2 ^ 32, (fmtNat 10 nnum.toNat).length]) := by
      have h := vsscanf_conv_fmtNat [.count] nnum.toNat [] 0 (by simp)
      rw [List.append_nil] at h
      rw [decimalFormat, h, vsscanf_count, vsscanf_nil]
      simp
    rw [if_neg h0]
    simp only [libcfsStr2netInternal, hfind, if_neg hlen, if_neg hnlo, List.drop_left, hscan]
    simp

/-! ## The round trip -/

theorem drop_append_at (A N : List Char) : (A ++ '@' :: N).drop (A.length + 1) = N := by
  have happ : A ++ '@' :: N = (A ++ ['@']) ++ N := by simp
  rw [happ, show A.length + 1 = (A ++ ['@']).length by simp, List.drop_left]

theorem libcfs_str2nid_nid2str (nid : UInt64) (hany : nid ≠ lnetNidAny)
    (hknown : (libcfsLnd2netstrfns (lnetNetTyp (lnetNidNet nid))).isSome)
    (hlo : lnetNetTyp (lnetNidNet nid) = loLnd → nid = lnetNidLo0) :
    libcfsStr2nid (libcfsNid2strR nid lnetNidstrSize) = nid := by
  obtain ⟨nf, hnf⟩ := Option.isSome_iff_exists.mp hknown
  obtain ⟨hmem, htype⟩ := libcfsLnd2netstrfns_mem hnf
  -- the only loopback NID, `0@lo`, has address 0 and network number 0
  have hlo0 : nf.nfType = loLnd → lnetNidAddr nid = 0 ∧ lnetNetNum (lnetNidNet nid) = 0 := by
    intro h
    rw [hlo (htype ▸ h)]
    decide
  rw [libcfsNid2strR_known hany hnf, netSuffix, List.cons_append]
  unfold libcfsStr2nid
  rw [idxOf?_append_at (at_not_mem_addr2str nf _)]
  dsimp only
  rw [drop_append_at, libcfsStr2netInternal_netSuffix hmem (fun h => (hlo0 h).2)]
  dsimp only
  rw [str2addr_addr2str hmem _ (fun h => (hlo0 h).1)]
  dsimp only
  rw [htype, lnetMkNet_typ_num, lnetMkNid_net_addr]

/-- `192.168.1.1@tcp3`. -/
theorem libcfs_str2nid_nid2str_tcp3 :
    lnetMkNid (lnetMkNet sockLnd 3) 0xC0A80101 ≠ lnetNidAny ∧
      (libcfsLnd2netstrfns (lnetNetTyp (lnetNidNet (lnetMkNid (lnetMkNet sockLnd 3) 0xC0A80101)))).isSome ∧
      (lnetNetTyp (lnetNidNet (lnetMkNid (lnetMkNet sockLnd 3) 0xC0A80101)) = loLnd →
        lnetMkNid (lnetMkNet sockLnd 3) 0xC0A80101 = lnetNidLo0) ∧
      libcfsStr2nid (libcfsNid2strR (lnetMkNid (lnetMkNet sockLnd 3) 0xC0A80101) lnetNidstrSize) =
        lnetMkNid (lnetMkNet sockLnd 3) 0xC0A80101 :=
  ⟨by decide, by decide, by decide,
    libcfs_str2nid_nid2str _ (by decide) (by decide) (by decide)⟩

end Lustre.NidStrings
