import Rtl812x.Dext.RxMode
import Rtl812x.Kext.RxMode

/-!
# The multicast hash filter in the two drivers

Both drivers turn a list of at most 32 addresses into a 64-bit filter: one bit for each address, its
number the top six bits of the address's Ethernet CRC, and the bytes swapped before the filter is
stored and written to MAR0 and MAR1.  Each has its own copy of the CRC, over an `int` in the kext and
a `uint32_t` in the dext, and its own shift: the kext's `1 << n` is an `int` shift.

* `Kext.etherCrc_eq`, `Dext.etherCrc_eq` — **the two copies compute one CRC**;
* `hashUnion` — the union of the bits that the addresses of a list stand for;
* `dext_listFilter_eq_hashUnion` — the dext's filter is that union for every list;
* `kext_listFilter_eq_hashUnion_iff` — **the kext's is that union exactly when every address of the
  list has a bit below 31**;
* `multicastFilter_agree_iff` — the two calls, with the registers they leave.
-/

namespace Rtl812x

/-! ### The two copies of the CRC -/

/-- The eight rounds of an octet, lowest bit first, for one round `bit` of the remainder. -/
def etherCrcRounds {σ : Type} (bit : σ → Bool → σ) : ℕ → σ → UInt8 → σ
  | 0, crc, _ => crc
  | n + 1, crc, octet => etherCrcRounds bit n (bit crc (octet &&& 1 ≠ 0)) (octet >>> 1)

/-- `ether_crc` of the kext: the remainder is an `int`. -/
def Kext.etherCrc (data : List UInt8) : UInt32 :=
  (data.foldl (etherCrcRounds (fun (crc : Int32) low =>
    (crc <<< 1) ^^^ (if decide (crc < 0) ^^ low then 0x04c11db7 else 0)) 8) (-1)).toUInt32

/-- `etherCrc` of the dext: the remainder is unsigned, and cast where its sign is read. -/
def Dext.etherCrc (data : List UInt8) : UInt32 :=
  data.foldl (etherCrcRounds (fun (crc : UInt32) low =>
    (crc <<< 1) ^^^ (if decide (crc.toInt32 < 0) ^^ low then 0x04c11db7 else 0)) 8) 0xffffffff

theorem octet_low_bit (octet : UInt8) : decide (octet &&& 1 ≠ 0) = octet.toBitVec.getLsbD 0 := by
  have hand : octet &&& 1 = 0 ↔ octet.toNat % 2 = 0 := by
    rw [← UInt8.toNat_inj, UInt8.toNat_and]
    show octet.toNat &&& 1 = 0 ↔ _
    rw [Nat.and_one_is_mod]
  have hbit : octet.toBitVec.getLsbD 0 = decide (octet.toNat % 2 = 1) := Nat.testBit_zero octet.toNat
  rw [hbit, decide_eq_decide, Ne, hand]
  omega

/-- A round that acts as `etherCrcBit` on the remainder's bits makes the loop act as
`etherCrcOctet`. -/
theorem etherCrcRounds_view {σ : Type} {bit : σ → Bool → σ} (view : σ → BitVec 32)
    (hbit : ∀ crc low, view (bit crc low) = etherCrcBit (view crc) low) (n : ℕ) (crc : σ)
    (octet : UInt8) :
    view (etherCrcRounds bit n crc octet) =
      (List.range n).foldl (fun crc i => etherCrcBit crc (octet.toBitVec.getLsbD i)) (view crc) := by
  induction n generalizing crc octet with
  | zero => rfl
  | succ n ih =>
      have hnext : ∀ i, (octet >>> 1).toBitVec.getLsbD i = octet.toBitVec.getLsbD (i + 1) := by
        intro i
        rw [UInt8.toBitVec_shiftRight]
        show (octet.toBitVec >>> 1).getLsbD i = _
        rw [BitVec.getLsbD_ushiftRight, Nat.add_comm]
      rw [etherCrcRounds, ih, hbit, List.range_succ_eq_map, List.foldl_cons, List.foldl_map,
        octet_low_bit]
      simp only [hnext]

theorem foldl_etherCrcRounds_view {σ : Type} {bit : σ → Bool → σ} (view : σ → BitVec 32)
    (hbit : ∀ crc low, view (bit crc low) = etherCrcBit (view crc) low) (data : List UInt8) (crc : σ) :
    view (data.foldl (etherCrcRounds bit 8) crc) = data.foldl etherCrcOctet (view crc) := by
  induction data generalizing crc with
  | nil => rfl
  | cons octet data ih =>
      rw [List.foldl_cons, List.foldl_cons, ih, etherCrcRounds_view view hbit]
      rfl

theorem int32_lt_zero (x : Int32) : decide (x < 0) = x.toBitVec.msb := by
  rw [← BitVec.slt_zero_eq_msb, Bool.eq_iff_iff, decide_eq_true_iff, Int32.lt_iff_toBitVec_slt]
  rfl

/-- **The kext's CRC.** -/
theorem Kext.etherCrc_eq (data : List UInt8) :
    (Kext.etherCrc data).toBitVec = Rtl812x.etherCrc data := by
  refine foldl_etherCrcRounds_view Int32.toBitVec (fun crc low => ?_) data (-1)
  rw [Int32.toBitVec_xor, Int32.toBitVec_shiftLeft, int32_lt_zero, etherCrcBit, apply_ite Int32.toBitVec]
  rfl

/-- **The dext's CRC.** -/
theorem Dext.etherCrc_eq (data : List UInt8) :
    (Dext.etherCrc data).toBitVec = Rtl812x.etherCrc data := by
  refine foldl_etherCrcRounds_view UInt32.toBitVec (fun crc low => ?_) data 0xffffffff
  rw [UInt32.toBitVec_xor, UInt32.toBitVec_shiftLeft, int32_lt_zero, etherCrcBit,
    apply_ite UInt32.toBitVec]
  rfl

end Rtl812x

namespace Rtl812x.Agreement

/-! ### The filters -/

/-- The union of the bits `CRC >> 26` of a list. -/
def hashUnion (crc : List UInt8 → UInt32) (addrs : List EtherAddr) : BitVec 64 :=
  addrs.foldl (fun filter a => filter ||| BitVec.twoPow 64 (crc a.toList >>> 26).toNat) 0

variable {crc : List UInt8 → UInt32} {addrs : List EtherAddr}

theorem crc_bit_eq_hashBit (hcrc : ∀ data, (crc data).toBitVec = etherCrc data) (a : EtherAddr) :
    (crc a.toList >>> 26).toNat = hashBit a := by
  rw [hashBit, ← hcrc, ← UInt32.toNat_toBitVec, UInt32.toBitVec_shiftRight]
  rfl

theorem getLsbD_hashUnion (hcrc : ∀ data, (crc data).toBitVec = etherCrc data) (n : ℕ) :
    (hashUnion crc addrs).getLsbD n = true ↔ ∃ a ∈ addrs, hashBit a = n := by
  rw [hashUnion, getLsbD_foldl_or]
  simp only [crc_bit_eq_hashBit hcrc, BitVec.getLsbD_twoPow, hashBit_lt]
  simp

theorem dext_listFilter_eq_hashUnion (hcrc : ∀ data, (crc data).toBitVec = etherCrc data) :
    Dext.listFilter addrs = hashUnion crc addrs := by
  apply BitVec.eq_of_getLsbD_eq
  intro n _
  rw [Bool.eq_iff_iff, Dext.getLsbD_listFilter, getLsbD_hashUnion hcrc]

/-- **The kext's filter.**  A bit from 32 on is shifted back by 32 places, and bit 31 is the sign and
sets every bit above it. -/
theorem kext_listFilter_eq_hashUnion_iff (hcrc : ∀ data, (crc data).toBitVec = etherCrc data)
    (hlen : addrs.length ≤ 32) :
    Kext.listFilter addrs = hashUnion crc addrs ↔ ∀ a ∈ addrs, hashBit a < 31 := by
  constructor
  · intro heq a ha
    by_contra hge
    have hsame : ∀ n < 64, (∃ a ∈ addrs, hashBit a % 32 = n ∨ hashBit a % 32 = 31 ∧ 31 ≤ n) ↔
        ∃ a ∈ addrs, hashBit a = n := by
      intro n hn
      rw [← Kext.getLsbD_listFilter addrs hn, heq, getLsbD_hashUnion hcrc]
    -- some address has remainder 31: `a` itself, or the one that makes up for the bit of `a`
    obtain ⟨b, hb, hsign⟩ : ∃ b ∈ addrs, hashBit b % 32 = 31 := by
      obtain ⟨b, hb, hbit⟩ := (hsame _ (hashBit_lt a)).mpr ⟨a, ha, rfl⟩
      rcases hbit with hbit | ⟨hbit, -⟩
      · exact ⟨a, ha, by omega⟩
      · exact ⟨b, hb, hbit⟩
    obtain ⟨n, hn, hle, hnone⟩ := exists_hash_not_listed hlen
    obtain ⟨c, hc, hcn⟩ := (hsame n hn).mp ⟨b, hb, Or.inr ⟨hsign, hle⟩⟩
    exact hnone c hc hcn
  · intro hlow
    apply BitVec.eq_of_getLsbD_eq
    intro n hn
    rw [Bool.eq_iff_iff, Kext.getLsbD_listFilter addrs hn, getLsbD_hashUnion hcrc]
    constructor
    · rintro ⟨a, ha, hbit⟩
      have hlt := hlow a ha
      exact ⟨a, ha, by omega⟩
    · rintro ⟨a, ha, rfl⟩
      have hlt := hlow a ha
      exact ⟨a, ha, Or.inl (by omega)⟩

/-! ### The two calls -/

/-- MAR0 and MAR1 have the bit of an address. -/
def HashBitSet (f : RxFilter) (a : EtherAddr) : Prop :=
  (osSwapInt64 f.hashTable).getLsbD (hashBit a) = true

theorem dext_setMulticastAddresses_filter (m : Mcfg) (d : Dext.RxMode) {count : ℕ}
    (hcount : count ≤ 32) (list : Vector EtherAddr count) :
    (Dext.setMulticastAddresses m count (some list) d).multicastFilter =
      osSwapInt64 (hashUnion Dext.etherCrc list.toList) := by
  rw [← dext_listFilter_eq_hashUnion Dext.etherCrc_eq]
  exact if_neg (Nat.not_lt.mpr hcount)

theorem kext_setMulticastList_filter (k : Kext.RxMode) (hlen : addrs.length ≤ 32) :
    (Kext.setMulticastList addrs k).multicastFilter = osSwapInt64 (Kext.listFilter addrs) :=
  if_pos hlen

/-- The dext leaves the bit of every listed address set, whatever its mode. -/
theorem dext_setMulticastAddresses_hashBitSet (m : Mcfg) (d : Dext.RxMode) {count : ℕ}
    (hcount : count ≤ 32) {list : Vector EtherAddr count} {a : EtherAddr} (ha : a ∈ list.toList) :
    HashBitSet (Dext.setMulticastAddresses m count (some list) d).regs a := by
  have hpos : count ≠ 0 := by
    have hlen := List.length_pos_of_mem ha
    rw [Vector.length_toList] at hlen
    omega
  have hmCast : (Dext.storeAddresses count (some list) d).mCast = true := decide_eq_true hpos
  unfold HashBitSet Dext.setMulticastAddresses Dext.applyRxMode
  cases hpromisc : (Dext.storeAddresses count (some list) d).promisc with
  | true =>
      simp only [if_true, RxFilter.program_hashTable, osSwapInt64_allOnes, BitVec.getLsbD_allOnes]
      exact decide_eq_true (hashBit_lt a)
  | false =>
      have hfilter : (Dext.storeAddresses count (some list) d).multicastFilter =
          osSwapInt64 (hashUnion Dext.etherCrc list.toList) :=
        dext_setMulticastAddresses_filter m d hcount list
      simp only [Bool.false_eq_true, if_false, hmCast, if_true, RxFilter.program_hashTable, hfilter,
        osSwapInt64_osSwapInt64]
      exact (getLsbD_hashUnion Dext.etherCrc_eq _).mpr ⟨a, ha, rfl⟩

/-- **The two drivers compute the same multicast filter exactly when every listed address hashes below
bit 31.**  For every list of at most 32 addresses and every earlier state of the two drivers: both
store the byte-swapped union of the bits `CRC >> 26`, each with its own CRC, hence the same filter,
and MAR0 and MAR1 then have the bit of every listed address. -/
theorem multicastFilter_agree_iff (m : Mcfg) (k : Kext.RxMode) (d : Dext.RxMode) (count : ℕ)
    (list : Vector EtherAddr count) (hcount : count ≤ 32) :
    ((Kext.setMulticastList list.toList k).multicastFilter =
        (Dext.setMulticastAddresses m count (some list) d).multicastFilter ∧
      (Kext.setMulticastList list.toList k).multicastFilter =
        osSwapInt64 (hashUnion Kext.etherCrc list.toList) ∧
      (Dext.setMulticastAddresses m count (some list) d).multicastFilter =
        osSwapInt64 (hashUnion Dext.etherCrc list.toList) ∧
      ∀ a ∈ list.toList, HashBitSet (Kext.setMulticastList list.toList k).regs a ∧
        HashBitSet (Dext.setMulticastAddresses m count (some list) d).regs a) ↔
      ∀ a ∈ list.toList, hashBit a < 31 := by
  have hlen : list.toList.length ≤ 32 := by rwa [Vector.length_toList]
  have hdext := dext_setMulticastAddresses_filter m d hcount list
  have hkext := kext_setMulticastList_filter k hlen
  have hunion : hashUnion Kext.etherCrc list.toList = hashUnion Dext.etherCrc list.toList := by
    rw [← dext_listFilter_eq_hashUnion Kext.etherCrc_eq, dext_listFilter_eq_hashUnion Dext.etherCrc_eq]
  rw [← kext_listFilter_eq_hashUnion_iff Kext.etherCrc_eq hlen]
  constructor
  · rintro ⟨-, hfilter, -⟩
    rw [hkext] at hfilter
    have hswap := congrArg osSwapInt64 hfilter
    rwa [osSwapInt64_osSwapInt64, osSwapInt64_osSwapInt64] at hswap
  · intro hfilter
    rw [hkext, hfilter, hdext, hunion]
    refine ⟨rfl, rfl, rfl, fun a ha => ⟨?_, dext_setMulticastAddresses_hashBitSet m d hcount ha⟩⟩
    have htable : (Kext.setMulticastList list.toList k).regs.hashTable =
        osSwapInt64 (Kext.listFilter list.toList) := by
      rw [← hkext]
      exact RxFilter.writeTable_hashTable k.regs _
    rw [HashBitSet, htable, osSwapInt64_osSwapInt64, hfilter]
    exact (getLsbD_hashUnion Kext.etherCrc_eq _).mpr ⟨a, ha, rfl⟩

/-- The group of all IPv6 nodes. -/
def allNodesGroup : EtherAddr := #v[0x33, 0x33, 0x00, 0x00, 0x00, 0x01]

/-- The drivers agree on the group of multicast DNS. -/
theorem multicastFilter_agree_mdnsGroup :
    (∀ a ∈ [Dext.mdnsGroup.1], hashBit a < 31) ∧
    (Kext.setMulticastList [Dext.mdnsGroup.1] (Kext.RxMode.init 0 0)).multicastFilter =
      (Dext.setMulticastAddresses .m41 1 (some #v[Dext.mdnsGroup.1])
        (Dext.RxModeRun.init 0 0).mode).multicastFilter := by
  have hlow : ∀ a ∈ [Dext.mdnsGroup.1], hashBit a < 31 := List.forall_mem_singleton.mpr (by decide +kernel)
  exact ⟨hlow, ((multicastFilter_agree_iff .m41 (Kext.RxMode.init 0 0) (Dext.RxModeRun.init 0 0).mode 1
    #v[Dext.mdnsGroup.1] (by decide)).mpr hlow).1⟩

/-- The kext sets bit 30 for the group of all IPv6 nodes, which hashes to bit 62: the filter is not the
dext's, and MAR0 and MAR1 do not have the bit of the group. -/
theorem multicastFilter_allNodesGroup :
    hashBit allNodesGroup = 62 ∧
    (Kext.setMulticastList [allNodesGroup] (Kext.RxMode.init 0 0)).multicastFilter ≠
      (Dext.setMulticastAddresses .m41 1 (some #v[allNodesGroup])
        (Dext.RxModeRun.init 0 0).mode).multicastFilter ∧
    ¬ HashBitSet (Kext.setMulticastList [allNodesGroup] (Kext.RxMode.init 0 0)).regs allNodesGroup := by
  refine ⟨by decide +kernel, by decide +kernel, ?_⟩
  unfold HashBitSet
  decide +kernel

end Rtl812x.Agreement
