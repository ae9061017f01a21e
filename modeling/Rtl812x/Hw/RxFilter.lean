import Mathlib.Data.List.Perm.Subperm
import Rtl812x.Hw.Regs

/-!
# The chip's receive filter

The chip decides by the accept bits of RxConfig and by a 64-bit hash table in MAR0 and MAR1 which
frames it passes on: broadcast frames, multicast frames whose address hashes to a set bit, frames to
its own address, or all frames to any station.  The hash of an address is the top six bits of its
Ethernet CRC (`etherCrc`); the table is read in the byte order in which both drivers write it.

* `RxFilter`, `RxFilter.Accepts` — the three registers, and what the chip makes of them;
* `RxFilter.program` — how both drivers write them (`applyRxMode`, `setPromiscuousMode`,
  `setMulticastMode`): `program_accept`, `program_hashTable` say what is then found in them;
* `exists_hashBit` — every bit of the table is the hash of some group address;
* `getLsbD_foldl_or`, `exists_hash_not_listed` — the bits that a list of addresses sets, and that a
  short list leaves one of the upper bits out.
-/

namespace Rtl812x

/-! ### Register bits -/

def acceptErr : UInt32 := 0x20
def acceptRunt : UInt32 := 0x10
def acceptBroadcast : UInt32 := 0x08
def acceptMulticast : UInt32 := 0x04
def acceptMyPhys : UInt32 := 0x02
def acceptAllPhys : UInt32 := 0x01

/-- All accept bits, as `rtl8125_disable_rx_packet_filter` clears them. -/
def acceptBits : UInt32 :=
  acceptErr ||| acceptRunt ||| acceptBroadcast ||| acceptMulticast ||| acceptMyPhys ||| acceptAllPhys

def rxDmaBurst512 : UInt32 := 5
def rxDmaBurst256 : UInt32 := 4
def rxCfgDMAShift : UInt32 := 8
def rxFetchNumber8 : UInt32 := 0x40000000
def rxCloseMultiple : UInt32 := 0x00200000
def rxCfgPauseSlotEn : UInt32 := 0x00000800
def enableInnerVlan : UInt32 := 0x00400000
def enableOuterVlan : UInt32 := 0x00800000

/-- The chip table's `RCR_Cfg`, which the drivers keep in `rtl8125_rx_config`. -/
def rcrCfg : Mcfg → UInt32
  | .m2 | .m3 | .m6 =>
    rxFetchNumber8 ||| enableInnerVlan ||| enableOuterVlan ||| (rxDmaBurst256 <<< rxCfgDMAShift)
  | .m4 | .m5 | .m7 =>
    rxFetchNumber8 ||| rxCfgPauseSlotEn ||| enableInnerVlan ||| enableOuterVlan
      ||| (rxDmaBurst256 <<< rxCfgDMAShift)
  | .m8 | .m9 | .m10 | .m11 | .m12 | .m13 =>
    rxFetchNumber8 ||| rxCloseMultiple ||| rxCfgPauseSlotEn ||| enableInnerVlan ||| enableOuterVlan
      ||| (rxDmaBurst256 <<< rxCfgDMAShift)
  | .m31 =>
    rxFetchNumber8 ||| rxCfgPauseSlotEn ||| enableInnerVlan ||| enableOuterVlan
      ||| (rxDmaBurst512 <<< rxCfgDMAShift)
  | .m32 | .m33 | .m41 | .m42 =>
    rxFetchNumber8 ||| rxCloseMultiple ||| rxCfgPauseSlotEn ||| enableInnerVlan ||| enableOuterVlan
      ||| (rxDmaBurst512 <<< rxCfgDMAShift)

/-- The chip table's `RxConfigMask`, the same for every chip. -/
def rxConfigMask : UInt32 := 0xff7e5880

theorem rcrCfg_acceptBits (m : Mcfg) : rcrCfg m &&& acceptBits = 0 := by
  cases m <;> decide

theorem or_and_distrib (a b c : UInt32) : (a ||| b) &&& c = (a &&& c) ||| (b &&& c) :=
  UInt32.toBitVec_inj.mp BitVec.and_or_distrib_right

/-! ### Addresses and their hash -/

abbrev EtherAddr := Vector UInt8 6

/-- The group bit is set. -/
def EtherAddr.IsMulticast (a : EtherAddr) : Prop := a[0] &&& 1 ≠ 0

instance (a : EtherAddr) : Decidable a.IsMulticast := inferInstanceAs (Decidable (_ ≠ _))

def broadcastAddr : EtherAddr := Vector.replicate 6 0xff

theorem broadcastAddr_isMulticast : broadcastAddr.IsMulticast := by decide

/-- An entry of a multicast list. -/
abbrev MulticastAddr := { a : EtherAddr // a.IsMulticast }

/-- One bit of the Ethernet CRC. -/
def etherCrcBit (crc : BitVec 32) (bit : Bool) : BitVec 32 :=
  (crc <<< 1) ^^^ (if crc.msb ^^ bit then 0x04c11db7 else 0)

/-- The bits of an octet, lowest first. -/
def etherCrcOctet (crc : BitVec 32) (octet : UInt8) : BitVec 32 :=
  (List.range 8).foldl (fun crc i => etherCrcBit crc (octet.toBitVec.getLsbD i)) crc

def etherCrc (data : List UInt8) : BitVec 32 := data.foldl etherCrcOctet 0xffffffff

/-- The bit of the hash table an address stands for. -/
def hashBit (a : EtherAddr) : ℕ := (etherCrc a.toList >>> 26).toNat

theorem hashBit_lt (a : EtherAddr) : hashBit a < 64 := by
  have hlt := (etherCrc a.toList).isLt
  rw [hashBit, BitVec.toNat_ushiftRight, Nat.shiftRight_eq_div_pow]
  omega

/-- The mask the drivers put on it takes nothing away. -/
theorem hashBit_and (a : EtherAddr) : hashBit a &&& 0x3f = hashBit a := by
  rw [show (0x3f : ℕ) = 2 ^ 6 - 1 by rfl, Nat.and_two_pow_sub_one_eq_mod]
  exact Nat.mod_eq_of_lt (hashBit_lt a)

/-- The group address 01:00:00:00:00:`x`. -/
def groupAddr (x : UInt8) : EtherAddr := #v[1, 0, 0, 0, 0, x]

theorem groupAddr_isMulticast (x : UInt8) : (groupAddr x).IsMulticast := by
  show (1 : UInt8) &&& 1 ≠ 0
  decide

theorem groupAddr_ne_broadcastAddr (x : UInt8) : groupAddr x ≠ broadcastAddr := by
  intro h
  have hfirst : (1 : UInt8) = 0xff := congrArg (fun a : EtherAddr => a[0]) h
  exact absurd hfirst (by decide)

/-- **Every bit of the table is the hash of some group address.** -/
theorem exists_hashBit : ∀ n < 64, ∃ x : ℕ, x < 256 ∧ hashBit (groupAddr x.toUInt8) = n := by
  decide +kernel

/-- A list of at most 32 addresses leaves out one of the 33 hashes from 31 on. -/
theorem exists_hash_not_listed {addrs : List EtherAddr} (hlen : addrs.length ≤ 32) :
    ∃ n < 64, 31 ≤ n ∧ ∀ a ∈ addrs, hashBit a ≠ n := by
  by_contra hall
  push Not at hall
  have hsub : List.range' 31 33 ⊆ addrs.map hashBit := by
    intro n hn
    rw [List.mem_range'_1] at hn
    obtain ⟨a, ha, heq⟩ := hall n (by omega) hn.1
    exact List.mem_map.mpr ⟨a, ha, heq⟩
  have hle := ((List.nodup_range' (h := Nat.one_pos)).subperm hsub).length_le
  rw [List.length_map, List.length_range'] at hle
  omega

/-- A table made by setting bits for each address of a list has the bits of the addresses. -/
theorem getLsbD_foldl_or (bits : EtherAddr → BitVec 64) (addrs : List EtherAddr) (filter : BitVec 64)
    (n : ℕ) :
    (addrs.foldl (fun filter a => filter ||| bits a) filter).getLsbD n = true ↔
      filter.getLsbD n = true ∨ ∃ a ∈ addrs, (bits a).getLsbD n = true := by
  induction addrs generalizing filter with
  | nil => simp
  | cons a as ih =>
      rw [List.foldl_cons, ih, BitVec.getLsbD_or, Bool.or_eq_true, or_assoc]
      simp only [List.mem_cons, exists_eq_or_imp]

/-! ### The hash table -/

/-- `OSSwapInt64`: the bytes in reverse order. -/
def osSwapInt64 (x : BitVec 64) : BitVec 64 :=
  x.extractLsb' 0 8 ++ x.extractLsb' 8 8 ++ x.extractLsb' 16 8 ++ x.extractLsb' 24 8 ++
    x.extractLsb' 32 8 ++ x.extractLsb' 40 8 ++ x.extractLsb' 48 8 ++ x.extractLsb' 56 8

theorem getLsbD_osSwapInt64 (x : BitVec 64) {n : ℕ} (hn : n < 64) :
    (osSwapInt64 x).getLsbD n = x.getLsbD (8 * (7 - n / 8) + n % 8) := by
  simp only [osSwapInt64, BitVec.getLsbD_append, BitVec.getLsbD_extractLsb']
  repeat' split
  all_goals
    rw [decide_eq_true (by omega), Bool.true_and]
    congr 1
    omega

theorem osSwapInt64_osSwapInt64 (x : BitVec 64) : osSwapInt64 (osSwapInt64 x) = x := by
  apply BitVec.eq_of_getLsbD_eq
  intro n hn
  rw [getLsbD_osSwapInt64 _ hn, getLsbD_osSwapInt64 _ (by omega)]
  congr 1
  omega

theorem osSwapInt64_allOnes : osSwapInt64 (BitVec.allOnes 64) = BitVec.allOnes 64 := by decide

theorem osSwapInt64_zero : osSwapInt64 0 = 0 := by decide

/-- The registers that make up the filter. -/
structure RxFilter where
  rxConfig : UInt32
  mar0 : BitVec 32
  mar1 : BitVec 32
deriving DecidableEq, Repr

namespace RxFilter

/-- MAR1 and MAR0 as one 64-bit word. -/
def hashTable (f : RxFilter) : BitVec 64 := f.mar1 ++ f.mar0

/-- The chip passes on frames to this address, its own being `own`. -/
def Accepts (own : EtherAddr) (f : RxFilter) (a : EtherAddr) : Prop :=
  (a = broadcastAddr ∧ f.rxConfig &&& acceptBroadcast ≠ 0) ∨
  (a.IsMulticast ∧ f.rxConfig &&& acceptMulticast ≠ 0 ∧
    (osSwapInt64 f.hashTable).getLsbD (hashBit a) = true) ∨
  (¬ a.IsMulticast ∧ (f.rxConfig &&& acceptAllPhys ≠ 0 ∨
    f.rxConfig &&& acceptMyPhys ≠ 0 ∧ a = own))

instance (own : EtherAddr) (f : RxFilter) (a : EtherAddr) : Decidable (f.Accepts own a) :=
  inferInstanceAs (Decidable ((_ ∧ _) ∨ (_ ∧ _ ∧ _) ∨ (_ ∧ (_ ∨ _ ∧ _))))

/-- The last word that a chip reset writes. -/
def nicReset (f : RxFilter) : RxFilter := { f with rxConfig := rxDmaBurst512 <<< rxCfgDMAShift }

/-- Write a filter to MAR0 and MAR1, low word first. -/
def writeTable (filter : BitVec 64) (f : RxFilter) : RxFilter :=
  { f with mar0 := filter.extractLsb' 0 32, mar1 := filter.extractLsb' 32 32 }

/-- Write a mode and a filter. -/
def program (m : Mcfg) (rxMode : UInt32) (filter : BitVec 64) (f : RxFilter) : RxFilter :=
  writeTable filter { f with rxConfig := rxMode ||| (rcrCfg m ||| (f.rxConfig &&& rxConfigMask)) }

/-- **The accept bits are those of the mode.** -/
theorem program_accept (m : Mcfg) (rxMode : UInt32) (filter : BitVec 64) (f : RxFilter) {bit : UInt32}
    (hbit : acceptBits &&& bit = bit) :
    (program m rxMode filter f).rxConfig &&& bit = rxMode &&& bit := by
  have hrcr : rcrCfg m &&& bit = 0 := by
    rw [← hbit, ← UInt32.and_assoc, rcrCfg_acceptBits, UInt32.zero_and]
  have hmask : f.rxConfig &&& rxConfigMask &&& bit = 0 := by
    rw [← hbit, UInt32.and_assoc, ← UInt32.and_assoc rxConfigMask,
      show rxConfigMask &&& acceptBits = 0 by decide, UInt32.zero_and, UInt32.and_zero]
  simp only [program, writeTable, or_and_distrib, hrcr, hmask, UInt32.or_zero]

/-- **The hash table is the filter.** -/
theorem writeTable_hashTable (f : RxFilter) (filter : BitVec 64) :
    (f.writeTable filter).hashTable = filter := by
  apply BitVec.eq_of_getLsbD_eq
  intro n hn
  simp only [hashTable, writeTable, BitVec.getLsbD_append, BitVec.getLsbD_extractLsb']
  by_cases h : n < 32
  · simp [h]
  · simp [h, show n - 32 < 32 by omega, show 32 + (n - 32) = n by omega]

theorem program_hashTable (m : Mcfg) (rxMode : UInt32) (filter : BitVec 64) (f : RxFilter) :
    (program m rxMode filter f).hashTable = filter :=
  writeTable_hashTable _ filter

/-- What the chip accepts by a mode and a filter just written. -/
theorem accepts_program (m : Mcfg) (rxMode : UInt32) (filter : BitVec 64) (f : RxFilter)
    (own a : EtherAddr) :
    (program m rxMode filter f).Accepts own a ↔
      (a = broadcastAddr ∧ rxMode &&& acceptBroadcast ≠ 0) ∨
      (a.IsMulticast ∧ rxMode &&& acceptMulticast ≠ 0 ∧
        (osSwapInt64 filter).getLsbD (hashBit a) = true) ∨
      (¬ a.IsMulticast ∧ (rxMode &&& acceptAllPhys ≠ 0 ∨ rxMode &&& acceptMyPhys ≠ 0 ∧ a = own)) := by
  rw [Accepts, program_hashTable, program_accept _ _ _ _ (show acceptBits &&& acceptBroadcast = _ by decide),
    program_accept _ _ _ _ (show acceptBits &&& acceptMulticast = _ by decide),
    program_accept _ _ _ _ (show acceptBits &&& acceptAllPhys = _ by decide),
    program_accept _ _ _ _ (show acceptBits &&& acceptMyPhys = _ by decide)]

end RxFilter

end Rtl812x
