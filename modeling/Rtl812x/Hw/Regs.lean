import Rtl812x.Lib.Counter

/-!
# Register bits, ring geometry and chip variants

What both drivers share through `rtl812xx.h` and the ring geometry headers (`RTL812xLucy.hpp`,
`RTL8127Hw.h`): descriptor and interrupt bits, the sizes of the rings, and the chip variants with
the width at which each reports how far its transmitter has come.

`Mcfg` has no default method: `rtl812xIdentifyChip` answers `false` for it and the driver does not
start.  `maxTxDescPtrMask_eq` and `descPtrPeriod_dvd` say what the transmit accounting uses of the
variants: the mask is a run of low bits, wider than the ring and no wider than the tail counter.
-/

namespace Rtl812x

/-! ### Ring geometry -/

def kNumTxDesc : ℕ := 1024
def kNumRxDesc : ℕ := 1024
def kTxLastDesc : ℕ := kNumTxDesc - 1
def kRxLastDesc : ℕ := kNumRxDesc - 1
def kTxDescMask : ℕ := kNumTxDesc - 1
def kRxDescMask : ℕ := kNumRxDesc - 1

theorem and_kTxDescMask (n : ℕ) : n &&& kTxDescMask = n % kNumTxDesc :=
  Nat.and_two_pow_sub_one_eq_mod n 10

theorem and_kRxDescMask (n : ℕ) : n &&& kRxDescMask = n % kNumRxDesc :=
  Nat.and_two_pow_sub_one_eq_mod n 10

/-! ### Descriptor words -/

def descOwn : UInt32 := 0x80000000
def ringEnd : UInt32 := 0x40000000
def firstFrag : UInt32 := 0x20000000
def lastFrag : UInt32 := 0x10000000
def giantSendv4 : UInt32 := 0x04000000
def giantSendv6 : UInt32 := 0x02000000
def rxRES : UInt32 := 0x00200000

def kMacHdrLen : ℕ := 14
def kIPv6HdrLen : ℕ := 40
def mssShift8125 : UInt32 := 18
def mssMask : UInt32 := 0x7ff
def gtTcphoShift : UInt32 := 18
def tcphoShift : UInt32 := 18
def tcphoMax : ℕ := 0x3ff
def txUDPCS : UInt32 := 0x80000000
def txTCPCS : UInt32 := 0x40000000
def txIPCS : UInt32 := 0x20000000
def txIPV6F : UInt32 := 0x10000000
def txVlanTag : UInt32 := 0x00020000

/-- A receive descriptor as the chip and the driver share it. -/
structure RxDesc where
  opts1 : UInt32
  opts2 : UInt32
  addr : ℕ
deriving DecidableEq, Repr

/-- The descriptor belongs to the chip. -/
def RxDesc.own (d : RxDesc) : Bool := d.opts1 &&& descOwn != 0

/-- A transmit descriptor; the four reserved words of the long format stay zero. -/
structure TxDesc where
  opts1 : UInt32
  opts2 : UInt32
  addr : ℕ
deriving DecidableEq, Repr

/-! ### Interrupt status, chip command and PHY status bits -/

def pcsTimeout : UInt32 := 0x4000
def linkChg : UInt32 := 0x0020
def rxDescUnavail : UInt32 := 0x0010
def txOK : UInt32 := 0x0004
def rxOK : UInt32 := 0x0001

def cmdRxEnb : UInt8 := 0x08
def cmdTxEnb : UInt8 := 0x04

def phyLinkStatus : UInt32 := 0x02

/-- A PHYstatus reading that says the link is up; all ones is a card that no longer answers. -/
def phyLinkUp (status : UInt32) : Bool := status != 0xffffffff && status &&& phyLinkStatus != 0

/-! ### Chip variants -/

/-- The chip variants (`CFG_METHOD_n`) that `rtl812xIdentifyChip` accepts. -/
inductive Mcfg where
  | m2 | m3 | m4 | m5 | m6 | m7 | m8 | m9 | m10 | m11 | m12 | m13 | m31 | m32 | m33 | m41 | m42
deriving DecidableEq, Repr

/-- The TxNoClose version of a chip, as `rtl8125_init_software_variable` sets it. -/
def hwSuppTxNoCloseVer : Mcfg → ℕ
  | .m2 | .m3 | .m4 | .m5 | .m6 | .m7 => 3
  | .m8 | .m9 | .m10 | .m11 | .m12 | .m13 | .m41 | .m42 => 6
  | .m31 => 4
  | .m32 | .m33 => 5

/-- `MaxTxDescPtrMask` for a TxNoClose version; other versions leave the field zero. -/
def maxTxDescPtrMask (ver : ℕ) : ℕ :=
  if ver = 5 ∨ ver = 6 then 0x7FFFFFFF
  else if ver = 4 then 0xFFFFFFFF
  else if ver = 3 then 0xFFFF
  else 0

/-- What a read of the close-pointer register can return: 16 bits for version 3, else 32. -/
def rtl812xGetHwCloPtr (ver reg : ℕ) : ℕ := if ver = 3 then reg % 2 ^ 16 else reg % 2 ^ 32

/-- What `rtl812xDoorbell` puts in the tail-pointer register. -/
def rtl812xDoorbell (ver tail : ℕ) : ℕ := if ver > 3 then tail else tail &&& 0xffff

/-- The period at which a chip's close pointer comes round. -/
def descPtrPeriod (m : Mcfg) : ℕ := maxTxDescPtrMask (hwSuppTxNoCloseVer m) + 1

/-- Every mask is a run of at least 16 low bits. -/
theorem maxTxDescPtrMask_eq (m : Mcfg) :
    ∃ k, 16 ≤ k ∧ k ≤ 32 ∧ maxTxDescPtrMask (hwSuppTxNoCloseVer m) = 2 ^ k - 1 := by
  cases m <;>
    first
    | exact ⟨16, by decide, by decide, by decide⟩
    | exact ⟨31, by decide, by decide, by decide⟩
    | exact ⟨32, by decide, by decide, by decide⟩

theorem descPtrPeriod_dvd (m : Mcfg) : descPtrPeriod m ∣ 2 ^ 32 := by
  obtain ⟨k, _, hk, hmask⟩ := maxTxDescPtrMask_eq m
  rw [descPtrPeriod, hmask, Nat.sub_add_cancel Nat.one_le_two_pow]
  exact Nat.pow_dvd_pow 2 hk

theorem kNumTxDesc_lt_descPtrPeriod (m : Mcfg) : kNumTxDesc < descPtrPeriod m := by
  cases m <;> decide

/-- The masked 32-bit difference both drivers take is the distance modulo the period. -/
theorem sub32_and_maxTxDescPtrMask (m : Mcfg) (a b : ℕ) :
    WrapCounter.sub32 a b &&& maxTxDescPtrMask (hwSuppTxNoCloseVer m)
      = WrapCounter.lag (descPtrPeriod m) a b := by
  obtain ⟨k, _, _, hmask⟩ := maxTxDescPtrMask_eq m
  rw [descPtrPeriod, hmask, WrapCounter.sub32_and_mask, Nat.sub_add_cancel Nat.one_le_two_pow]

theorem rtl812xGetHwCloPtr_lt (ver reg : ℕ) : rtl812xGetHwCloPtr ver reg < 2 ^ 32 := by
  unfold rtl812xGetHwCloPtr
  split
  · exact lt_trans (Nat.mod_lt _ (by decide)) (by decide)
  · exact Nat.mod_lt _ (by decide)

end Rtl812x
