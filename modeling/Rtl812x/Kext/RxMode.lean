import Rtl812x.Lib.Runs
import Rtl812x.Hw.RxFilter

/-!
# The receive mode of the kext

Four places write RxConfig, MAR0 and MAR1, each from its own part of the state:
`setPromiscuousMode` and `setMulticastMode` look at their argument and at `multicastFilter`, not at
the other's flag; `setMulticastList` writes the hash table whatever the flags are; and
`rtl812xHwConfig`, which runs at every link-up and restart, resets the chip and sets the multicast
mode again.

* `ModeOfFlags` — the registers are those the flags and the filter stand for;
* `listFilter_eq_allOnes_iff`, `listFilter_eq_zero_iff` — the lists whose filter is all ones, and all
  zeroes (`1 << n` is an `int` shift here);
* `WritesFlags` — the call writes what the flags it leaves behind stand for;
* `rxMode_ofFlags_iff` — **the registers are a function of the flags through a run exactly when every
  call writes its flags**.
-/

namespace Rtl812x.Kext

open Runs

/-! ### The driver -/

def kMCFilterLimit : ℕ := 32

/-- The flags, the filter and the chip's registers. -/
structure RxMode where
  promisc : Bool
  mCast : Bool
  multicastFilter : BitVec 64
  regs : RxFilter
deriving DecidableEq, Repr

def setPromiscuousMode (m : Mcfg) (active : Bool) (s : RxMode) : RxMode :=
  { s with
    regs :=
      if active then
        s.regs.program m (acceptBroadcast ||| acceptMulticast ||| acceptMyPhys ||| acceptAllPhys)
          (BitVec.allOnes 64)
      else s.regs.program m (acceptBroadcast ||| acceptMulticast ||| acceptMyPhys) s.multicastFilter
    promisc := active }

def setMulticastMode (m : Mcfg) (active : Bool) (s : RxMode) : RxMode :=
  { s with
    regs :=
      if active then
        s.regs.program m (acceptBroadcast ||| acceptMulticast ||| acceptMyPhys) s.multicastFilter
      else s.regs.program m (acceptBroadcast ||| acceptMyPhys) 0
    mCast := active }

/-- `1 << n`, a shift of an `int` that is then widened: the shift count is taken modulo 32, and bit 31
is the sign. -/
def intBit (n : ℕ) : BitVec 64 := (1#32 <<< (n % 32)).signExtend 64

def listFilter (addrs : List EtherAddr) : BitVec 64 :=
  addrs.foldl (fun filter a => filter ||| intBit (hashBit a &&& 0x3f)) 0

/-- The filter a list is given. -/
def mcFilter (addrs : List EtherAddr) : BitVec 64 :=
  if addrs.length ≤ kMCFilterLimit then osSwapInt64 (listFilter addrs) else BitVec.allOnes 64

def setMulticastList (addrs : List EtherAddr) (s : RxMode) : RxMode :=
  { s with
    multicastFilter := mcFilter addrs
    regs := s.regs.writeTable (mcFilter addrs) }

/-- The chip reset and the receiver mode of `rtl812xHwConfig`. -/
def rxHwConfig (m : Mcfg) (s : RxMode) : RxMode :=
  setMulticastMode m s.mCast { s with regs := s.regs.nicReset }

/-! ### Calls -/

inductive RxModeOp where
  | setPromiscuousMode (active : Bool)
  | setMulticastMode (active : Bool)
  | setMulticastList (addrs : List EtherAddr)
  | hwConfig

def rxModeStep (m : Mcfg) (s : RxMode) : RxModeOp → RxMode
  | .setPromiscuousMode active => setPromiscuousMode m active s
  | .setMulticastMode active => setMulticastMode m active s
  | .setMulticastList addrs => setMulticastList addrs s
  | .hwConfig => rxHwConfig m s

/-- Both flags are clear and the chip was reset; MAR0 and MAR1 may hold anything. -/
def RxMode.init (mar0 mar1 : BitVec 32) : RxMode :=
  ⟨false, false, 0, RxFilter.nicReset ⟨0, mar0, mar1⟩⟩

/-- The accept bits are those of the flags. -/
structure BitsOfFlags (s : RxMode) : Prop where
  allPhys : s.regs.rxConfig &&& acceptAllPhys ≠ 0 ↔ s.promisc = true
  multicast : s.regs.rxConfig &&& acceptMulticast ≠ 0 ↔ s.promisc = true ∨ s.mCast = true

/-- The hash table that the flags and the filter stand for. -/
def RxMode.table (s : RxMode) : BitVec 64 :=
  if s.promisc then BitVec.allOnes 64 else if s.mCast then s.multicastFilter else 0

/-- **The registers are a function of the flags.** -/
structure ModeOfFlags (s : RxMode) : Prop extends BitsOfFlags s where
  hashTable : s.regs.hashTable = s.table

/-- The filter of the list is all ones: it is too long, or it has every hash modulo 32. -/
def CoversAll (addrs : List EtherAddr) : Prop :=
  kMCFilterLimit < addrs.length ∨ ∀ r < 32, ∃ a ∈ addrs, hashBit a % 32 = r

/-- The call writes what the flags it leaves behind stand for. -/
def WritesFlags (s : RxMode) : RxModeOp → Prop
  | .setPromiscuousMode active => active = true ∨ s.mCast = true
  | .setMulticastMode _ => s.promisc = false
  | .setMulticastList addrs =>
    (s.promisc = true → CoversAll addrs) ∧ (s.promisc = false → s.mCast = false → addrs = [])
  | .hwConfig => s.promisc = false

/-! ### The filter of a list -/

variable {m : Mcfg} {s : RxMode}

theorem getLsbD_intBit (n : ℕ) {k : ℕ} (hk : k < 64) :
    (intBit n).getLsbD k = true ↔ n % 32 = k ∨ n % 32 = 31 ∧ 31 ≤ k := by
  have hn : n % 32 < 32 := Nat.mod_lt _ (by decide)
  rw [intBit, ← BitVec.twoPow_eq, BitVec.getLsbD_signExtend, BitVec.getLsbD_twoPow,
    BitVec.msb_twoPow]
  simp only [hk, decide_true, Bool.true_and, hn]
  split
  · simp
    omega
  · simp
    omega

theorem getLsbD_listFilter (addrs : List EtherAddr) {k : ℕ} (hk : k < 64) :
    (listFilter addrs).getLsbD k = true ↔
      ∃ a ∈ addrs, hashBit a % 32 = k ∨ hashBit a % 32 = 31 ∧ 31 ≤ k := by
  rw [listFilter, getLsbD_foldl_or]
  simp only [hashBit_and, getLsbD_intBit _ hk]
  simp

theorem osSwapInt64_eq_iff (x y : BitVec 64) : osSwapInt64 x = y ↔ x = osSwapInt64 y := by
  constructor
  · rintro rfl
    exact (osSwapInt64_osSwapInt64 x).symm
  · rintro rfl
    exact osSwapInt64_osSwapInt64 y

theorem listFilter_eq_allOnes_iff (addrs : List EtherAddr) :
    listFilter addrs = BitVec.allOnes 64 ↔ ∀ r < 32, ∃ a ∈ addrs, hashBit a % 32 = r := by
  constructor
  · intro h r hr
    have hbit : (listFilter addrs).getLsbD r = true := by
      rw [h, BitVec.getLsbD_allOnes]
      exact decide_eq_true (by omega)
    obtain ⟨a, ha, h | ⟨h, hle⟩⟩ := (getLsbD_listFilter addrs (by omega)).mp hbit
    · exact ⟨a, ha, h⟩
    · exact ⟨a, ha, by omega⟩
  · intro h
    apply BitVec.eq_of_getLsbD_eq
    intro k hk
    rw [BitVec.getLsbD_allOnes, decide_eq_true hk, getLsbD_listFilter addrs hk]
    by_cases hlow : k < 32
    · obtain ⟨a, ha, heq⟩ := h k hlow
      exact ⟨a, ha, Or.inl heq⟩
    · obtain ⟨a, ha, heq⟩ := h 31 (by decide)
      exact ⟨a, ha, Or.inr ⟨heq, by omega⟩⟩

theorem listFilter_eq_zero_iff (addrs : List EtherAddr) : listFilter addrs = 0 ↔ addrs = [] := by
  constructor
  · intro h
    by_contra hne
    obtain ⟨a, ha⟩ := List.exists_mem_of_ne_nil addrs hne
    have hbit : (listFilter addrs).getLsbD (hashBit a % 32) = true :=
      (getLsbD_listFilter addrs (by omega)).mpr ⟨a, ha, Or.inl rfl⟩
    rw [h] at hbit
    simp at hbit
  · rintro rfl
    rfl

theorem mcFilter_eq_allOnes_iff (addrs : List EtherAddr) :
    mcFilter addrs = BitVec.allOnes 64 ↔ CoversAll addrs := by
  unfold mcFilter CoversAll
  split
  case isTrue hle =>
    rw [osSwapInt64_eq_iff, osSwapInt64_allOnes, listFilter_eq_allOnes_iff]
    exact (or_iff_right (Nat.not_lt.mpr hle)).symm
  case isFalse hgt => exact iff_of_true rfl (Or.inl (Nat.lt_of_not_le hgt))

theorem mcFilter_eq_zero_iff (addrs : List EtherAddr) : mcFilter addrs = 0 ↔ addrs = [] := by
  unfold mcFilter
  split
  case isTrue hle => rw [osSwapInt64_eq_iff, osSwapInt64_zero, listFilter_eq_zero_iff]
  case isFalse hgt =>
    refine iff_of_false (by decide) ?_
    rintro rfl
    exact hgt (Nat.zero_le _)

/-! ### One call -/

/-- The registers after a mode and a filter were written. -/
theorem modeOfFlags_program_iff {rxMode : UInt32} {filter : BitVec 64} {f : RxFilter}
    (hregs : s.regs = f.program m rxMode filter) :
    ModeOfFlags s ↔ (rxMode &&& acceptAllPhys ≠ 0 ↔ s.promisc = true) ∧
      (rxMode &&& acceptMulticast ≠ 0 ↔ s.promisc = true ∨ s.mCast = true) ∧ filter = s.table := by
  have hphys : s.regs.rxConfig &&& acceptAllPhys = rxMode &&& acceptAllPhys := by
    rw [hregs, RxFilter.program_accept _ _ _ _ (by decide)]
  have hmulti : s.regs.rxConfig &&& acceptMulticast = rxMode &&& acceptMulticast := by
    rw [hregs, RxFilter.program_accept _ _ _ _ (by decide)]
  have htable : s.regs.hashTable = filter := by rw [hregs, RxFilter.program_hashTable]
  rw [← hphys, ← hmulti, ← htable]
  exact ⟨fun h => ⟨h.allPhys, h.multicast, h.hashTable⟩, fun h => ⟨⟨h.1, h.2.1⟩, h.2.2⟩⟩

theorem setPromiscuousMode_iff (active : Bool) :
    ModeOfFlags (setPromiscuousMode m active s) ↔ active = true ∨ s.mCast = true := by
  cases active with
  | true =>
      refine iff_of_true ((modeOfFlags_program_iff rfl).mpr ⟨?_, ?_, rfl⟩) (Or.inl rfl)
      · exact iff_of_true (by decide) rfl
      · exact iff_of_true (by decide) (Or.inl rfl)
  | false =>
      -- the multicast bit is set whatever the flag says
      refine (modeOfFlags_program_iff rfl).trans ?_
      have hmulti : (acceptBroadcast ||| acceptMulticast ||| acceptMyPhys) &&& acceptMulticast ≠ 0 := by
        decide
      have hphys : (acceptBroadcast ||| acceptMulticast ||| acceptMyPhys) &&& acceptAllPhys = 0 := by
        decide
      cases hm : s.mCast <;> simp [setPromiscuousMode, RxMode.table, hm, hmulti, hphys]

theorem setMulticastMode_iff (active : Bool) :
    ModeOfFlags (setMulticastMode m active s) ↔ s.promisc = false := by
  cases active with
  | true =>
      refine (modeOfFlags_program_iff rfl).trans ?_
      have hmulti : (acceptBroadcast ||| acceptMulticast ||| acceptMyPhys) &&& acceptMulticast ≠ 0 := by
        decide
      have hphys : (acceptBroadcast ||| acceptMulticast ||| acceptMyPhys) &&& acceptAllPhys = 0 := by
        decide
      cases hp : s.promisc <;> simp [setMulticastMode, RxMode.table, hp, hmulti, hphys]
  | false =>
      refine (modeOfFlags_program_iff rfl).trans ?_
      have hmulti : (acceptBroadcast ||| acceptMyPhys) &&& acceptMulticast = 0 := by decide
      have hphys : (acceptBroadcast ||| acceptMyPhys) &&& acceptAllPhys = 0 := by decide
      cases hp : s.promisc <;> simp [setMulticastMode, RxMode.table, hp, hmulti, hphys]

/-- The list is written to the table at once; whether it belongs there depends on the flags. -/
theorem setMulticastList_iff (hbits : BitsOfFlags s) (addrs : List EtherAddr) :
    ModeOfFlags (setMulticastList addrs s) ↔
      (s.promisc = true → CoversAll addrs) ∧ (s.promisc = false → s.mCast = false → addrs = []) := by
  have hbits' : BitsOfFlags (setMulticastList addrs s) := ⟨hbits.allPhys, hbits.multicast⟩
  have htable : (setMulticastList addrs s).regs.hashTable = mcFilter addrs :=
    RxFilter.writeTable_hashTable s.regs (mcFilter addrs)
  have hiff : ModeOfFlags (setMulticastList addrs s) ↔ mcFilter addrs = (setMulticastList addrs s).table := by
    rw [← htable]
    exact ⟨fun h => h.hashTable, fun h => ⟨hbits', h⟩⟩
  rw [hiff, ← mcFilter_eq_allOnes_iff, ← mcFilter_eq_zero_iff]
  cases hp : s.promisc <;> cases hm : s.mCast <;> simp [setMulticastList, RxMode.table, hp, hm]

/-- **A call leaves the registers of the flags exactly if it writes them.** -/
theorem rxModeStep_iff (hbits : BitsOfFlags s) (op : RxModeOp) :
    ModeOfFlags (rxModeStep m s op) ↔ WritesFlags s op := by
  cases op with
  | setPromiscuousMode active => exact setPromiscuousMode_iff active
  | setMulticastMode active => exact setMulticastMode_iff active
  | setMulticastList addrs => exact setMulticastList_iff hbits addrs
  | hwConfig => exact setMulticastMode_iff s.mCast

/-! ### Runs -/

theorem BitsOfFlags.init (mar0 mar1 : BitVec 32) : BitsOfFlags (RxMode.init mar0 mar1) := by
  have hphys : (rxDmaBurst512 <<< rxCfgDMAShift) &&& acceptAllPhys = 0 := by decide
  have hmulti : (rxDmaBurst512 <<< rxCfgDMAShift) &&& acceptMulticast = 0 := by decide
  constructor
  · simp [RxMode.init, RxFilter.nicReset, hphys]
  · simp [RxMode.init, RxFilter.nicReset, hmulti]

/-- **The receive mode is a function of the flags** after every call of a run exactly when every call
of the run writes what its flags stand for. -/
theorem rxMode_ofFlags_iff (m : Mcfg) (mar0 mar1 : BitVec 32) (ops : List RxModeOp) :
    Along (rxModeStep m) (fun s op => ModeOfFlags (rxModeStep m s op)) (RxMode.init mar0 mar1) ops ↔
      Along (rxModeStep m) WritesFlags (RxMode.init mar0 mar1) ops :=
  along_congr (fun _ op h => rxModeStep_iff h op) (fun _ _ _ h => h.toBitsOfFlags)
    (BitsOfFlags.init mar0 mar1)

/-- Promiscuous mode is on when the link flaps. -/
def promiscFlap : List RxModeOp := [.hwConfig, .setPromiscuousMode true, .hwConfig]

/-- The flag is still set, but the chip has left promiscuous mode. -/
theorem promiscFlap_not_ofFlags :
    (exec (rxModeStep .m41) (RxMode.init 0 0) promiscFlap).promisc = true ∧
    ¬ ModeOfFlags (exec (rxModeStep .m41) (RxMode.init 0 0) promiscFlap) := by
  refine ⟨by decide +kernel, fun h => ?_⟩
  exact absurd (h.allPhys.mpr (by decide +kernel)) (by decide +kernel)

end Rtl812x.Kext
