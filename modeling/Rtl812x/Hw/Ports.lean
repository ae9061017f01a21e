import Mathlib.Data.BitVec
import Mathlib.Logic.Function.Basic
import Rtl812x.Lib.Poll

/-!
# Registers behind ports

Most of the chip is not in its register window.  The PHY, the MAC's own registers, the PCIe PHY, PCI
configuration space and the SerDes are reached through ports: the driver writes a command word (or, for
the SerDes, an address, a value and a command), waits until the chip flips the flag in it, and finds the
result in the word or in a data register.  `rtl812xx.cpp` and `rtl8127_fiber.cpp` have one pair of
functions for each port.

What the chip does with a command is modelled as the driver's comments and tests have it: the flag says
who is to move.  While the chip works the port reads as it was written; how long that takes is up to the
chip (`Poll.Dev`).

* `WordPort`, `DataPort`, `SdsPort` — the three kinds of port, with the registers behind them;
* `mdioRealDirectWritePhyOcp`, … — the functions of the driver;
* `WordPort.read_spec`, `WordPort.write_spec`, … — **what an access does to a prompt chip**: the register
  is read or written, the others are as before, and the port is idle again.
-/

namespace Rtl812x.Ports

open Poll

/-! ### Words -/

/-- `OCPR_Flag`, `EPHYAR_Flag`, `CSIAR_Flag`, `ERIAR_Flag`, and the write commands. -/
def flagBit : BitVec 32 := 0x80000000

def flagged (w : BitVec 32) : Bool := w &&& flagBit != 0

/-- Bits 30 to 16 of a command word. -/
def addrField (w : BitVec 32) : BitVec 15 := w.extractLsb' 16 15

/-- Bits 15 to 0 of a command word. -/
def dataField (w : BitVec 32) : BitVec 16 := w.extractLsb' 0 16

/-- Everything below the flag. -/
def belowFlag (w : BitVec 32) : BitVec 31 := w.extractLsb' 0 31

theorem getLsbD_flagBit (i : ℕ) : flagBit.getLsbD i = decide (i = 31) := by
  rw [show flagBit = BitVec.twoPow 32 31 from rfl, BitVec.getLsbD_twoPow]
  grind

theorem flagged_eq (w : BitVec 32) : flagged w = w.getLsbD 31 := by
  rw [flagged, show flagBit = BitVec.twoPow 32 31 from rfl, BitVec.and_twoPow]
  cases w.getLsbD 31 <;> rfl

/-- A word with its flag flipped, and the data of a read. -/
def answer (w : BitVec 32) (data : BitVec 16) : BitVec 32 := (w ^^^ flagBit) ||| data.setWidth 32

theorem flagged_answer (w : BitVec 32) (data : BitVec 16) : flagged (answer w data) = !flagged w := by
  rw [flagged_eq, flagged_eq, answer, BitVec.getLsbD_or, BitVec.getLsbD_xor, getLsbD_flagBit]
  simp

theorem flagged_xor (w : BitVec 32) : flagged (w ^^^ flagBit) = !flagged w := by
  rw [flagged_eq, flagged_eq, BitVec.getLsbD_xor, getLsbD_flagBit]
  simp

theorem dataField_answer {w : BitVec 32} (h : dataField w = 0) (data : BitVec 16) :
    dataField (answer w data) = data := by
  have hbits : ∀ i < 16, w.getLsbD i = false := by
    intro i hi
    have := congrArg (fun x : BitVec 16 => x.getLsbD i) h
    simpa [dataField, hi] using this
  unfold answer dataField
  grind [getLsbD_flagBit]

/-! ### A port whose command word carries the data -/

/-- `PHYOCP`, `MACOCP`, `EPHYAR`: registers, and what the port reads. -/
structure WordPort where
  file : BitVec 15 → BitVec 16
  word : BitVec 32

/-- The chip carries out the command in `w`: with the flag set it writes, otherwise it reads. -/
def WordPort.carryOut (p : WordPort) (w : BitVec 32) : WordPort :=
  if flagged w then ⟨Function.update p.file (addrField w) (dataField w), w ^^^ flagBit⟩
  else ⟨p.file, answer w (p.file (addrField w))⟩

/-- `RTL_W32` of a command word. -/
def WordPort.command (w : BitVec 32) (d : Dev WordPort) : Dev WordPort :=
  d.start { d.now with word := w } (d.now.carryOut w)

/-- `RTL_W32` of `MACOCP`, which is not waited for. -/
def WordPort.commandAtOnce (w : BitVec 32) (p : WordPort) : WordPort := p.carryOut w

def phyOcpPolls : ℕ := 100
def ephyPolls : ℕ := 10

/-- `mdio_real_direct_write_phy_ocp`. -/
def mdioRealDirectWritePhyOcp (regAddr value : BitVec 16) (d : Dev WordPort) : Dev WordPort :=
  let data32 := (regAddr / 2).setWidth 32 <<< 16
  let data32 := data32 ||| (flagBit ||| value.setWidth 32)
  (WordPort.command data32 d).poll (fun p => !flagged p.word) phyOcpPolls

/-- `mdio_real_direct_read_phy_ocp`. -/
def mdioRealDirectReadPhyOcp (regAddr : BitVec 16) (d : Dev WordPort) : BitVec 16 × Dev WordPort :=
  let data32 := (regAddr / 2).setWidth 32 <<< 16
  let d := (WordPort.command data32 d).poll (fun p => flagged p.word) phyOcpPolls
  (dataField d.now.word, d)

/-- `rtl8125_mac_ocp_write`. -/
def macOcpWrite (regAddr value : BitVec 16) (p : WordPort) : WordPort :=
  let data32 := (regAddr / 2).setWidth 32 <<< 16
  let data32 := data32 + value.setWidth 32
  WordPort.commandAtOnce (data32 ||| flagBit) p

/-- `rtl8125_mac_ocp_read`. -/
def macOcpRead (regAddr : BitVec 16) (p : WordPort) : BitVec 16 × WordPort :=
  let p := WordPort.commandAtOnce ((regAddr / 2).setWidth 32 <<< 16) p
  (dataField p.word, p)

def ephyarRegMaskV2 : BitVec 32 := 0x7f

/-- `rtl8125_ephy_write`. -/
def ephyWrite (regAddr value : BitVec 32) (d : Dev WordPort) : Dev WordPort :=
  let w := flagBit ||| (regAddr &&& ephyarRegMaskV2) <<< 16 ||| (value &&& 0xffff)
  (WordPort.command w d).poll (fun p => !flagged p.word) ephyPolls

/-- `rtl8125_ephy_read`: all ones if the chip does not answer in time. -/
def ephyRead (regAddr : BitVec 32) (d : Dev WordPort) : BitVec 16 × Dev WordPort :=
  let d := (WordPort.command ((regAddr &&& ephyarRegMaskV2) <<< 16) d).poll (fun p => flagged p.word)
    ephyPolls
  (if flagged d.now.word then dataField d.now.word else 0xffff, d)

/-! ### A port with a data register -/

/-- `CSIAR` and `CSIDR`, `ERIAR` and `ERIDR`: registers, by the command word below its flag; the data
register; and what the command register reads. -/
structure DataPort where
  file : BitVec 31 → BitVec 32
  data : BitVec 32
  word : BitVec 32

def DataPort.carryOut (p : DataPort) (w : BitVec 32) : DataPort :=
  if flagged w then ⟨Function.update p.file (belowFlag w) p.data, p.data, w ^^^ flagBit⟩
  else ⟨p.file, p.file (belowFlag w), w ^^^ flagBit⟩

def DataPort.command (w : BitVec 32) (d : Dev DataPort) : Dev DataPort :=
  d.start { d.now with word := w } (d.now.carryOut w)

/-- `RTL_W32` of the data register. -/
def DataPort.setData (v : BitVec 32) (d : Dev DataPort) : Dev DataPort :=
  { d with now := { d.now with data := v }, next := { d.next with data := v } }

def csiPolls : ℕ := 10

def csiarByteEn : BitVec 32 := 0xf000
def csiarAddrMask : BitVec 32 := 0x0fff

/-- `rtl8125_csi_other_fun_read`; the chip is known, so the function number stands. -/
def csiOtherFunRead (fn : BitVec 8) (addr : BitVec 32) (d : Dev DataPort) : BitVec 32 × Dev DataPort :=
  let cmd := csiarByteEn ||| (addr &&& csiarAddrMask)
  if 7 < fn then (0xffffffff, d)
  else
    let d := (DataPort.command (cmd ||| fn.setWidth 32 <<< 16) d).poll (fun p => flagged p.word) csiPolls
    (if flagged d.now.word then d.now.data else 0, d)

/-- `rtl8125_csi_other_fun_write`. -/
def csiOtherFunWrite (fn : BitVec 8) (addr value : BitVec 32) (d : Dev DataPort) : Dev DataPort :=
  let d := DataPort.setData value d
  let cmd := flagBit ||| csiarByteEn ||| (addr &&& csiarAddrMask)
  if 7 < fn then d
  else (DataPort.command (cmd ||| fn.setWidth 32 <<< 16) d).poll (fun p => !flagged p.word) csiPolls

/-! ### The SerDes -/

/-- The registers of the SerDes, and the four 16-bit registers of its port. -/
structure SdsPort where
  file : BitVec 16 → BitVec 16
  cmd : BitVec 16
  addr : BitVec 16
  dataIn : BitVec 16
  dataOut : BitVec 16

def sdsCmdIn : BitVec 16 := 0x1
def sdsWeIn : BitVec 16 := 0x2
def sdsPolls : ℕ := 100

/-- The chip carries out a command and clears its bit. -/
def SdsPort.carryOut (p : SdsPort) (cmd : BitVec 16) : SdsPort :=
  if cmd &&& sdsWeIn != 0 then
    { p with file := Function.update p.file p.addr p.dataIn, cmd := cmd &&& ~~~sdsCmdIn }
  else { p with dataOut := p.file p.addr, cmd := cmd &&& ~~~sdsCmdIn }

def SdsPort.command (cmd : BitVec 16) (d : Dev SdsPort) : Dev SdsPort :=
  d.start { d.now with cmd := cmd } (d.now.carryOut cmd)

def SdsPort.set (f : SdsPort → SdsPort) (d : Dev SdsPort) : Dev SdsPort :=
  { d with now := f d.now, next := f d.next }

def SdsPort.idle (p : SdsPort) : Bool := p.cmd &&& sdsCmdIn == 0

/-- `R8127_MAKE_SDS_8127_ADDR`. -/
def makeSdsAddr (index page reg : BitVec 16) : BitVec 16 := index <<< 11 ||| page <<< 5 ||| reg

/-- `rtl8127_sds_phy_read_8127`. -/
def sdsPhyRead (index page reg : BitVec 16) (d : Dev SdsPort) : BitVec 16 × Dev SdsPort :=
  let d := SdsPort.set (fun p => { p with addr := makeSdsAddr index page reg }) d
  let d := (SdsPort.command sdsCmdIn d).poll SdsPort.idle sdsPolls
  (if d.now.idle then d.now.dataOut else 0xffff, d)

/-- `rtl8127_sds_phy_write_8127`. -/
def sdsPhyWrite (index page reg val : BitVec 16) (d : Dev SdsPort) : Dev SdsPort :=
  let d := SdsPort.set (fun p => { p with dataIn := val }) d
  let d := SdsPort.set (fun p => { p with addr := makeSdsAddr index page reg }) d
  (SdsPort.command (sdsCmdIn ||| sdsWeIn) d).poll SdsPort.idle sdsPolls

/-! ### Pages of the PHY -/

def ocpStdPhyBasePage : BitVec 16 := 0x0A40

/-- `map_phy_ocp_addr`. -/
def mapPhyOcpAddr (pageNum : BitVec 16) (regNum : BitVec 8) : BitVec 16 :=
  let ocpPageNum := if pageNum = 0 then ocpStdPhyBasePage + (regNum / 8).setWidth 16 else pageNum
  let ocpRegNum := if pageNum = 0 then 0x10 + regNum % 8 else regNum
  let ocpPageNum := ocpPageNum <<< 4
  if ocpRegNum < 16 then 0 else ocpPageNum + ((ocpRegNum - 16) <<< 1).setWidth 16

/-! ### What the command words say -/

/-- The register at a byte address of the PHY or the MAC. -/
def ocpIndex (regAddr : BitVec 16) : BitVec 15 := (regAddr / 2).setWidth 15

/-- The register of the PCIe PHY at an address. -/
def ephyIndex (regAddr : BitVec 32) : BitVec 15 := (regAddr &&& ephyarRegMaskV2).setWidth 15

/-- The word of PCI configuration space at an address of a function. -/
def csiIndex (fn : BitVec 8) (addr : BitVec 32) : BitVec 31 :=
  belowFlag (csiarByteEn ||| (addr &&& csiarAddrMask) ||| fn.setWidth 32 <<< 16)

theorem getLsbD_half (a : BitVec 16) : (a / 2).getLsbD 15 = false := by
  rw [BitVec.getLsbD, BitVec.toNat_udiv]
  exact Nat.testBit_lt_two_pow (by have := a.isLt; simp; omega)

theorem getLsbD_lowBits (n i : ℕ) :
    (BitVec.ofNat 32 (2 ^ n - 1)).getLsbD i = (decide (i < 32) && decide (i < n)) := by
  rw [BitVec.getLsbD_ofNat, Nat.testBit_two_pow_sub_one]

theorem getLsbD_ephyMask (i : ℕ) : ephyarRegMaskV2.getLsbD i = decide (i < 7) := by
  rw [show ephyarRegMaskV2 = BitVec.ofNat 32 (2 ^ 7 - 1) from rfl, getLsbD_lowBits]
  grind

theorem getLsbD_dataMask (i : ℕ) : (0xffff : BitVec 32).getLsbD i = decide (i < 16) := by
  rw [show (0xffff : BitVec 32) = BitVec.ofNat 32 (2 ^ 16 - 1) from rfl, getLsbD_lowBits]
  grind

theorem getLsbD_csiMask (i : ℕ) : csiarAddrMask.getLsbD i = decide (i < 12) := by
  rw [show csiarAddrMask = BitVec.ofNat 32 (2 ^ 12 - 1) from rfl, getLsbD_lowBits]
  grind

/-- What a command word says: whether it writes, which register, and what. -/
structure Says (w : BitVec 32) (write : Bool) (index : BitVec 15) (data : BitVec 16) : Prop where
  flagged : flagged w = write
  addr : addrField w = index
  data : dataField w = data

theorem says_write (a v : BitVec 16) :
    Says ((a / 2).setWidth 32 <<< 16 ||| (flagBit ||| v.setWidth 32)) true (ocpIndex a) v := by
  refine ⟨?_, ?_, ?_⟩
  · rw [flagged_eq]
    grind [getLsbD_flagBit]
  · unfold addrField ocpIndex
    grind [getLsbD_flagBit]
  · unfold dataField
    grind [getLsbD_flagBit]

theorem says_read (a : BitVec 16) : Says ((a / 2).setWidth 32 <<< 16) false (ocpIndex a) 0 := by
  refine ⟨?_, ?_, ?_⟩
  · rw [flagged_eq]
    grind [getLsbD_half]
  · unfold addrField ocpIndex
    grind
  · unfold dataField
    grind

/-- The MAC's functions add where the PHY's set bits; nothing is carried. -/
theorem says_macWrite (a v : BitVec 16) :
    Says ((a / 2).setWidth 32 <<< 16 + v.setWidth 32 ||| flagBit) true (ocpIndex a) v := by
  have hadd : (a / 2).setWidth 32 <<< 16 + v.setWidth 32 = (a / 2).setWidth 32 <<< 16 ||| v.setWidth 32 :=
    BitVec.add_eq_or_of_and_eq_zero _ _ (by grind)
  rw [hadd, BitVec.or_assoc, BitVec.or_comm _ flagBit]
  exact says_write a v

theorem says_ephyWrite (a v : BitVec 32) :
    Says (flagBit ||| (a &&& ephyarRegMaskV2) <<< 16 ||| (v &&& 0xffff)) true (ephyIndex a)
      (v.setWidth 16) := by
  refine ⟨?_, ?_, ?_⟩
  · rw [flagged_eq]
    grind [getLsbD_flagBit]
  · unfold addrField ephyIndex
    grind [getLsbD_flagBit, getLsbD_ephyMask, getLsbD_dataMask]
  · unfold dataField
    grind [getLsbD_flagBit, getLsbD_ephyMask, getLsbD_dataMask]

theorem says_ephyRead (a : BitVec 32) :
    Says ((a &&& ephyarRegMaskV2) <<< 16) false (ephyIndex a) 0 := by
  refine ⟨?_, ?_, ?_⟩
  · rw [flagged_eq]
    grind [getLsbD_ephyMask]
  · unfold addrField ephyIndex
    grind [getLsbD_ephyMask]
  · unfold dataField
    grind [getLsbD_ephyMask]

/-! ### Accesses to a prompt chip -/

section WordPort

variable {m n : ℕ} {d : Dev WordPort} {file : BitVec 15 → BitVec 16} {w : BitVec 32} {a : BitVec 15}
  {v : BitVec 16}

theorem WordPort.carryOut_write {p : WordPort} (hw : Says w true a v) :
    p.carryOut w = ⟨Function.update p.file a v, w ^^^ flagBit⟩ := by
  rw [carryOut, if_pos hw.flagged, hw.addr, hw.data]

theorem WordPort.carryOut_read {p : WordPort} (hw : Says w false a 0) :
    p.carryOut w = ⟨p.file, answer w (p.file a)⟩ := by
  rw [carryOut, if_neg (by rw [hw.flagged]; exact Bool.false_ne_true), hw.addr]

/-- **A write command**, waited for: the register has the value and the others are as before. -/
theorem WordPort.write_spec (h : d.Holds n WordPort.file file) (hm : n ≤ m) (hw : Says w true a v) :
    ((command w d).poll (fun p => !flagged p.word) m).Holds n WordPort.file (Function.update file a v) := by
  have hout := WordPort.carryOut_write (p := d.now) hw
  have hdone : ((command w d).poll (fun p => !flagged p.word) m).Holds n id (d.now.carryOut w) :=
    h.prompt.holds_poll hm (by simp [hw.flagged]) (by simp [hout, flagged_xor, hw.flagged])
  have hfile := hdone.part WordPort.file
  rwa [hout, h.view] at hfile

/-- **A read command**, waited for: the word carries the register's value, and no register changes. -/
theorem WordPort.read_spec (h : d.Holds n WordPort.file file) (hm : n ≤ m) (hw : Says w false a 0) :
    let d' := (command w d).poll (fun p => flagged p.word) m
    d'.Holds n WordPort.file file ∧ flagged d'.now.word = true ∧ dataField d'.now.word = file a := by
  have hout := WordPort.carryOut_read (p := d.now) hw
  have hdone : ((command w d).poll (fun p => flagged p.word) m).Holds n id (d.now.carryOut w) :=
    h.prompt.holds_poll hm hw.flagged (by simp [hout, flagged_answer, hw.flagged])
  rw [hout, h.view] at hdone
  have hword := (hdone.part WordPort.word).view
  refine ⟨hdone.part WordPort.file, ?_, ?_⟩
  · rw [hword, flagged_answer, hw.flagged]
    rfl
  · rw [hword, dataField_answer hw.data]

theorem mdioRealDirectWritePhyOcp_spec (h : d.Holds phyOcpPolls WordPort.file file)
    (regAddr value : BitVec 16) :
    (mdioRealDirectWritePhyOcp regAddr value d).Holds phyOcpPolls WordPort.file
      (Function.update file (ocpIndex regAddr) value) :=
  WordPort.write_spec h le_rfl (says_write regAddr value)

theorem mdioRealDirectReadPhyOcp_spec (h : d.Holds phyOcpPolls WordPort.file file) (regAddr : BitVec 16) :
    (mdioRealDirectReadPhyOcp regAddr d).1 = file (ocpIndex regAddr) ∧
      (mdioRealDirectReadPhyOcp regAddr d).2.Holds phyOcpPolls WordPort.file file := by
  obtain ⟨hkept, -, hdata⟩ := WordPort.read_spec h le_rfl (says_read regAddr)
  exact ⟨hdata, hkept⟩

theorem ephyWrite_spec (h : d.Holds ephyPolls WordPort.file file) (regAddr value : BitVec 32) :
    (ephyWrite regAddr value d).Holds ephyPolls WordPort.file
      (Function.update file (ephyIndex regAddr) (value.setWidth 16)) :=
  WordPort.write_spec h le_rfl (says_ephyWrite regAddr value)

theorem ephyRead_spec (h : d.Holds ephyPolls WordPort.file file) (regAddr : BitVec 32) :
    (ephyRead regAddr d).1 = file (ephyIndex regAddr) ∧
      (ephyRead regAddr d).2.Holds ephyPolls WordPort.file file := by
  obtain ⟨hkept, hflag, hdata⟩ := WordPort.read_spec h le_rfl (says_ephyRead regAddr)
  exact ⟨(if_pos hflag).trans hdata, hkept⟩

theorem macOcpWrite_spec (regAddr value : BitVec 16) (p : WordPort) :
    (macOcpWrite regAddr value p).file = Function.update p.file (ocpIndex regAddr) value := by
  show (p.carryOut _).file = _
  rw [WordPort.carryOut_write (says_macWrite regAddr value)]

theorem macOcpRead_spec (regAddr : BitVec 16) (p : WordPort) :
    (macOcpRead regAddr p).1 = p.file (ocpIndex regAddr) ∧ (macOcpRead regAddr p).2.file = p.file := by
  have hout := WordPort.carryOut_read (p := p) (says_read regAddr)
  constructor
  · show dataField (p.carryOut _).word = _
    rw [hout, dataField_answer (says_read regAddr).data]
  · show (p.carryOut _).file = _
    rw [hout]

end WordPort

section DataPort

variable {m n : ℕ} {d : Dev DataPort} {file : BitVec 31 → BitVec 32} {w : BitVec 32}

/-- **A write command** of a port with a data register, which holds the value to be written. -/
theorem DataPort.write_spec (h : d.Holds n DataPort.file file) (hm : n ≤ m) (v : BitVec 32)
    (hw : flagged w = true) :
    ((command w (setData v d)).poll (fun p => !flagged p.word) m).Holds n DataPort.file
      (Function.update file (belowFlag w) v) := by
  have hout : (setData v d).now.carryOut w = ⟨Function.update file (belowFlag w) v, v, w ^^^ flagBit⟩ := by
    rw [carryOut, if_pos hw]
    show DataPort.mk (Function.update d.now.file _ v) v _ = _
    rw [h.view]
  have hprompt : (setData v d).Prompt n := h.prompt
  have hdone : ((command w (setData v d)).poll (fun p => !flagged p.word) m).Holds n id
      ((setData v d).now.carryOut w) :=
    hprompt.holds_poll hm (by simp [hw]) (by simp [hout, flagged_xor, hw])
  rw [hout] at hdone
  exact hdone.part DataPort.file

/-- **A read command** of such a port: the value is in the data register. -/
theorem DataPort.read_spec (h : d.Holds n DataPort.file file) (hm : n ≤ m) (hw : flagged w = false) :
    let d' := (command w d).poll (fun p => flagged p.word) m
    d'.Holds n DataPort.file file ∧ flagged d'.now.word = true ∧ d'.now.data = file (belowFlag w) := by
  have hout : d.now.carryOut w = ⟨file, file (belowFlag w), w ^^^ flagBit⟩ := by
    rw [carryOut, if_neg (by rw [hw]; exact Bool.false_ne_true), h.view]
  have hdone : ((command w d).poll (fun p => flagged p.word) m).Holds n id (d.now.carryOut w) :=
    h.prompt.holds_poll hm hw (by simp [hout, flagged_xor, hw])
  rw [hout] at hdone
  refine ⟨hdone.part DataPort.file, ?_, (hdone.part DataPort.data).view⟩
  rw [(hdone.part DataPort.word).view, flagged_xor, hw]
  rfl

theorem flagged_csiRead (fn : BitVec 8) (addr : BitVec 32) :
    flagged (csiarByteEn ||| (addr &&& csiarAddrMask) ||| fn.setWidth 32 <<< 16) = false := by
  have hen : csiarByteEn.getLsbD 31 = false := by decide
  rw [flagged_eq]
  grind [getLsbD_csiMask]

theorem flagged_csiWrite (fn : BitVec 8) (addr : BitVec 32) :
    flagged (flagBit ||| csiarByteEn ||| (addr &&& csiarAddrMask) ||| fn.setWidth 32 <<< 16) = true := by
  rw [flagged_eq]
  grind [getLsbD_flagBit]

theorem belowFlag_csiWrite (fn : BitVec 8) (addr : BitVec 32) :
    belowFlag (flagBit ||| csiarByteEn ||| (addr &&& csiarAddrMask) ||| fn.setWidth 32 <<< 16)
      = csiIndex fn addr := by
  unfold csiIndex belowFlag
  grind [getLsbD_flagBit]

theorem csiOtherFunRead_spec (h : d.Holds csiPolls DataPort.file file) {fn : BitVec 8} (hfn : ¬ 7 < fn)
    (addr : BitVec 32) :
    (csiOtherFunRead fn addr d).1 = file (csiIndex fn addr) ∧
      (csiOtherFunRead fn addr d).2.Holds csiPolls DataPort.file file := by
  obtain ⟨hkept, hflag, hdata⟩ := DataPort.read_spec h le_rfl (flagged_csiRead fn addr)
  rw [csiOtherFunRead, if_neg hfn]
  exact ⟨(if_pos hflag).trans hdata, hkept⟩

theorem csiOtherFunWrite_spec (h : d.Holds csiPolls DataPort.file file) {fn : BitVec 8} (hfn : ¬ 7 < fn)
    (addr value : BitVec 32) :
    (csiOtherFunWrite fn addr value d).Holds csiPolls DataPort.file
      (Function.update file (csiIndex fn addr) value) := by
  have hwrite := DataPort.write_spec h le_rfl value (flagged_csiWrite fn addr)
  rw [belowFlag_csiWrite] at hwrite
  rw [csiOtherFunWrite, if_neg hfn]
  exact hwrite

end DataPort

section SdsPort

variable {d : Dev SdsPort} {file : BitVec 16 → BitVec 16}

theorem SdsPort.carryOut_read (p : SdsPort) :
    p.carryOut sdsCmdIn = { p with dataOut := p.file p.addr, cmd := 0 } := if_neg (by decide)

theorem SdsPort.carryOut_write (p : SdsPort) :
    p.carryOut (sdsCmdIn ||| sdsWeIn) =
      { p with file := Function.update p.file p.addr p.dataIn, cmd := sdsWeIn } := if_pos (by decide)

theorem sdsPhyRead_spec (h : d.Holds sdsPolls SdsPort.file file) (index page reg : BitVec 16) :
    (sdsPhyRead index page reg d).1 = file (makeSdsAddr index page reg) ∧
      (sdsPhyRead index page reg d).2.Holds sdsPolls SdsPort.file file := by
  set d₁ := SdsPort.set (fun p => { p with addr := makeSdsAddr index page reg }) d
  have hout := SdsPort.carryOut_read d₁.now
  have hprompt : d₁.Prompt sdsPolls := h.prompt
  have hdone : ((SdsPort.command sdsCmdIn d₁).poll SdsPort.idle sdsPolls).Holds sdsPolls id
      (d₁.now.carryOut sdsCmdIn) := by
    refine hprompt.holds_poll le_rfl (by decide : (sdsCmdIn &&& sdsCmdIn == 0) = false) ?_
    rw [hout]
    exact (by decide : ((0 : BitVec 16) &&& sdsCmdIn == 0) = true)
  rw [hout, show d₁.now.file = file from h.view] at hdone
  have hidle : ((SdsPort.command sdsCmdIn d₁).poll SdsPort.idle sdsPolls).now.idle = true :=
    (hdone.part SdsPort.idle).view.trans (by decide : ((0 : BitVec 16) &&& sdsCmdIn == 0) = true)
  exact ⟨(if_pos hidle).trans (hdone.part SdsPort.dataOut).view, hdone.part SdsPort.file⟩

theorem sdsPhyWrite_spec (h : d.Holds sdsPolls SdsPort.file file) (index page reg val : BitVec 16) :
    (sdsPhyWrite index page reg val d).Holds sdsPolls SdsPort.file
      (Function.update file (makeSdsAddr index page reg) val) := by
  set d₁ := SdsPort.set (fun p => { p with addr := makeSdsAddr index page reg })
    (SdsPort.set (fun p => { p with dataIn := val }) d)
  have hout := SdsPort.carryOut_write d₁.now
  have hprompt : d₁.Prompt sdsPolls := h.prompt
  have hdone : ((SdsPort.command (sdsCmdIn ||| sdsWeIn) d₁).poll SdsPort.idle sdsPolls).Holds sdsPolls id
      (d₁.now.carryOut (sdsCmdIn ||| sdsWeIn)) := by
    refine hprompt.holds_poll le_rfl (by decide : ((sdsCmdIn ||| sdsWeIn) &&& sdsCmdIn == 0) = false) ?_
    rw [hout]
    exact (by decide : (sdsWeIn &&& sdsCmdIn == 0) = true)
  rw [hout, show d₁.now.file = file from h.view] at hdone
  exact hdone.part SdsPort.file

end SdsPort

end Rtl812x.Ports
