import Rtl812x.Lib.Commands
import Rtl812x.Hw.Ports

/-!
# The driver's view of the chip

What the driver does to the chip it does through a handful of accesses: bytes, words and double words of
the register window, and the ports.  A function of the driver is a script of such accesses
(`Driver α`), in which a later access may depend on what an earlier one has read.

A script can be run on the chip with its ports (`Bus`), where an access is a command that is waited for,
and on plain arrays of registers (`RegFiles`), where an access is an array access.

* `Access`, `Driver` — the accesses, under the names of the driver's functions, and scripts of them;
* `Bus.step` / `RegFiles.step` — what an access does on either side;
* `Bus.Shows` — the ports are idle, the chip is prompt, and the registers behind the ports are those of
  the arrays;
* `Bus.step_refines` / `Bus.run_refines` — **every function of the driver finds and leaves on a prompt
  chip what it would find and leave in plain arrays**;
* `clearAndSet` — the shape of the functions that change some bits of a register, and the two for the PHY.
-/

namespace Rtl812x.Ports

open Poll Commands

/-! ### The register window -/

/-- The bytes of the register window. -/
abbrev Window := ℕ → BitVec 8

namespace Window

/-- `OSReadLittleInt16`. -/
def read16 (w : Window) (reg : ℕ) : BitVec 16 := w (reg + 1) ++ w reg

/-- `OSReadLittleInt32`. -/
def read32 (w : Window) (reg : ℕ) : BitVec 32 := w (reg + 3) ++ w (reg + 2) ++ w (reg + 1) ++ w reg

/-- `OSWriteLittleInt16`. -/
def write16 (w : Window) (reg : ℕ) (v : BitVec 16) : Window :=
  Function.update (Function.update w reg (v.extractLsb' 0 8)) (reg + 1) (v.extractLsb' 8 8)

/-- `OSWriteLittleInt32`. -/
def write32 (w : Window) (reg : ℕ) (v : BitVec 32) : Window :=
  write16 (write16 w reg (v.extractLsb' 0 16)) (reg + 2) (v.extractLsb' 16 16)

end Window

/-! ### Accesses -/

inductive Access where
  | r8 (reg : ℕ)
  | r16 (reg : ℕ)
  | r32 (reg : ℕ)
  | w8 (reg : ℕ) (val : BitVec 8)
  | w16 (reg : ℕ) (val : BitVec 16)
  | w32 (reg : ℕ) (val : BitVec 32)
  /-- `mdio_direct_read_phy_ocp` -/
  | phyRead (regAddr : BitVec 16)
  /-- `mdio_direct_write_phy_ocp` -/
  | phyWrite (regAddr value : BitVec 16)
  /-- `rtl8125_mdio_read` -/
  | mdioRead (regAddr : BitVec 16)
  /-- `rtl8125_mdio_write` -/
  | mdioWrite (regAddr value : BitVec 16)
  /-- `rtl8125_mac_ocp_read` -/
  | macRead (regAddr : BitVec 16)
  /-- `rtl8125_mac_ocp_write` -/
  | macWrite (regAddr value : BitVec 16)
  /-- `rtl8125_ephy_read` -/
  | ephyRead (regAddr : BitVec 32)
  /-- `rtl8125_ephy_write` -/
  | ephyWrite (regAddr value : BitVec 32)
  /-- `rtl8125_csi_other_fun_read` -/
  | csiRead (fn : BitVec 8) (addr : BitVec 32)
  /-- `rtl8125_csi_other_fun_write` -/
  | csiWrite (fn : BitVec 8) (addr value : BitVec 32)
  /-- `rtl8127_sds_phy_read_8127` -/
  | sdsRead (index page reg : BitVec 16)
  /-- `rtl8127_sds_phy_write_8127` -/
  | sdsWrite (index page reg val : BitVec 16)

/-- A function of the driver. -/
abbrev Driver (α : Type) := Script Access (BitVec 32) α

/-! ### The chip with its ports -/

/-- The chip, and what the driver keeps for its accesses: `tp->cur_page` and `tp->rtk_enable_diag`. -/
structure Bus where
  window : Window
  phy : Dev WordPort
  mac : WordPort
  ephy : Dev WordPort
  csi : Dev DataPort
  sds : Dev SdsPort
  curPage : BitVec 16
  diag : Bool

namespace Bus

/-- `mdio_direct_write_phy_ocp`. -/
def mdioDirectWritePhyOcp (regAddr value : BitVec 16) (b : Bus) : Bus :=
  if b.diag then b else { b with phy := mdioRealDirectWritePhyOcp regAddr value b.phy }

/-- `mdio_real_write`, which `rtl8125_mdio_write` is. -/
def mdioRealWrite (regAddr value : BitVec 16) (b : Bus) : Bus :=
  if regAddr = 0x1F then { b with curPage := value }
  else
    { b with phy := mdioRealDirectWritePhyOcp (mapPhyOcpAddr b.curPage (regAddr.setWidth 8)) value b.phy }

/-- `rtl8125_mdio_read`. -/
def mdioRead (regAddr : BitVec 16) (b : Bus) : BitVec 32 × Bus :=
  if b.diag then (0xffffffff, b)
  else
    let r := mdioRealDirectReadPhyOcp (mapPhyOcpAddr b.curPage (regAddr.setWidth 8)) b.phy
    (r.1.setWidth 32, { b with phy := r.2 })

/-- One access; a write answers zero. -/
def step : Access → Bus → BitVec 32 × Bus
  | .r8 reg, b => ((b.window reg).setWidth 32, b)
  | .r16 reg, b => ((b.window.read16 reg).setWidth 32, b)
  | .r32 reg, b => (b.window.read32 reg, b)
  | .w8 reg v, b => (0, { b with window := Function.update b.window reg v })
  | .w16 reg v, b => (0, { b with window := b.window.write16 reg v })
  | .w32 reg v, b => (0, { b with window := b.window.write32 reg v })
  | .phyRead a, b =>
      let r := mdioRealDirectReadPhyOcp a b.phy
      (r.1.setWidth 32, { b with phy := r.2 })
  | .phyWrite a v, b => (0, b.mdioDirectWritePhyOcp a v)
  | .mdioRead a, b => b.mdioRead a
  | .mdioWrite a v, b => (0, b.mdioRealWrite a v)
  | .macRead a, b =>
      let r := macOcpRead a b.mac
      (r.1.setWidth 32, { b with mac := r.2 })
  | .macWrite a v, b => (0, { b with mac := macOcpWrite a v b.mac })
  | .ephyRead a, b =>
      let r := Ports.ephyRead a b.ephy
      (r.1.setWidth 32, { b with ephy := r.2 })
  | .ephyWrite a v, b => (0, { b with ephy := Ports.ephyWrite a v b.ephy })
  | .csiRead fn a, b =>
      let r := csiOtherFunRead fn a b.csi
      (r.1, { b with csi := r.2 })
  | .csiWrite fn a v, b => (0, { b with csi := csiOtherFunWrite fn a v b.csi })
  | .sdsRead index page reg, b =>
      let r := sdsPhyRead index page reg b.sds
      (r.1.setWidth 32, { b with sds := r.2 })
  | .sdsWrite index page reg v, b => (0, { b with sds := sdsPhyWrite index page reg v b.sds })

end Bus

/-! ### Plain arrays -/

/-- The registers, each kind in an array of its own. -/
structure RegFiles where
  window : Window
  phy : BitVec 15 → BitVec 16
  mac : BitVec 15 → BitVec 16
  ephy : BitVec 15 → BitVec 16
  csi : BitVec 31 → BitVec 32
  sds : BitVec 16 → BitVec 16
  curPage : BitVec 16
  diag : Bool

namespace RegFiles

/-- The register of the PHY that a register number of MII stands for. -/
def mdioIndex (r : RegFiles) (regAddr : BitVec 16) : BitVec 15 :=
  ocpIndex (mapPhyOcpAddr r.curPage (regAddr.setWidth 8))

def setPhy (r : RegFiles) (i : BitVec 15) (v : BitVec 16) : RegFiles :=
  { r with phy := Function.update r.phy i v }

def setMac (r : RegFiles) (i : BitVec 15) (v : BitVec 16) : RegFiles :=
  { r with mac := Function.update r.mac i v }

def setEphy (r : RegFiles) (i : BitVec 15) (v : BitVec 16) : RegFiles :=
  { r with ephy := Function.update r.ephy i v }

def setSds (r : RegFiles) (i v : BitVec 16) : RegFiles := { r with sds := Function.update r.sds i v }

/-- One access to the arrays. -/
def step : Access → RegFiles → BitVec 32 × RegFiles
  | .r8 reg, r => ((r.window reg).setWidth 32, r)
  | .r16 reg, r => ((r.window.read16 reg).setWidth 32, r)
  | .r32 reg, r => (r.window.read32 reg, r)
  | .w8 reg v, r => (0, { r with window := Function.update r.window reg v })
  | .w16 reg v, r => (0, { r with window := r.window.write16 reg v })
  | .w32 reg v, r => (0, { r with window := r.window.write32 reg v })
  | .phyRead a, r => ((r.phy (ocpIndex a)).setWidth 32, r)
  | .phyWrite a v, r => (0, if r.diag then r else r.setPhy (ocpIndex a) v)
  | .mdioRead a, r => (if r.diag then 0xffffffff else (r.phy (r.mdioIndex a)).setWidth 32, r)
  | .mdioWrite a v, r => (0, if a = 0x1F then { r with curPage := v } else r.setPhy (r.mdioIndex a) v)
  | .macRead a, r => ((r.mac (ocpIndex a)).setWidth 32, r)
  | .macWrite a v, r => (0, r.setMac (ocpIndex a) v)
  | .ephyRead a, r => ((r.ephy (ephyIndex a)).setWidth 32, r)
  | .ephyWrite a v, r => (0, r.setEphy (ephyIndex a) (v.setWidth 16))
  | .csiRead fn a, r => (if 7 < fn then 0xffffffff else r.csi (csiIndex fn a), r)
  | .csiWrite fn a v, r =>
      (0, if 7 < fn then r else { r with csi := Function.update r.csi (csiIndex fn a) v })
  | .sdsRead index page reg, r => ((r.sds (makeSdsAddr index page reg)).setWidth 32, r)
  | .sdsWrite index page reg v, r => (0, r.setSds (makeSdsAddr index page reg) v)

end RegFiles

/-! ### The one refines the other -/

/-- The ports are idle, the chip is prompt, and the registers are those of the arrays. -/
structure Bus.Shows (b : Bus) (r : RegFiles) : Prop where
  window : b.window = r.window
  phy : b.phy.Holds phyOcpPolls WordPort.file r.phy
  mac : b.mac.file = r.mac
  ephy : b.ephy.Holds ephyPolls WordPort.file r.ephy
  csi : b.csi.Holds csiPolls DataPort.file r.csi
  sds : b.sds.Holds sdsPolls SdsPort.file r.sds
  curPage : b.curPage = r.curPage
  diag : b.diag = r.diag

namespace Bus

variable {b : Bus} {r : RegFiles}

theorem Shows.phyWrite (h : b.Shows r) (regAddr value : BitVec 16) :
    (b.mdioDirectWritePhyOcp regAddr value).Shows
      (if r.diag then r else r.setPhy (ocpIndex regAddr) value) := by
  have hdiag := h.diag
  by_cases hr : r.diag
  · rw [mdioDirectWritePhyOcp, if_pos (hdiag.trans hr), if_pos hr]
    exact h
  · rw [mdioDirectWritePhyOcp, if_neg (by rwa [hdiag]), if_neg hr]
    exact { h with phy := mdioRealDirectWritePhyOcp_spec h.phy regAddr value }

theorem Shows.mdioWrite (h : b.Shows r) (regAddr value : BitVec 16) :
    (b.mdioRealWrite regAddr value).Shows
      (if regAddr = 0x1F then { r with curPage := value } else r.setPhy (r.mdioIndex regAddr) value) := by
  rw [mdioRealWrite]
  split
  · exact { h with curPage := rfl }
  · have hphy := mdioRealDirectWritePhyOcp_spec h.phy (mapPhyOcpAddr b.curPage (regAddr.setWidth 8)) value
    refine { h with phy := ?_ }
    rwa [h.curPage] at hphy ⊢

theorem Shows.mdioRead (h : b.Shows r) (regAddr : BitVec 16) :
    (b.mdioRead regAddr).1 = (if r.diag then 0xffffffff else (r.phy (r.mdioIndex regAddr)).setWidth 32) ∧
      (b.mdioRead regAddr).2.Shows r := by
  have hdiag := h.diag
  by_cases hr : r.diag
  · rw [Bus.mdioRead, if_pos (hdiag.trans hr), if_pos hr]
    exact ⟨rfl, h⟩
  · rw [Bus.mdioRead, if_neg (by rwa [hdiag]), if_neg hr]
    obtain ⟨hdata, hkept⟩ :=
      mdioRealDirectReadPhyOcp_spec h.phy (mapPhyOcpAddr b.curPage (regAddr.setWidth 8))
    refine ⟨?_, { h with phy := hkept }⟩
    show (mdioRealDirectReadPhyOcp _ b.phy).1.setWidth 32 = _
    rw [hdata, h.curPage]
    rfl

theorem Shows.csiRead (h : b.Shows r) (fn : BitVec 8) (addr : BitVec 32) :
    (csiOtherFunRead fn addr b.csi).1 = (if 7 < fn then 0xffffffff else r.csi (csiIndex fn addr)) ∧
      Shows { b with csi := (csiOtherFunRead fn addr b.csi).2 } r := by
  by_cases hfn : 7 < fn
  · rw [csiOtherFunRead, if_pos hfn, if_pos hfn]
    exact ⟨rfl, h⟩
  · obtain ⟨hdata, hkept⟩ := csiOtherFunRead_spec h.csi hfn addr
    rw [if_neg hfn]
    exact ⟨hdata, { h with csi := hkept }⟩

/-- The data register is written even where the command is not given. -/
theorem Shows.csiWrite (h : b.Shows r) (fn : BitVec 8) (addr value : BitVec 32) :
    Shows { b with csi := csiOtherFunWrite fn addr value b.csi }
      (if 7 < fn then r else { r with csi := Function.update r.csi (csiIndex fn addr) value }) := by
  by_cases hfn : 7 < fn
  · rw [csiOtherFunWrite, if_pos hfn, if_pos hfn]
    have hidle : (DataPort.setData value b.csi).Holds csiPolls DataPort.file r.csi :=
      ⟨h.csi.left, by rw [DataPort.setData, h.csi.next], h.csi.prompt, h.csi.view⟩
    exact { h with csi := hidle }
  · rw [if_neg hfn]
    exact { h with csi := csiOtherFunWrite_spec h.csi hfn addr value }

/-- **One access**: the chip answers as the arrays do, and shows what they have become. -/
theorem step_refines (a : Access) (b : Bus) (r : RegFiles) (h : b.Shows r) :
    (step a b).1 = (r.step a).1 ∧ (step a b).2.Shows (r.step a).2 := by
  cases a with
  | r8 reg => exact ⟨by rw [step, RegFiles.step, h.window], h⟩
  | r16 reg => exact ⟨by rw [step, RegFiles.step, h.window], h⟩
  | r32 reg => exact ⟨by rw [step, RegFiles.step, h.window], h⟩
  | w8 reg v => exact ⟨rfl, { h with window := congrArg (fun w : Window => Function.update w reg v) h.window }⟩
  | w16 reg v => exact ⟨rfl, { h with window := congrArg (Window.write16 · reg v) h.window }⟩
  | w32 reg v => exact ⟨rfl, { h with window := congrArg (Window.write32 · reg v) h.window }⟩
  | phyRead a =>
      obtain ⟨hdata, hkept⟩ := mdioRealDirectReadPhyOcp_spec h.phy a
      exact ⟨congrArg (BitVec.setWidth 32) hdata, { h with phy := hkept }⟩
  | phyWrite a v => exact ⟨rfl, h.phyWrite a v⟩
  | mdioRead a => exact h.mdioRead a
  | mdioWrite a v => exact ⟨rfl, h.mdioWrite a v⟩
  | macRead a =>
      obtain ⟨hdata, hkept⟩ := macOcpRead_spec a b.mac
      exact ⟨by rw [step, hdata, h.mac, RegFiles.step], { h with mac := hkept.trans h.mac }⟩
  | macWrite a v =>
      have hmac := macOcpWrite_spec a v b.mac
      rw [h.mac] at hmac
      exact ⟨rfl, { h with mac := hmac }⟩
  | ephyRead a =>
      obtain ⟨hdata, hkept⟩ := ephyRead_spec h.ephy a
      exact ⟨congrArg (BitVec.setWidth 32) hdata, { h with ephy := hkept }⟩
  | ephyWrite a v => exact ⟨rfl, { h with ephy := ephyWrite_spec h.ephy a v }⟩
  | csiRead fn a => exact h.csiRead fn a
  | csiWrite fn a v => exact ⟨rfl, h.csiWrite fn a v⟩
  | sdsRead index page reg =>
      obtain ⟨hdata, hkept⟩ := sdsPhyRead_spec h.sds index page reg
      exact ⟨congrArg (BitVec.setWidth 32) hdata, { h with sds := hkept }⟩
  | sdsWrite index page reg v => exact ⟨rfl, { h with sds := sdsPhyWrite_spec h.sds index page reg v }⟩

/-- A function of the driver, on the chip and on the arrays it shows. -/
theorem run_refines {α : Type} (p : Driver α) (h : b.Shows r) :
    (p.run step b).1 = (p.run RegFiles.step r).1 ∧ (p.run step b).2.Shows (p.run RegFiles.step r).2 :=
  Script.run_refines step_refines p h

/-- Nothing is under way in a port. -/
def Idle {σ : Type} (d : Dev σ) : Prop := d.left = 0 ∧ d.next = d.now

/-- Every port is idle, and the chip answers within the time the driver waits. -/
structure Ready (b : Bus) : Prop where
  phy : Idle b.phy ∧ b.phy.Prompt phyOcpPolls
  ephy : Idle b.ephy ∧ b.ephy.Prompt ephyPolls
  csi : Idle b.csi ∧ b.csi.Prompt csiPolls
  sds : Idle b.sds ∧ b.sds.Prompt sdsPolls

/-- The registers, with the ports left out. -/
def files (b : Bus) : RegFiles :=
  ⟨b.window, b.phy.now.file, b.mac.file, b.ephy.now.file, b.csi.now.file, b.sds.now.file, b.curPage, b.diag⟩

theorem Ready.shows (h : b.Ready) : b.Shows b.files :=
  ⟨rfl, ⟨h.phy.1.1, h.phy.1.2, h.phy.2, rfl⟩, rfl, ⟨h.ephy.1.1, h.ephy.1.2, h.ephy.2, rfl⟩,
    ⟨h.csi.1.1, h.csi.1.2, h.csi.2, rfl⟩, ⟨h.sds.1.1, h.sds.1.2, h.sds.2, rfl⟩, rfl, rfl⟩

theorem Shows.ready (h : b.Shows r) : b.Ready :=
  ⟨⟨⟨h.phy.left, h.phy.next⟩, h.phy.prompt⟩, ⟨⟨h.ephy.left, h.ephy.next⟩, h.ephy.prompt⟩,
    ⟨⟨h.csi.left, h.csi.next⟩, h.csi.prompt⟩, ⟨⟨h.sds.left, h.sds.next⟩, h.sds.prompt⟩⟩

theorem Shows.files_eq (h : b.Shows r) : b.files = r := by
  rw [files, h.window, h.phy.view, h.mac, h.ephy.view, h.csi.view, h.sds.view, h.curPage, h.diag]

/-- **Every function of the driver**, whatever it makes its accesses depend on, finds and leaves on a chip
that is ready what it would find and leave in plain arrays of registers, and leaves the chip ready. -/
theorem driver_sees_arrays {α : Type} (p : Driver α) {b : Bus} (h : b.Ready) :
    (p.run step b).1 = (p.run RegFiles.step b.files).1 ∧
      (p.run step b).2.files = (p.run RegFiles.step b.files).2 ∧ (p.run step b).2.Ready := by
  obtain ⟨hresult, hshows⟩ := run_refines p h.shows
  exact ⟨hresult, hshows.files_eq, hshows.ready⟩

/-- A chip with nothing in its registers that takes up to nine looks for a command. -/
def blank : Bus :=
  let port : Dev WordPort := ⟨⟨fun _ => 0, 0⟩, ⟨fun _ => 0, 0⟩, 0, fun k => k % 10⟩
  { window := fun _ => 0, phy := port, mac := ⟨fun _ => 0, 0⟩, ephy := port,
    csi := ⟨⟨fun _ => 0, 0, 0⟩, ⟨fun _ => 0, 0, 0⟩, 0, fun k => k % 10⟩,
    sds := ⟨⟨fun _ => 0, 0, 0, 0, 0⟩, ⟨fun _ => 0, 0, 0, 0, 0⟩, 0, fun k => k % 10⟩,
    curPage := 0, diag := false }

theorem blank_ready : blank.Ready := by
  have hten : ∀ k, k % 10 < 10 := fun k => Nat.mod_lt k (by decide)
  have hhundred : ∀ k, k % 10 < 100 := fun k => (hten k).trans (by decide)
  exact ⟨⟨⟨rfl, rfl⟩, hhundred⟩, ⟨⟨rfl, rfl⟩, hten⟩, ⟨⟨rfl, rfl⟩, hten⟩, ⟨⟨rfl, rfl⟩, hhundred⟩⟩

end Bus

/-! ### Functions that change some bits -/

/-- Read a register, clear the bits of one mask, set those of another, and write the register back. -/
def clearAndSet (read : Access) (write : BitVec 16 → Access) (clearmask setmask : BitVec 16) : Driver Unit := do
  let value ← Script.ask read
  Script.tell (write (value.setWidth 16 &&& ~~~clearmask ||| setmask))

/-- `ClearAndSetEthPhyOcpBit`, and `rtl8125_clear_and_set_eth_phy_ocp_bit`. -/
def clearAndSetEthPhyOcpBit (addr clearmask setmask : BitVec 16) : Driver Unit :=
  clearAndSet (.phyRead addr) (.phyWrite addr) clearmask setmask

/-- `rtl8125_set_eth_phy_ocp_bit`. -/
def setEthPhyOcpBit (addr mask : BitVec 16) : Driver Unit := clearAndSetEthPhyOcpBit addr 0 mask

/-- One bit of the PHY of a blank chip. -/
theorem Bus.driver_sees_arrays_blank :
    Bus.blank.Ready ∧
      (((setEthPhyOcpBit 0xA430 0x8000).run Bus.step Bus.blank).2.files
        = ((setEthPhyOcpBit 0xA430 0x8000).run RegFiles.step Bus.blank.files).2 ∧
      ((setEthPhyOcpBit 0xA430 0x8000).run Bus.step Bus.blank).2.Ready) :=
  ⟨blank_ready, (driver_sees_arrays (setEthPhyOcpBit 0xA430 0x8000) blank_ready).2⟩

end Rtl812x.Ports
