import Rtl812x.Lib.Commands
import Rtl812x.Hw.Regs

/-!
# The RAM of the MAC's microcontroller

The microcontroller of the MAC runs code from a RAM of four pages, which the driver sees through a window of
256 words in the registers of the MAC; two bits of the register `0xE446` say which page is in the window.
The driver loads patches into the RAM and notes their version in the last four words of page 2.

The functions are scripts of accesses to the registers of the MAC.  The code of the patches is data of the
driver; here it is a parameter (`Tables`).

* `Mac`, `Mac.step` — the registers, the pages and the window;
* `switchPage`, `writeRamCodeWithPage`, `setHwVer`, `getHwVer`, … — the functions of the driver;
* `run_switchPage`, `run_writeRamCodeWithPage` — **where the words of a patch go**;
* `run_setHwVer`, `run_getHwVer` — **the version is noted and found**; `foldVer_slices` — and is the same.
-/

namespace Rtl812x.McuRam

open Commands

/-! ### Registers and pages -/

/-- `rtl8125_mac_ocp_read` and `rtl8125_mac_ocp_write`. -/
inductive Access where
  | read (addr : BitVec 16)
  | write (addr value : BitVec 16)

abbrev Driver := Script Access (BitVec 16)

structure Mac where
  /-- the registers, by word -/
  regs : ℕ → BitVec 16
  /-- the words of the pages -/
  ram : ℕ → ℕ → BitVec 16

/-- The place of a register: addresses count bytes. -/
def index (addr : BitVec 16) : ℕ := addr.toNat / 2

/-- The first word of the window, `0xF800`, and its size. -/
def windowStart : ℕ := 0x7C00
def windowSize : ℕ := 256

/-- The register `0xE446`. -/
def pageReg : ℕ := 0x7223

/-- `RTL8125_MAC_MCU_PAGE_SIZE`. -/
def pageSize : ℕ := 256

namespace Mac

/-- The page in the window. -/
def page (m : Mac) : ℕ := (m.regs pageReg).toNat % 4

def InWindow (i : ℕ) : Prop := windowStart ≤ i ∧ i < windowStart + windowSize

instance (i : ℕ) : Decidable (InWindow i) := inferInstanceAs (Decidable (_ ∧ _))

def setReg (m : Mac) (i : ℕ) (v : BitVec 16) : Mac := { m with regs := Function.update m.regs i v }

def setRam (m : Mac) (p o : ℕ) (v : BitVec 16) : Mac :=
  { m with ram := Function.update m.ram p (Function.update (m.ram p) o v) }

def step : Access → Mac → BitVec 16 × Mac
  | .read a, m =>
      (if InWindow (index a) then m.ram m.page (index a - windowStart) else m.regs (index a), m)
  | .write a v, m =>
      (0, if InWindow (index a) then m.setRam m.page (index a - windowStart) v else m.setReg (index a) v)

end Mac

/-! ### The functions of the driver -/

/-- What the driver remembers. -/
structure Tp where
  notWrMcuPatchCode : Bool
  hwSuppMacMcuVer : ℕ
  macMcuPageSize : ℕ
  binVer : BitVec 64
  hwVer : BitVec 64

/-- `rtl8125_hw_disable_mac_mcu_bps`: the breakpoints from `0xFC28` to `0xFC46` are cleared. -/
def disableMacMcuBps : Driver Unit := do
  Script.tell (.write 0xFC48 0)
  Script.each (fun k => Script.tell (.write (BitVec.ofNat 16 (0xFC28 + 2 * k)) 0)) (List.range 16)
  Script.tell (.write 0xFC26 0)

/-- `rtl8125_switch_mac_mcu_ram_code_page`. -/
def switchPage (page : BitVec 16) : Driver Unit := do
  let tmp ← Script.ask (.read 0xE446)
  Script.tell (.write 0xE446 (tmp &&& ~~~3 ||| (page &&& 3)))

/-- The loop of `rtl8125_set_hw_mcu_patch_code_ver`. -/
def setVerLoop : List ℕ → BitVec 64 → Driver (BitVec 64)
  | [], ver => pure ver
  | i :: is, ver => do
      Script.tell (.write (BitVec.ofNat 16 (0xF9F8 + 6 - i)) (ver.setWidth 16))
      setVerLoop is (ver >>> 16)

/-- `rtl8125_set_hw_mcu_patch_code_ver`; what it returns goes into `tp->hw_mcu_patch_code_ver`. -/
def setHwVer (ver : BitVec 64) : Driver (BitVec 64) := do
  switchPage 2
  let ver ← setVerLoop [0, 2, 4, 6] ver
  switchPage 0
  pure ver

/-- The loop of `rtl8125_get_hw_mcu_patch_code_ver`. -/
def getVerLoop : List ℕ → BitVec 64 → Driver (BitVec 64)
  | [], ver => pure ver
  | i :: is, ver => do
      let w ← Script.ask (.read (BitVec.ofNat 16 (0xF9F8 + i)))
      getVerLoop is (ver <<< 16 ||| w.setWidth 64)

/-- `rtl8125_get_hw_mcu_patch_code_ver`. -/
def getHwVer : Driver (BitVec 64) := do
  switchPage 2
  let ver ← getVerLoop [0, 2, 4, 6] 0
  switchPage 0
  pure ver

/-- Words put together to a version. -/
def foldVer (ws : List (BitVec 16)) : BitVec 64 := ws.foldl (fun ver w => ver <<< 16 ||| w.setWidth 64) 0

/-- `rtl8125_get_bin_mcu_patch_code_ver`: the last four words. -/
def getBinVer (entry : List (BitVec 16)) : BitVec 64 :=
  if entry.length < 4 then 0 else foldVer (entry.drop (entry.length - 4))

/-- `_rtl812x_write_mac_mcu_ram_code`. -/
def writeRamCode (entry : List (BitVec 16)) : Driver Unit :=
  Script.each (fun i => Script.tell (.write (BitVec.ofNat 16 (0xF800 + i * 2)) (entry.getD i 0)))
    (List.range entry.length)

/-- One round of `_rtl812x_write_mac_mcu_ram_code_with_page`. -/
def writeWord (entry : List (BitVec 16)) (ps i : ℕ) : Driver Unit := do
  if i % ps = 0 then switchPage (BitVec.ofNat 16 (i / ps))
  Script.tell (.write (BitVec.ofNat 16 (0xF800 + i % ps * 2)) (entry.getD i 0))

/-- `_rtl812x_write_mac_mcu_ram_code_with_page`. -/
def writeRamCodeWithPage (entry : List (BitVec 16)) (ps : ℕ) : Driver Unit :=
  if ps = 0 then pure () else Script.each (writeWord entry ps) (List.range entry.length)

/-- `rtl8125_write_mac_mcu_ram_code`. -/
def writeMacMcuRamCode (entry : List (BitVec 16)) (tp : Tp) : Driver Tp :=
  if tp.hwSuppMacMcuVer = 0 then pure tp
  else if entry = [] then pure tp
  else do
    if 0 < tp.macMcuPageSize then writeRamCodeWithPage entry tp.macMcuPageSize else writeRamCode entry
    if 0 < tp.binVer then do
      let ver ← setHwVer tp.binVer
      pure { tp with hwVer := ver }
    else pure tp

/-- The breakpoints of a patch: the base, the addresses, and which of them are enabled. -/
def setBps (bps : List (BitVec 16 × BitVec 16)) (enable : BitVec 16) : Driver Unit := do
  Script.tell (.write 0xFC26 0x8000)
  Script.each (fun b => Script.tell (.write b.1 b.2)) bps
  Script.tell (.write 0xFC48 enable)

/-- A patch with a version: its code is loaded unless the version is found in the RAM. -/
def setMacMcu (code : List (BitVec 16)) (bps : List (BitVec 16 × BitVec 16)) (enable : BitVec 16) (tp : Tp) :
    Driver Tp := do
  let tp := { tp with binVer := getBinVer code }
  let tp ← if tp.hwVer ≠ tp.binVer then writeMacMcuRamCode code tp else pure tp
  setBps bps enable
  pure tp

/-- The code of the patches. -/
structure Tables where
  c8125a2 : List (BitVec 16)
  c8125b2 : List (BitVec 16)
  c8125bp1 : List (BitVec 16)
  c8125bp2 : List (BitVec 16)
  c8125d1 : List (BitVec 16)
  c8125d2 : List (BitVec 16)
  c8125cp1 : List (BitVec 16)
  c8126a1 : List (BitVec 16)
  c8126a2 : List (BitVec 16)
  c8126a3 : List (BitVec 16)
  c8127atc : List (BitVec 16)
  c8127a1 : List (BitVec 16)

/-- The patches without a version that are written into the window as it is. -/
def setMacMcuPlain (code : List (BitVec 16)) (bps : List (BitVec 16 × BitVec 16)) (enable : BitVec 16)
    (tp : Tp) : Driver Tp := do
  disableMacMcuBps
  writeRamCode code
  setBps bps enable
  pure tp

def setMacMcu8125a2 (T : Tables) : Tp → Driver Tp :=
  setMacMcuPlain T.c8125a2
    [(0xFC2A, 0x0540), (0xFC2E, 0x0E24), (0xFC30, 0x0EB8), (0xFC32, 0x3A5C), (0xFC34, 0x10A8)] 0x007A

def setMacMcu8125b2 (T : Tables) : Tp → Driver Tp :=
  setMacMcuPlain T.c8125b2
    [(0xFC28, 0x13E6), (0xFC2A, 0x0812), (0xFC2C, 0x248C), (0xFC2E, 0x12DA), (0xFC30, 0x4A20), (0xFC32, 0x47A0)]
    0x003F

def setMacMcu8125bp1 (T : Tables) : Tp → Driver Tp :=
  setMacMcu T.c8125bp1
    [(0xFC28, 0x0f10), (0xFC2A, 0x435c), (0xFC2C, 0x4112), (0xFC2E, 0x3F92), (0xFC30, 0x402E), (0xFC32, 0x3FD6),
      (0xFC34, 0x4018)] 0x007F

def setMacMcu8125bp2 (T : Tables) : Tp → Driver Tp :=
  setMacMcu T.c8125bp2
    [(0xFC28, 0x413C), (0xFC2A, 0x438A), (0xFC2C, 0x143A), (0xFC2E, 0x3FC2), (0xFC30, 0x4058), (0xFC32, 0x22E4)]
    0x003F

def setMacMcu8125d1 (T : Tables) : Tp → Driver Tp :=
  setMacMcu T.c8125d1 [(0xFC28, 0x14A2), (0xFC2A, 0x2376)] 0x0003

def setMacMcu8125d2 (T : Tables) : Tp → Driver Tp := setMacMcu T.c8125d2 [(0xFC28, 0x2382)] 0x0001

def setMacMcu8125cp1 (T : Tables) : Tp → Driver Tp := setMacMcu T.c8125cp1 [(0xFC28, 0x2436)] 0x0001

/-- Without a version of its own: loaded every time. -/
def setMacMcu8126a1 (T : Tables) (tp : Tp) : Driver Tp := do
  let tp ← writeMacMcuRamCode T.c8126a1 tp
  setBps [(0xFC28, 0x0AAA)] 0x0001
  pure tp

def setMacMcu8126a2 (T : Tables) : Tp → Driver Tp :=
  setMacMcu T.c8126a2
    [(0xFC2C, 0x2360), (0xFC2E, 0x14A4), (0xFC30, 0x415E), (0xFC32, 0x41E4), (0xFC34, 0x4280), (0xFC36, 0x234A)]
    0x00FC

def setMacMcu8126a3 (T : Tables) : Tp → Driver Tp :=
  setMacMcu T.c8126a3
    [(0xFC2C, 0x14A4), (0xFC2E, 0x4176), (0xFC30, 0x41FC), (0xFC32, 0x4298), (0xFC3A, 0x234A)] 0x023C

def setMacMcu8127aTc (T : Tables) : Tp → Driver Tp :=
  setMacMcu T.c8127atc [(0xFC2E, 0x14B8), (0xFC30, 0x14EC)] 0x0018

def setMacMcu8127a1 (T : Tables) : Tp → Driver Tp :=
  setMacMcu T.c8127a1
    [(0xFC28, 0x1520), (0xFC2A, 0x41E0), (0xFC2C, 0x508C), (0xFC2E, 0x50F6), (0xFC30, 0x34FA), (0xFC32, 0x0166),
      (0xFC34, 0x1A6A), (0xFC36, 0x1A2C)] 0x00FF

/-- The switch of `rtl8125_hw_mac_mcu_config`. -/
def setMacMcuOf (T : Tables) : Mcfg → Tp → Driver Tp
  | .m3 | .m6 => setMacMcu8125a2 T
  | .m5 | .m7 => setMacMcu8125b2 T
  | .m8 => setMacMcu8125bp1 T
  | .m9 => setMacMcu8125bp2 T
  | .m10 => setMacMcu8125d1 T
  | .m11 | .m13 => setMacMcu8125d2 T
  | .m12 => setMacMcu8125cp1 T
  | .m31 => setMacMcu8126a1 T
  | .m32 => setMacMcu8126a2 T
  | .m33 => setMacMcu8126a3 T
  | .m41 => setMacMcu8127aTc T
  | .m42 => setMacMcu8127a1 T
  | .m2 | .m4 => pure

/-- `rtl8125_hw_mac_mcu_config`. -/
def hwMacMcuConfig (T : Tables) (mcfg : Mcfg) (tp : Tp) : Driver Tp :=
  if tp.notWrMcuPatchCode then pure tp
  else do
    disableMacMcuBps
    let ver ← getHwVer
    setMacMcuOf T mcfg { tp with hwVer := ver }

/-! ### Single accesses -/

section Accesses

variable {m : Mac} {v : BitVec 16}

theorem index_window {o : ℕ} (ho : o < windowSize) : index (BitVec.ofNat 16 (0xF800 + o * 2)) = windowStart + o := by
  rw [windowSize] at ho
  rw [index, BitVec.toNat_ofNat, windowStart]
  omega

theorem inWindow_add {o : ℕ} (ho : o < windowSize) : Mac.InWindow (windowStart + o) :=
  ⟨Nat.le_add_right _ _, Nat.add_lt_add_left ho _⟩

theorem step_write_window {o : ℕ} (ho : o < windowSize) :
    (Mac.step (.write (BitVec.ofNat 16 (0xF800 + o * 2)) v) m).2 = m.setRam m.page o v := by
  rw [Mac.step, index_window ho, if_pos (inWindow_add ho), Nat.add_sub_cancel_left]

theorem step_read_window {o : ℕ} (ho : o < windowSize) :
    Mac.step (.read (BitVec.ofNat 16 (0xF800 + o * 2))) m = (m.ram m.page o, m) := by
  rw [Mac.step, index_window ho, if_pos (inWindow_add ho), Nat.add_sub_cancel_left]

theorem step_write_reg {a : BitVec 16} (ha : ¬ Mac.InWindow (index a)) :
    (Mac.step (.write a v) m).2 = m.setReg (index a) v := by
  rw [Mac.step, if_neg ha]

/-- The page register with another page in it. -/
def Mac.turn (m : Mac) (p : BitVec 16) : Mac := m.setReg pageReg (m.regs pageReg &&& ~~~3 ||| (p &&& 3))

theorem run_switchPage (p : BitVec 16) (m : Mac) : (switchPage p).run Mac.step m = ((), m.turn p) := by
  have hread : Mac.step (.read 0xE446) m = (m.regs pageReg, m) := rfl
  rw [switchPage, Script.run_bind, Script.run_ask, hread, Script.run_tell]
  rfl

theorem mod_four (x : BitVec 16) : x.toNat % 4 = (x &&& 3).toNat := by
  rw [BitVec.toNat_and]
  exact (Nat.and_two_pow_sub_one_eq_mod x.toNat 2).symm

@[simp] theorem setReg_regs_self (i : ℕ) : (m.setReg i v).regs i = v := Function.update_self ..

theorem setReg_regs_of_ne {i j : ℕ} (h : j ≠ i) : (m.setReg i v).regs j = m.regs j :=
  Function.update_of_ne h ..

@[simp] theorem setReg_ram (i : ℕ) : (m.setReg i v).ram = m.ram := rfl
@[simp] theorem setRam_regs (p o : ℕ) : (m.setRam p o v).regs = m.regs := rfl
@[simp] theorem setRam_page (p o : ℕ) : (m.setRam p o v).page = m.page := rfl
@[simp] theorem turn_ram (p : BitVec 16) : (m.turn p).ram = m.ram := rfl

theorem setRam_ram (p o q r : ℕ) :
    (m.setRam p o v).ram q r = if q = p ∧ r = o then v else m.ram q r := by
  show Function.update m.ram p (Function.update (m.ram p) o v) q r = _
  by_cases hq : q = p
  · rw [hq, Function.update_self, Function.update_apply]
    simp
  · rw [Function.update_of_ne hq, if_neg fun h => hq h.1]

theorem turn_regs_of_ne {i : ℕ} (p : BitVec 16) (h : i ≠ pageReg) : (m.turn p).regs i = m.regs i :=
  setReg_regs_of_ne h

@[simp] theorem turn_page (p : BitVec 16) : (m.turn p).page = p.toNat % 4 := by
  have hlow : (m.regs pageReg &&& ~~~3 ||| (p &&& 3)) &&& 3 = p &&& 3 := by
    generalize m.regs pageReg = x
    apply BitVec.eq_of_getLsbD_eq
    intro i hi
    simp only [BitVec.getLsbD_and, BitVec.getLsbD_or, BitVec.getLsbD_not, hi, decide_true, Bool.true_and]
    cases x.getLsbD i <;> cases p.getLsbD i <;> cases (3 : BitVec 16).getLsbD i <;> rfl
  rw [Mac.page, Mac.turn, setReg_regs_self, mod_four, hlow, mod_four]

end Accesses

/-! ### Loading -/

/-- The RAM when the first `k` words of a patch are in it. -/
def loaded (entry : List (BitVec 16)) (ps k : ℕ) (ram : ℕ → ℕ → BitVec 16) (p o : ℕ) : BitVec 16 :=
  if o < ps ∧ p * ps + o < k then entry.getD (p * ps + o) 0 else ram p o

/-- The place of a word. -/
theorem place_iff {ps i p o : ℕ} (ho : o < ps) : p * ps + o = i ↔ p = i / ps ∧ o = i % ps := by
  have hps : 0 < ps := Nat.zero_lt_of_lt ho
  constructor
  · rintro rfl
    rw [Nat.mul_comm, Nat.mul_add_div hps, Nat.div_eq_of_lt ho, Nat.mul_add_mod, Nat.mod_eq_of_lt ho]
    exact ⟨rfl, rfl⟩
  · rintro ⟨rfl, rfl⟩
    rw [Nat.mul_comm]
    exact Nat.div_add_mod i ps

theorem sub_one_div {ps k : ℕ} (hps : 0 < ps) (h : k % ps ≠ 0) : (k - 1) / ps = k / ps := by
  have hsplit := Nat.div_add_mod k ps
  have hlt := Nat.mod_lt k hps
  have hsmall : (k % ps - 1) / ps = 0 := Nat.div_eq_of_lt (by omega)
  calc (k - 1) / ps = (ps * (k / ps) + (k % ps - 1)) / ps := by congr 1; omega
    _ = k / ps := by rw [Nat.mul_add_div hps, hsmall, Nat.add_zero]

/-- One word: its page is in the window when it is written. -/
theorem run_writeWord (entry : List (BitVec 16)) {ps k : ℕ} (hps : 0 < ps) (hwin : ps ≤ windowSize)
    (hk : k < 4 * ps) {m : Mac} (hpage : k % ps ≠ 0 → m.page = k / ps) :
    ∃ m' : Mac, ((writeWord entry ps k).run Mac.step m).2 = m'.setRam (k / ps) (k % ps) (entry.getD k 0) ∧
      m'.ram = m.ram ∧ (∀ i, i ≠ pageReg → m'.regs i = m.regs i) ∧ m'.page = k / ps := by
  have ho : k % ps < windowSize := (Nat.mod_lt k hps).trans_le hwin
  have hfour : k / ps < 4 := Nat.div_lt_of_lt_mul (by rwa [Nat.mul_comm] at hk)
  by_cases hfirst : k % ps = 0
  · -- the first word of a page: the page is turned
    have hnumber : (m.turn (BitVec.ofNat 16 (k / ps))).page = k / ps := by
      rw [turn_page, BitVec.toNat_ofNat, Nat.mod_eq_of_lt (hfour.trans (by decide)), Nat.mod_eq_of_lt hfour]
    refine ⟨m.turn (BitVec.ofNat 16 (k / ps)), ?_, rfl, fun i hi => turn_regs_of_ne _ hi, hnumber⟩
    rw [writeWord, if_pos hfirst, Script.run_bind, run_switchPage, Script.run_tell, step_write_window ho, hnumber]
  · refine ⟨m, ?_, rfl, fun _ _ => rfl, hpage hfirst⟩
    rw [writeWord, if_neg hfirst]
    show (Mac.step (.write (BitVec.ofNat 16 (0xF800 + k % ps * 2)) (entry.getD k 0)) m).2 = _
    rw [step_write_window ho, hpage hfirst]

/-- **Word by word**: after `k` words those are in the RAM, and the page of the last one is in the window. -/
theorem run_writeWords (entry : List (BitVec 16)) {ps : ℕ} (hps : 0 < ps) (hwin : ps ≤ windowSize) {k : ℕ}
    (hk : k ≤ 4 * ps) (m : Mac) :
    let m' := ((Script.each (writeWord entry ps) (List.range k)).run Mac.step m).2
    m'.ram = loaded entry ps k m.ram ∧ (∀ i, i ≠ pageReg → m'.regs i = m.regs i) ∧
      (0 < k → m'.page = (k - 1) / ps) := by
  induction k with
  | zero =>
      refine ⟨?_, fun _ _ => rfl, fun h => absurd h (Nat.lt_irrefl 0)⟩
      funext p o
      exact (if_neg fun h => Nat.not_lt_zero _ h.2).symm
  | succ k ih =>
      obtain ⟨hram, hregs, hpage⟩ := ih (by omega)
      set m₁ := ((Script.each (writeWord entry ps) (List.range k)).run Mac.step m).2
      -- between two words of a page the page is not turned
      have hsame : k % ps ≠ 0 → m₁.page = k / ps := by
        intro hmid
        have hpos : 0 < k := by
          by_contra hzero
          exact hmid (by rw [show k = 0 by omega]; exact Nat.zero_mod ps)
        rw [hpage hpos]
        exact sub_one_div hps hmid
      obtain ⟨m₂, hrun, hram₂, hregs₂, hpage₂⟩ := run_writeWord entry hps hwin (by omega) hsame
      have hstep : ((Script.each (writeWord entry ps) (List.range (k + 1))).run Mac.step m).2 =
          m₂.setRam (k / ps) (k % ps) (entry.getD k 0) := by
        rw [List.range_succ, Script.run_each_append, Script.run_each_cons, Script.run_each_nil, ← hrun]
      intro m'
      have hm' : m' = m₂.setRam (k / ps) (k % ps) (entry.getD k 0) := hstep
      rw [hm']
      refine ⟨?_, fun i hi => ?_, fun _ => ?_⟩
      · funext p o
        rw [setRam_ram, hram₂, hram, loaded, loaded]
        by_cases ho : o < ps
        · have hplace := place_iff (i := k) (p := p) ho
          by_cases hhere : p = k / ps ∧ o = k % ps
          · have heq := hplace.mpr hhere
            rw [if_pos hhere, if_pos ⟨ho, by omega⟩, heq]
          · have hne : p * ps + o ≠ k := fun h => hhere (hplace.mp h)
            rw [if_neg hhere]
            simp only [ho, true_and, Nat.lt_succ_iff_lt_or_eq, hne, or_false]
        · have hhere : ¬ (p = k / ps ∧ o = k % ps) := by
            rintro ⟨-, rfl⟩
            exact ho (Nat.mod_lt k hps)
          rw [if_neg hhere, if_neg fun h => ho h.1, if_neg fun h => ho h.1]
      · rw [setRam_regs, hregs₂ i hi, hregs i hi]
      · rw [setRam_page, hpage₂, Nat.add_sub_cancel]

/-- **Where the words of a patch go.** -/
theorem run_writeRamCodeWithPage {entry : List (BitVec 16)} {ps : ℕ} (hps : 0 < ps) (hwin : ps ≤ windowSize)
    (hlen : entry.length ≤ 4 * ps) (m : Mac) :
    let m' := ((writeRamCodeWithPage entry ps).run Mac.step m).2
    m'.ram = loaded entry ps entry.length m.ram ∧ ∀ i, i ≠ pageReg → m'.regs i = m.regs i := by
  have hall := run_writeWords entry hps hwin hlen m
  rw [writeRamCodeWithPage, if_neg (by omega)]
  exact ⟨hall.1, hall.2.1⟩

/-! ### The version -/

/-- A word of the version, counted from the end. -/
def slice (ver : BitVec 64) (j : ℕ) : BitVec 16 := (ver >>> (16 * j)).setWidth 16

/-- The version in the RAM. -/
def version (ram : ℕ → ℕ → BitVec 16) : BitVec 64 := foldVer [ram 2 252, ram 2 253, ram 2 254, ram 2 255]

/-- The RAM with a version noted in it. -/
def noted (ver : BitVec 64) (ram : ℕ → ℕ → BitVec 16) (p o : ℕ) : BitVec 16 :=
  if p = 2 ∧ 252 ≤ o ∧ o < 256 then slice ver (255 - o) else ram p o

/-- A number is what is above its last word, and its last word. -/
theorem join_word (x : BitVec 64) : x >>> 16 <<< 16 ||| (x.setWidth 16).setWidth 64 = x := by
  apply BitVec.eq_of_getLsbD_eq
  intro i hi
  simp only [BitVec.getLsbD_or, BitVec.getLsbD_shiftLeft, BitVec.getLsbD_setWidth, BitVec.getLsbD_ushiftRight]
  by_cases hlow : i < 16
  · simp [hlow, hi]
  · have hback : 16 + (i - 16) = i := by omega
    simp [hlow, hi, hback]

/-- The words of a version make up the version. -/
theorem foldVer_slices (ver : BitVec 64) : foldVer [slice ver 3, slice ver 2, slice ver 1, slice ver 0] = ver := by
  have htop : ver >>> 48 >>> 16 = 0 := by
    rw [← BitVec.shiftRight_add]
    exact BitVec.ushiftRight_eq_zero (Nat.le_refl 64)
  have h3 : (0 : BitVec 64) <<< 16 ||| (slice ver 3).setWidth 64 = ver >>> 48 := by
    have := join_word (ver >>> 48)
    rwa [htop] at this
  have h2 : ver >>> 48 <<< 16 ||| (slice ver 2).setWidth 64 = ver >>> 32 := by
    have := join_word (ver >>> 32)
    rwa [← BitVec.shiftRight_add] at this
  have h1 : ver >>> 32 <<< 16 ||| (slice ver 1).setWidth 64 = ver >>> 16 := by
    have := join_word (ver >>> 16)
    rwa [← BitVec.shiftRight_add] at this
  have h0 : ver >>> 16 <<< 16 ||| (slice ver 0).setWidth 64 = ver := join_word ver
  simp only [foldVer, List.foldl_cons, List.foldl_nil]
  rw [h3, h2, h1, h0]

theorem version_noted (ver : BitVec 64) (ram : ℕ → ℕ → BitVec 16) : version (noted ver ram) = ver :=
  foldVer_slices ver

/-- The four words of the version, written into page 2. -/
theorem setRam_noted (ver : BitVec 64) (m : Mac) :
    ((((m.setRam 2 255 (slice ver 0)).setRam 2 254 (slice ver 1)).setRam 2 253 (slice ver 2)).setRam 2 252
      (slice ver 3)).ram = noted ver m.ram := by
  funext p o
  simp only [setRam_ram, noted]
  by_cases hp : p = 2
  · by_cases ho : 252 ≤ o ∧ o < 256
    · obtain rfl | rfl | rfl | rfl : o = 252 ∨ o = 253 ∨ o = 254 ∨ o = 255 := by omega
      all_goals simp [hp]
    · have hne : o ≠ 252 ∧ o ≠ 253 ∧ o ≠ 254 ∧ o ≠ 255 := by omega
      simp [hp, ho, hne]
  · simp [hp]

/-- **The version is noted**, and the first page is in the window again. -/
theorem run_setHwVer (ver : BitVec 64) (m : Mac) :
    let r := (setHwVer ver).run Mac.step m
    r.1 = 0 ∧ r.2.ram = noted ver m.ram ∧ (∀ i, i ≠ pageReg → r.2.regs i = m.regs i) ∧ r.2.page = 0 := by
  have h0 : ∀ (m : Mac) w, (Mac.step (.write (BitVec.ofNat 16 (0xF9F8 + 6 - 0)) w) m).2 = m.setRam m.page 255 w :=
    fun m w => step_write_window (o := 255) (by decide)
  have h2 : ∀ (m : Mac) w, (Mac.step (.write (BitVec.ofNat 16 (0xF9F8 + 6 - 2)) w) m).2 = m.setRam m.page 254 w :=
    fun m w => step_write_window (o := 254) (by decide)
  have h4 : ∀ (m : Mac) w, (Mac.step (.write (BitVec.ofNat 16 (0xF9F8 + 6 - 4)) w) m).2 = m.setRam m.page 253 w :=
    fun m w => step_write_window (o := 253) (by decide)
  have h6 : ∀ (m : Mac) w, (Mac.step (.write (BitVec.ofNat 16 (0xF9F8 + 6 - 6)) w) m).2 = m.setRam m.page 252 w :=
    fun m w => step_write_window (o := 252) (by decide)
  have hpage : (m.turn 2).page = 2 := by rw [turn_page]; rfl
  intro r
  have hr : r = (ver >>> 16 >>> 16 >>> 16 >>> 16,
      (((((m.turn 2).setRam 2 255 (ver.setWidth 16)).setRam 2 254 ((ver >>> 16).setWidth 16)).setRam 2 253
        ((ver >>> 16 >>> 16).setWidth 16)).setRam 2 252 ((ver >>> 16 >>> 16 >>> 16).setWidth 16)).turn 0) := by
    simp only [r, setHwVer, setVerLoop, Script.run_bind, Script.run_tell, Script.run_pure, run_switchPage, h0, h2,
      h4, h6, setRam_page, hpage]
  have hslices : ∀ j, (ver >>> (16 * j)).setWidth 16 = slice ver j := fun _ => rfl
  rw [hr]
  refine ⟨?_, ?_, fun i hi => ?_, by rw [turn_page]; rfl⟩
  · rw [← BitVec.shiftRight_add, ← BitVec.shiftRight_add, ← BitVec.shiftRight_add]
    exact BitVec.ushiftRight_eq_zero (Nat.le_refl 64)
  · simp only [← BitVec.shiftRight_add]
    exact setRam_noted ver (m.turn 2)
  · rw [turn_regs_of_ne _ hi, setRam_regs, setRam_regs, setRam_regs, setRam_regs, turn_regs_of_ne _ hi]

/-- **The version is found**, and the first page is in the window again. -/
theorem run_getHwVer (m : Mac) :
    let r := getHwVer.run Mac.step m
    r.1 = version m.ram ∧ r.2.ram = m.ram ∧ (∀ i, i ≠ pageReg → r.2.regs i = m.regs i) ∧ r.2.page = 0 := by
  have h0 : ∀ m : Mac, Mac.step (.read (BitVec.ofNat 16 (0xF9F8 + 0))) m = (m.ram m.page 252, m) :=
    fun m => step_read_window (o := 252) (by decide)
  have h2 : ∀ m : Mac, Mac.step (.read (BitVec.ofNat 16 (0xF9F8 + 2))) m = (m.ram m.page 253, m) :=
    fun m => step_read_window (o := 253) (by decide)
  have h4 : ∀ m : Mac, Mac.step (.read (BitVec.ofNat 16 (0xF9F8 + 4))) m = (m.ram m.page 254, m) :=
    fun m => step_read_window (o := 254) (by decide)
  have h6 : ∀ m : Mac, Mac.step (.read (BitVec.ofNat 16 (0xF9F8 + 6))) m = (m.ram m.page 255, m) :=
    fun m => step_read_window (o := 255) (by decide)
  have hpage : (m.turn 2).page = 2 := by rw [turn_page]; rfl
  intro r
  have hr : r = (version m.ram, (m.turn 2).turn 0) := by
    simp only [r, getHwVer, getVerLoop, Script.run_bind, Script.run_ask, Script.run_pure, run_switchPage, h0, h2,
      h4, h6, hpage, turn_ram]
    rfl
  rw [hr]
  refine ⟨rfl, rfl, fun i hi => ?_, by rw [turn_page]; rfl⟩
  rw [turn_regs_of_ne _ hi, turn_regs_of_ne _ hi]

end Rtl812x.McuRam
