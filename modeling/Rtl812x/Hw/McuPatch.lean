import Rtl812x.Lib.Runs
import Rtl812x.Hw.McuRam

/-!
# Patches of the MAC's microcontroller

`rtl8125_hw_mac_mcu_config` runs each time the hardware is set up.  It loads the patch only if the version
in the RAM is not the patch's: the version stands for the contents.  That is right as long as whatever
changes the contents changes the version too, and as long as the words of the version do not fall on words
of the patch that are something else.  A patch whose last words are the last ones of page 2 carries its
version in place (`Fits`).

* `Holds` — the RAM holds a patch; `holds_load` — **after it was loaded**, the version noted, it does;
* `run_setMacMcu` — what setting a patch leaves; `run_hwMacMcuConfig` — a whole configuration;
* `mcu_patch_held` — **over any run** of configurations and losses of power, after every configuration the
  RAM holds the patch under its version, and no configuration writes the RAM of a chip that has it.
-/

namespace Rtl812x.McuRam

open Commands Runs

/-! ### What the RAM holds -/

/-- The words of a patch are in their places. -/
def Holds (code : List (BitVec 16)) (ram : ℕ → ℕ → BitVec 16) : Prop :=
  ∀ i < code.length, ram (i / pageSize) (i % pageSize) = code.getD i 0

/-- The version falls on no word of the patch, or on its own. -/
def Fits (code : List (BitVec 16)) : Prop := 4 ≤ code.length ∧ (code.length ≤ 764 ∨ code.length = 768)

theorem Fits.length_le {code : List (BitVec 16)} (h : Fits code) : code.length ≤ 4 * pageSize := by
  have := h.2
  rw [pageSize]
  omega

theorem loaded_place {code : List (BitVec 16)} {i : ℕ} (hi : i < code.length) (ram : ℕ → ℕ → BitVec 16) :
    loaded code pageSize code.length ram (i / pageSize) (i % pageSize) = code.getD i 0 := by
  have hsplit : i / pageSize * pageSize + i % pageSize = i := by
    rw [Nat.mul_comm]
    exact Nat.div_add_mod i pageSize
  rw [loaded, hsplit, if_pos ⟨Nat.mod_lt i (by decide), hi⟩]

section Slices

variable (x : BitVec 64) (w : BitVec 16)

theorem slice_zero_join : slice (x <<< 16 ||| w.setWidth 64) 0 = w := by
  apply BitVec.eq_of_getLsbD_eq
  intro i hi
  simp [slice, hi]

theorem slice_succ_join {j : ℕ} (hj : j ≤ 2) : slice (x <<< 16 ||| w.setWidth 64) (j + 1) = slice x j := by
  apply BitVec.eq_of_getLsbD_eq
  intro i hi
  have hlt : 16 * (j + 1) + i < 64 := by omega
  have hnot : ¬ 16 * (j + 1) + i < 16 := by omega
  have hback : 16 * (j + 1) + i - 16 = 16 * j + i := by omega
  have hword : w.getLsbD (16 * (j + 1) + i) = false := BitVec.getLsbD_of_ge _ _ (by omega)
  simp only [slice, BitVec.getLsbD_setWidth, BitVec.getLsbD_ushiftRight, BitVec.getLsbD_or,
    BitVec.getLsbD_shiftLeft, hi, hlt, hnot, hback, hword, decide_true, decide_false, Bool.not_false,
    Bool.true_and, Bool.or_false]

end Slices

/-- The words of a version that was put together from words. -/
theorem slice_foldVer {ws : List (BitVec 16)} (hws : ws.length = 4) {j : ℕ} (hj : j < 4) :
    slice (foldVer ws) (3 - j) = ws.getD j 0 := by
  obtain ⟨a, b, c, d, rfl⟩ : ∃ a b c d, ws = [a, b, c, d] := by
    match ws, hws with
    | [a, b, c, d], _ => exact ⟨a, b, c, d, rfl⟩
  simp only [foldVer, List.foldl_cons, List.foldl_nil]
  obtain rfl | rfl | rfl | rfl : j = 0 ∨ j = 1 ∨ j = 2 ∨ j = 3 := by omega
  · show slice _ (0 + 1 + 1 + 1) = a
    rw [slice_succ_join _ _ (by decide), slice_succ_join _ _ (by decide), slice_succ_join _ _ (by decide),
      slice_zero_join]
  · show slice _ (0 + 1 + 1) = b
    rw [slice_succ_join _ _ (by decide), slice_succ_join _ _ (by decide), slice_zero_join]
  · show slice _ (0 + 1) = c
    rw [slice_succ_join _ _ (by decide), slice_zero_join]
  · exact slice_zero_join _ _

/-- **A patch that was loaded is held**, with its version noted. -/
theorem holds_load {code : List (BitVec 16)} (h : Fits code) (ram : ℕ → ℕ → BitVec 16) :
    Holds code (noted (getBinVer code) (loaded code pageSize code.length ram)) := by
  intro i hi
  obtain ⟨hfour, hlen⟩ := h
  rw [noted]
  split
  case isFalse => exact loaded_place hi ram
  case isTrue hplace =>
    -- the word is one of the last four of page 2, and so of the patch
    obtain ⟨hp, hlo, hhi⟩ := hplace
    rw [pageSize] at hp hlo hhi ⊢
    have hin : 764 ≤ i ∧ i < 768 := by omega
    have hfull : code.length = 768 := by omega
    have hws : (code.drop (code.length - 4)).length = 4 := by
      rw [List.length_drop]
      omega
    have hindex : 255 - i % 256 = 3 - (i - 764) := by omega
    have hshift : code.length - 4 + (i - 764) = i := by omega
    rw [hindex, getBinVer, if_neg (by omega), slice_foldVer hws (by omega), List.getD_eq_getElem?_getD,
      List.getElem?_drop, hshift, List.getD_eq_getElem?_getD]

theorem version_load (code : List (BitVec 16)) (ram : ℕ → ℕ → BitVec 16) :
    version (noted (getBinVer code) (loaded code pageSize code.length ram)) = getBinVer code :=
  version_noted _ _

/-! ### Setting a patch -/

/-- The registers of the breakpoints: outside the window, and not the page register. -/
def BpReg (a : BitVec 16) : Prop := ¬ Mac.InWindow (index a) ∧ index a ≠ pageReg

instance (a : BitVec 16) : Decidable (BpReg a) := inferInstanceAs (Decidable (_ ∧ _))

/-- The script does not touch the RAM. -/
def KeepsRam {α : Type} (p : Driver α) : Prop :=
  ∀ m, (p.run Mac.step m).2.ram = m.ram

theorem keepsRam_write {a v : BitVec 16} (ha : BpReg a) : KeepsRam (Script.tell (.write a v)) := by
  intro m
  rw [Script.run_tell, step_write_reg ha.1, setReg_ram]

theorem KeepsRam.bind {α β : Type} {p : Driver α} {f : α → Driver β} (hp : KeepsRam p)
    (hf : ∀ a, KeepsRam (f a)) : KeepsRam (p >>= f) := by
  intro m
  rw [Script.run_bind, hf _ _, hp m]

theorem keepsRam_pure {α : Type} (a : α) : KeepsRam (pure a : Driver α) := fun _ => rfl

theorem keepsRam_each {α : Type} {f : α → Driver Unit} {l : List α} (hf : ∀ a ∈ l, KeepsRam (f a)) :
    KeepsRam (Script.each f l) := by
  induction l with
  | nil => exact fun _ => rfl
  | cons a l ih =>
      intro m
      rw [Script.run_each_cons, ih fun b hb => hf b (List.mem_cons_of_mem _ hb), hf a List.mem_cons_self]

theorem keepsRam_disableMacMcuBps : KeepsRam disableMacMcuBps := by
  refine (keepsRam_write (by decide)).bind fun _ => (keepsRam_each ?_).bind fun _ => keepsRam_write (by decide)
  intro k hk
  refine keepsRam_write ?_
  have := List.mem_range.mp hk
  revert k
  decide

theorem keepsRam_setBps {bps : List (BitVec 16 × BitVec 16)} (hbps : ∀ b ∈ bps, BpReg b.1) (enable : BitVec 16) :
    KeepsRam (setBps bps enable) :=
  (keepsRam_write (by decide)).bind fun _ => (keepsRam_each fun b hb => keepsRam_write (hbps b hb)).bind fun _ =>
    keepsRam_write (by decide)

/-- The driver knows the chip, and loads patches by pages. -/
structure Tp.Loads (tp : Tp) : Prop where
  write : tp.notWrMcuPatchCode = false
  supported : tp.hwSuppMacMcuVer ≠ 0
  paged : tp.macMcuPageSize = pageSize

theorem Tp.Loads.binVer {tp : Tp} (h : tp.Loads) (ver : BitVec 64) : ({ tp with binVer := ver } : Tp).Loads :=
  ⟨h.write, h.supported, h.paged⟩

theorem Tp.Loads.hwVer {tp : Tp} (h : tp.Loads) (ver : BitVec 64) : ({ tp with hwVer := ver } : Tp).Loads :=
  ⟨h.write, h.supported, h.paged⟩

/-- **A patch is loaded.** -/
theorem run_writeMacMcuRamCode {code : List (BitVec 16)} {tp : Tp} (hcode : Fits code) (htp : tp.Loads)
    (hbin : tp.binVer = getBinVer code) (hver : 0 < getBinVer code) (m : Mac) :
    ((writeMacMcuRamCode code tp).run Mac.step m).2.ram =
      noted (getBinVer code) (loaded code pageSize code.length m.ram) := by
  have hne : code ≠ [] := by
    intro hnil
    have := hcode.1
    rw [hnil] at this
    exact absurd this (by decide)
  have hload := run_writeRamCodeWithPage (by decide) (by decide) hcode.length_le m
  rw [writeMacMcuRamCode, if_neg htp.supported, if_neg hne, htp.paged, hbin, if_pos (by decide), if_pos hver,
    Script.run_bind, Script.run_bind, Script.run_pure, (run_setHwVer _ _).2.1, hload.1]

/-- **A patch is set**: it is loaded if the driver found another version. -/
theorem run_setMacMcu {code : List (BitVec 16)} {bps : List (BitVec 16 × BitVec 16)} {enable : BitVec 16} {tp : Tp}
    (hcode : Fits code) (hbps : ∀ b ∈ bps, BpReg b.1) (htp : tp.Loads) (hver : 0 < getBinVer code) (m : Mac) :
    ((setMacMcu code bps enable tp).run Mac.step m).2.ram =
      if tp.hwVer = getBinVer code then m.ram
      else noted (getBinVer code) (loaded code pageSize code.length m.ram) := by
  have hrest : ∀ tp' : Tp, KeepsRam (setBps bps enable >>= fun _ => (pure tp' : Driver Tp)) :=
    fun tp' => (keepsRam_setBps hbps enable).bind fun _ => keepsRam_pure tp'
  rw [setMacMcu]
  by_cases hsame : tp.hwVer = getBinVer code
  · rw [if_neg (not_not.mpr hsame), if_pos hsame, Script.run_bind, Script.run_pure, hrest]
  · rw [if_pos hsame, if_neg hsame, Script.run_bind, hrest]
    exact run_writeMacMcuRamCode hcode (htp.binVer _) rfl hver m

/-- The code of the patch of a chip, if it has a version. -/
def patchOf (T : Tables) : Mcfg → Option (List (BitVec 16))
  | .m8 => some T.c8125bp1
  | .m9 => some T.c8125bp2
  | .m10 => some T.c8125d1
  | .m11 | .m13 => some T.c8125d2
  | .m12 => some T.c8125cp1
  | .m32 => some T.c8126a2
  | .m33 => some T.c8126a3
  | .m41 => some T.c8127atc
  | .m42 => some T.c8127a1
  | .m2 | .m3 | .m4 | .m5 | .m6 | .m7 | .m31 => none

/-- The patches with a version are set alike. -/
theorem setMacMcuOf_eq {T : Tables} {mcfg : Mcfg} {code : List (BitVec 16)} (h : patchOf T mcfg = some code) :
    ∃ bps enable, (∀ b ∈ bps, BpReg b.1) ∧ setMacMcuOf T mcfg = setMacMcu code bps enable := by
  have hbps : ∀ bps : List (BitVec 16 × BitVec 16), (bps.all fun b => BpReg b.1) = true → ∀ b ∈ bps, BpReg b.1 :=
    fun bps hall b hb => of_decide_eq_true (List.all_eq_true.mp hall b hb)
  cases mcfg <;> cases h <;> exact ⟨_, _, hbps _ (by decide), rfl⟩

/-- The MAC after a configuration. -/
def configured (T : Tables) (mcfg : Mcfg) (tp : Tp) (m : Mac) : Mac :=
  ((hwMacMcuConfig T mcfg tp).run Mac.step m).2

section Config

variable {T : Tables} {mcfg : Mcfg} {code : List (BitVec 16)}

/-- **A whole configuration**: the patch is loaded unless its version is in the RAM. -/
theorem configured_ram (hpatch : patchOf T mcfg = some code) (hcode : Fits code) (hver : 0 < getBinVer code)
    {tp : Tp} (htp : tp.Loads) (m : Mac) :
    (configured T mcfg tp m).ram =
      if version m.ram = getBinVer code then m.ram
      else noted (getBinVer code) (loaded code pageSize code.length m.ram) := by
  obtain ⟨bps, enable, hbps, hset⟩ := setMacMcuOf_eq hpatch
  have hoff := keepsRam_disableMacMcuBps m
  obtain ⟨hfound, hram, -, -⟩ := run_getHwVer (disableMacMcuBps.run Mac.step m).2
  have hwrites : ¬ tp.notWrMcuPatchCode = true := by
    rw [htp.write]
    exact Bool.false_ne_true
  rw [configured, hwMacMcuConfig, if_neg hwrites, Script.run_bind, Script.run_bind, hset,
    run_setMacMcu hcode hbps (htp.hwVer _) hver, hram, hfound, hoff]

/-! ### Runs -/

inductive Event where
  /-- the hardware is set up -/
  | config (tp : Tp)
  /-- the chip loses power, and comes back with other contents -/
  | powerLoss (m : Mac)
  /-- some other register of the MAC is written -/
  | write (a v : BitVec 16)

def step (T : Tables) (mcfg : Mcfg) (m : Mac) : Event → Mac
  | .config tp => configured T mcfg tp m
  | .powerLoss m' => m'
  | .write a v => (Mac.step (.write a v) m).2

/-- The version does not survive without the contents, and nobody else writes the RAM. -/
def Legal (code : List (BitVec 16)) (_ : Mac) : Event → Prop
  | .config tp => tp.Loads
  | .powerLoss m' => version m'.ram ≠ getBinVer code
  | .write a _ => BpReg a

/-- The version stands for the contents. -/
def Inv (code : List (BitVec 16)) (m : Mac) : Prop := version m.ram = getBinVer code → Holds code m.ram

theorem holds_configured (hpatch : patchOf T mcfg = some code) (hcode : Fits code) (hver : 0 < getBinVer code)
    {tp : Tp} (htp : tp.Loads) {m : Mac} (h : Inv code m) :
    Holds code (configured T mcfg tp m).ram ∧ version (configured T mcfg tp m).ram = getBinVer code := by
  rw [configured_ram hpatch hcode hver htp]
  split
  case isTrue hsame => exact ⟨h hsame, hsame⟩
  case isFalse => exact ⟨holds_load hcode m.ram, version_load code m.ram⟩

theorem Inv.step (hpatch : patchOf T mcfg = some code) (hcode : Fits code) (hver : 0 < getBinVer code) {m : Mac}
    (h : Inv code m) (e : Event) (hlegal : Legal code m e) : Inv code (step T mcfg m e) := by
  cases e with
  | config tp => exact fun _ => (holds_configured hpatch hcode hver hlegal h).1
  | powerLoss m' => exact fun hsame => absurd hsame hlegal
  | write a v =>
      have hram := keepsRam_write (v := v) hlegal m
      rw [Script.run_tell] at hram
      rw [Inv, McuRam.step, hram]
      exact h

/-- **After every configuration the RAM holds the patch under its version**, whatever went before, and
another one does not write it again. -/
theorem mcu_patch_held (hpatch : patchOf T mcfg = some code) (hcode : Fits code) (hver : 0 < getBinVer code)
    {m₀ : Mac} (h₀ : version m₀.ram = getBinVer code → Holds code m₀.ram) {events : List Event}
    (hlegal : Along (step T mcfg) (Legal code) m₀ events) {tp : Tp} (htp : tp.Loads) :
    let m := configured T mcfg tp (exec (step T mcfg) m₀ events)
    Holds code m.ram ∧ version m.ram = getBinVer code ∧
      ∀ tp' : Tp, tp'.Loads → (configured T mcfg tp' m).ram = m.ram := by
  intro m
  have hinv : Inv code (exec (step T mcfg) m₀ events) :=
    invariant_along (fun m e hm he => hm.step hpatch hcode hver e he) h₀ hlegal
  obtain ⟨hholds, hversion⟩ := holds_configured hpatch hcode hver htp hinv
  refine ⟨hholds, hversion, fun tp' htp' => ?_⟩
  rw [configured_ram hpatch hcode hver htp', if_pos hversion]

end Config

/-- A patch of five words on a chip that is set up, loses power and is set up again. -/
theorem mcu_patch_held_power :
    let code : List (BitVec 16) := [0xE010, 0x6961, 0x0019, 0x050C, 0x140C]
    let T : Tables := ⟨[], [], [], [], [], [], [], [], [], [], [], code⟩
    let tp : Tp := ⟨false, 2, 256, 0, 0⟩
    let blank : Mac := ⟨fun _ => 0, fun _ _ => 0⟩
    let m := configured T .m42 tp (exec (step T .m42) blank [.config tp, .powerLoss blank, .write 0xD40A 1])
    Holds code m.ram ∧ version m.ram = getBinVer code := by
  intro code T tp blank m
  have htp : tp.Loads := ⟨rfl, by decide, rfl⟩
  have hblank : version blank.ram ≠ getBinVer code := by decide
  have hlegal : Along (step T .m42) (Legal code) blank [.config tp, .powerLoss blank, .write 0xD40A 1] :=
    ⟨htp, hblank, show BpReg 0xD40A by decide, trivial⟩
  have hpatch : patchOf T .m42 = some code := rfl
  have hheld := mcu_patch_held hpatch ⟨by decide, .inl (by decide)⟩ (by decide)
    (fun hsame => absurd hsame hblank) hlegal htp
  exact ⟨hheld.1, hheld.2.1⟩

end Rtl812x.McuRam
