import Rtl812x.Kext.StartResult

/-!
# What `start` acquires is released

* `Sound E n s` — nothing of stage `n` or later has been acquired, what is kept in an array is gone with
  the array, and the handles in `E` are even: what was acquired is what the pointer points to;
* `Undoes P s s'` — the resources in `P` are released, the others are as before;
* `setupTxResources_sound`, `setupRxResources_sound`, … — what the setup functions keep;
* `free_undoes` — **`free` releases whatever a member variable points to**, but for the mapper.
-/

namespace Rtl812x.Kext.Start

open Handles

/-! ### Resources kept in others -/

/-- The array a pointer is kept in; the event sources are on the work loop. -/
def Resource.box : Resource → Option Resource
  | .txDmaCmd _ => some .txMapMem
  | .rxMbuf _ => some .rxBufArrayMem
  | .rxMemIo _ | .rxDmaCmd _ => some .rxMapMem
  | .interruptSource | .timerSource => some .workLoop
  | _ => none

def Resource.isBox : Resource → Bool
  | .txMapMem | .rxBufArrayMem | .rxMapMem | .workLoop => true
  | _ => false

theorem Resource.isBox_of_box {x b : Resource} (h : x.box = some b) : b.isBox = true := by
  cases x <;> cases h <;> rfl

theorem box_txDmaCmds {x : Resource} (hx : x ∈ txDmaCmds) : x.box = some .txMapMem := by
  obtain ⟨i, rfl⟩ := mem_txDmaCmds.mp hx
  rfl

theorem box_rxMbufs {x : Resource} (hx : x ∈ rxMbufs) : x.box = some .rxBufArrayMem := by
  obtain ⟨i, rfl⟩ := mem_rxMbufs.mp hx
  rfl

theorem box_rxMapResources {x : Resource} (hx : x ∈ rxMapResources) : x.box = some .rxMapMem := by
  obtain ⟨i, rfl | rfl⟩ := mem_rxMapResources.mp hx <;> rfl

/-- The DMA path a resource belongs to: mapped or not. -/
def Resource.path : Resource → Option Bool
  | .txMapMem | .rxMapMem => some true
  | .txMbufCursor => some false
  | _ => none

theorem Resource.path_of_box {x b : Resource} (h : x.box = some b) : x.path = none := by
  cases x <;> cases h <;> rfl

structure Sound (E : Resource → Prop) (n : ℕ) (s : DriverObject) : Prop where
  shaped : Shaped Resource.box (fun x => n ≤ x.stage) s.handle
  path : ∀ x b, x.path = some b → (s.handle x).ptr = true → s.useAppleVTD = b
  even : ∀ x, E x → (s.handle x).Even

structure Undoes (P : Resource → Prop) (s s' : DriverObject) : Prop where
  vtd : s'.useAppleVTD = s.useAppleVTD
  releases : Releases P s.handle s'.handle

namespace Undoes

variable {P Q : Resource → Prop} {s s' s'' : DriverObject}

theorem trans (h : Undoes P s s') (h' : Undoes Q s' s'') : Undoes (fun x => P x ∨ Q x) s s'' :=
  ⟨h'.vtd.trans h.vtd, h.releases.trans h'.releases⟩

theorem congr (h : Undoes P s s') (hPQ : ∀ x, P x ↔ Q x) : Undoes Q s s' := ⟨h.vtd, h.releases.congr hPQ⟩

theorem extend (h : Undoes P s s') (hPQ : ∀ x, P x → Q x)
    (hnull : ∀ x, Q x → ¬P x → (s.handle x).ptr = false) : Undoes Q s s' :=
  ⟨h.vtd, h.releases.extend hPQ hnull⟩

theorem of_null (h : ∀ x, P x → (s.handle x).ptr = false) : Undoes P s s := ⟨rfl, .of_null h⟩

theorem drop (r : Resource) (s : DriverObject) : Undoes (· = r) s (s.drop r) :=
  ⟨rfl, releases_drop r s.handle⟩

theorem dropAll (rs : List Resource) (s : DriverObject) : Undoes (· ∈ rs) s (s.dropAll rs) :=
  ⟨rfl, releases_dropAll rs s.handle⟩

end Undoes

namespace Sound

variable {E : Resource → Prop} {n m : ℕ} {s s' : DriverObject}

theorem init : Sound E n .init :=
  ⟨shaped_null, fun _ _ _ h => absurd h Bool.false_ne_true, fun _ _ => Handle.even_null⟩

theorem mono (h : Sound E n s) (hm : n ≤ m) : Sound E m s :=
  ⟨h.shaped.mono fun _ hx => hm.trans hx, h.path, h.even⟩

/-- A fresh resource is acquired, or not. -/
theorem take (h : Sound E n s) {r : Resource} (hr : n ≤ r.stage) (ok : Bool)
    (hbox : ∀ b, r.box = some b → (s.handle b).ptr = true)
    (hpath : ∀ b, r.path = some b → s.useAppleVTD = b) : Sound E (r.stage + 1) (s.take r ok) := by
  refine ⟨(h.shaped.take hr ok hbox).mono fun x hx => ⟨?_, ?_⟩, fun x b hb hptr => ?_, fun x hx => ?_⟩
  · exact hr.trans (Nat.le_of_succ_le hx)
  · rintro rfl
    exact Nat.not_succ_le_self _ hx
  · by_cases hx : x = r
    · exact hpath b (hx ▸ hb)
    · refine h.path x b hb ?_
      rwa [DriverObject.take_handle, take_of_ne hx] at hptr
  · exact even_take (h.even x hx) (h.shaped.fresh r hr) ok

/-- A resource that is kept in no other and belongs to both DMA paths. -/
theorem take_plain (h : Sound E n s) {r : Resource} (hr : n ≤ r.stage) (ok : Bool) (hbox : r.box = none)
    (hpath : r.path = none) : Sound E (r.stage + 1) (s.take r ok) := by
  refine h.take hr ok (fun b hb => ?_) fun b hb => ?_
  · rw [hbox] at hb
    cases hb
  · rw [hpath] at hb
    cases hb

theorem takeAll (h : Sound E n s) {calls : List (Option Resource × Bool)} {b : Resource}
    (hn : n ≤ m) (hstage : ∀ r ∈ targets calls, r.stage = m) (hnodup : (targets calls).Nodup)
    (hbox : ∀ r ∈ targets calls, r.box = some b) (hb : (s.handle b).ptr = true) :
    Sound E (m + 1) (s.takeAll calls).2 := by
  have hfresh : ∀ r ∈ targets calls, n ≤ r.stage := fun r hr => hn.trans (hstage r hr).ge
  have hshaped := h.shaped.takeAll hnodup hfresh fun r hr b' hb' => by
    rw [hbox r hr, Option.some.injEq] at hb'
    rwa [← hb']
  refine ⟨hshaped.mono fun x hx => ⟨?_, fun hmem => ?_⟩, fun x p hp hptr => ?_, fun x hx => ?_⟩
  · exact hn.trans (Nat.le_of_succ_le hx)
  · rw [hstage x hmem] at hx
    exact Nat.not_succ_le_self _ hx
  · by_cases hmem : x ∈ targets calls
    · rw [Resource.path_of_box (hbox x hmem)] at hp
      cases hp
    · refine h.path x p hp ?_
      rwa [DriverObject.takeAll_handle, takeAll_of_notMem hmem] at hptr
  · exact even_takeAll (h.even x hx) hnodup fun r hr => h.shaped.fresh r (hfresh r hr)

/-- Releasing keeps everything if what is kept in a released resource is released or null. -/
theorem undoes (h : Sound E n s) {P : Resource → Prop} (hu : Undoes P s s')
    (hclosed : ∀ x b, x.box = some b → P b → P x ∨ (s.handle x).ptr = false) : Sound E n s' :=
  ⟨hu.releases.shaped h.shaped hclosed,
    fun x b hb hptr => hu.vtd.trans (h.path x b hb (hu.releases.ptr hptr)),
    fun x hx => hu.releases.even (h.even x hx)⟩

theorem drop (h : Sound E n s) {r : Resource} (hr : r.isBox = false) : Sound E n (s.drop r) := by
  refine h.undoes (.drop r s) ?_
  rintro x _ hb rfl
  rw [Resource.isBox_of_box hb] at hr
  cases hr

theorem dropKept (h : Sound E n s) {r : Resource} (hr : r.stage < n) (hE : ¬E r) :
    Sound E n (s.dropKept r) := by
  refine ⟨h.shaped.dropKept hr.not_ge, fun x b hb hptr => ?_, fun x hx => ?_⟩
  · refine h.path x b hb ?_
    rwa [DriverObject.dropKept_handle, dropKept_ptr] at hptr
  · have hne : x ≠ r := by
      rintro rfl
      exact hE hx
    rw [DriverObject.dropKept_handle, dropKept_of_ne hne]
    exact h.even x hx

end Sound

/-! ### Releasing -/

section Release

variable {E : Resource → Prop} {n : ℕ} {s : DriverObject}

/-- What is kept in `b` is null if `b` is. -/
theorem Sound.null_of_box (h : Sound E n s) {x b : Resource} (hbox : x.box = some b)
    (hb : ¬(s.handle b).ptr = true) : (s.handle x).ptr = false :=
  Bool.eq_false_iff.mpr (mt (h.shaped.within x b hbox) hb)

/-- What belongs to the other DMA path is null. -/
theorem Sound.null_of_path (h : Sound E n s) {x : Resource} {b : Bool} (hpath : x.path = some b)
    (hb : s.useAppleVTD ≠ b) : (s.handle x).ptr = false :=
  Bool.eq_false_iff.mpr (mt (h.path x b hpath) hb)

/-- An array is freed with what is kept in it, if it is there. -/
theorem freeBox_undoes (h : Sound E n s) {b : Resource} {rs : List Resource}
    (hrs : ∀ r ∈ rs, r.box = some b) :
    Undoes (fun x => x = b ∨ x ∈ rs) s (if (s.handle b).ptr then (s.dropAll rs).drop b else s) := by
  split
  case isTrue => exact ((Undoes.dropAll rs s).trans (.drop b _)).congr fun x => or_comm
  case isFalse hptr =>
    refine .of_null ?_
    rintro x (rfl | hx)
    · exact Bool.eq_false_iff.mpr hptr
    · exact h.null_of_box (hrs x hx) hptr

theorem freeTxMap_undoes (h : Sound E n s) :
    Undoes (fun x => x = .txMapMem ∨ x ∈ txDmaCmds) s (freeTxMap s) :=
  freeBox_undoes h fun _ => box_txDmaCmds

theorem freeTxResources_undoes (h : Sound E n s) :
    Undoes (fun x => 7 ≤ x.stage ∧ x.stage ≤ 11) s (freeTxResources s) := by
  have hmap : Undoes (fun x => x.stage = 10 ∨ x.stage = 11) s
      (if s.useAppleVTD then freeTxMap s else s.drop .txMbufCursor) := by
    split
    case isTrue hv =>
      refine (freeTxMap_undoes h).extend ?_ fun x hx hnot => ?_
      · rintro x (rfl | hx)
        · exact .inl rfl
        · exact .inr (stage_txDmaCmds hx)
      · -- only the cursor is left
        have hcursor : x = .txMbufCursor := by
          cases x <;> simp [Resource.stage, mem_txDmaCmds] at hx hnot ⊢
        subst hcursor
        exact h.null_of_path rfl (by rw [hv]; decide)
    case isFalse hv =>
      have hmem : (s.handle .txMapMem).ptr = false := h.null_of_path rfl hv
      refine (Undoes.drop .txMbufCursor s).extend ?_ fun x hx hnot => ?_
      · rintro x rfl
        exact .inl rfl
      · have hx' : x = .txMapMem ∨ ∃ i, x = .txDmaCmd i := by
          cases x <;> simp [Resource.stage] at hx hnot ⊢
        obtain rfl | ⟨i, rfl⟩ := hx'
        · exact hmem
        · exact h.null_of_box rfl (Bool.eq_false_iff.mp hmem)
  refine (((hmap.trans (.drop .txBufDesc _)).trans (.drop .txDescDmaCmd _)).trans
    (.drop .txBufArrayMem _)).congr fun x => ?_
  cases x <;> simp [Resource.stage]

theorem freeRxMap_undoes (h : Sound E n s) :
    Undoes (fun x => x = .rxMapMem ∨ x ∈ rxMapResources) s (freeRxMap s) :=
  freeBox_undoes h fun _ => box_rxMapResources

theorem freeRxMbufs_undoes (h : Sound E n s) :
    Undoes (fun x => x = .rxBufArrayMem ∨ x ∈ rxMbufs) s (freeRxMbufs s) :=
  freeBox_undoes h fun _ => box_rxMbufs

theorem freeRxResources_undoes (h : Sound E n s) :
    Undoes (fun x => 12 ≤ x.stage ∧ x.stage ≤ 18) s (freeRxResources s) := by
  have hmap : Undoes (fun x => x.stage = 17 ∨ x.stage = 18) s
      (if s.useAppleVTD then freeRxMap s else s) := by
    have hset : ∀ x : Resource, x.stage = 17 ∨ x.stage = 18 ↔ x = .rxMapMem ∨ x ∈ rxMapResources := by
      intro x
      cases x <;> simp [Resource.stage, mem_rxMapResources]
    split
    case isTrue => exact (freeRxMap_undoes h).congr fun x => (hset x).symm
    case isFalse hv =>
      have hmem : (s.handle .rxMapMem).ptr = false := h.null_of_path rfl hv
      refine .of_null fun x hx => ?_
      obtain rfl | hx := (hset x).mp hx
      · exact hmem
      · exact h.null_of_box (box_rxMapResources hx) (Bool.eq_false_iff.mp hmem)
  have hring := ((hmap.trans (.drop .rxDescDmaCmd _)).trans (.drop .rxBufDesc _)).trans (.drop .rxPool _)
  have hsound := h.undoes hring ?_
  · refine (hring.trans (freeRxMbufs_undoes hsound)).congr fun x => ?_
    cases x <;> simp [Resource.stage, mem_rxMbufs]
  · intro x b hb hP
    cases x <;> cases hb <;> simp [Resource.stage] at hP ⊢

theorem freeStatResources_undoes (s : DriverObject) :
    Undoes (fun x => 19 ≤ x.stage ∧ x.stage ≤ 21) s (freeStatResources s) := by
  refine (((Undoes.drop .statCall s).trans (.drop .statBufDesc _)).trans (.drop .statDescDmaCmd _)).congr
    fun x => ?_
  cases x <;> simp [Resource.stage]

/-! ### The labels of `start` -/

/-- The resources released from the labels of `start`, up to stage `k`. -/
def Undone (k : ℕ) (x : Resource) : Prop := x.stage = 1 ∨ x.stage = 2 ∨ (5 ≤ x.stage ∧ x.stage ≤ k)

theorem undone_closed {k : ℕ} (hk : k ∈ [4, 5, 6, 11, 18, 21]) (x b : Resource) (hb : x.box = some b)
    (h : Undone k b) : Undone k x := by
  simp only [List.mem_cons, List.not_mem_nil, or_false] at hk
  cases x <;> cases hb <;> simp [Resource.stage, Undone] at h ⊢ <;> omega

theorem errorCfg_undoes (s : DriverObject) : Undoes (Undone 4) s (errorCfg s) := by
  refine ((Undoes.drop .pciOpen s).trans (.drop .pciDevice _)).congr fun x => ?_
  cases x <;> simp [Resource.stage, Undone]

theorem errorGate_undoes (s : DriverObject) : Undoes (Undone 5) s (errorGate s) := by
  refine ((Undoes.drop .mediumDict s).trans (errorCfg_undoes _)).congr fun x => ?_
  cases x <;> simp [Resource.stage, Undone]

theorem errorDma1_undoes (s : DriverObject) : Undoes (Undone 6) s (errorDma1 s) := by
  refine ((Undoes.drop .commandGate s).trans (errorGate_undoes _)).congr fun x => ?_
  cases x <;> simp [Resource.stage, Undone]

theorem errorDma2_undoes (h : Sound E n s) : Undoes (Undone 11) s (errorDma2 s) := by
  refine ((freeTxResources_undoes h).trans (errorDma1_undoes _)).congr fun x => ?_
  unfold Undone
  omega

theorem Sound.freeRxResources (h : Sound E n s) : Sound E n (freeRxResources s) := by
  refine h.undoes (freeRxResources_undoes h) fun x b hb hP => .inl ?_
  cases x <;> cases hb <;> simp [Resource.stage] at hP ⊢

theorem Sound.freeTxResources (h : Sound E n s) : Sound E n (freeTxResources s) := by
  refine h.undoes (freeTxResources_undoes h) fun x b hb hP => .inl ?_
  cases x <;> cases hb <;> simp [Resource.stage] at hP ⊢

theorem Sound.freeStatResources (h : Sound E n s) : Sound E n (freeStatResources s) := by
  refine h.undoes (freeStatResources_undoes s) fun x b hb hP => .inl ?_
  cases x <;> cases hb <;> simp [Resource.stage] at hP ⊢

theorem errorDma3_undoes (h : Sound E n s) : Undoes (Undone 18) s (errorDma3 s) := by
  refine ((freeRxResources_undoes h).trans (errorDma2_undoes h.freeRxResources)).congr fun x => ?_
  unfold Undone
  omega

theorem errorSrc_undoes (h : Sound E n s) : Undoes (Undone 21) s (errorSrc s) := by
  refine ((freeStatResources_undoes s).trans (errorDma3_undoes h.freeStatResources)).congr fun x => ?_
  unfold Undone
  omega

/-! ### `free` -/

theorem freeWorkLoop_undoes (h : Sound E n s) :
    Undoes (fun x => x = .interruptSource ∨ x = .timerSource ∨ x = .workLoop) s (freeWorkLoop s) := by
  unfold freeWorkLoop
  split
  case isTrue =>
    exact (((Undoes.drop .interruptSource s).trans (.drop .timerSource _)).trans
      (.drop .workLoop _)).congr fun x => or_assoc
  case isFalse hptr =>
    refine .of_null ?_
    rintro x (rfl | rfl | rfl)
    · exact h.null_of_box rfl hptr
    · exact h.null_of_box rfl hptr
    · exact Bool.eq_false_iff.mpr hptr

/-- **`free` releases whatever a member variable points to**, but for the mapper; it does not close the
device. -/
theorem free_undoes (h : Sound E n s) : Undoes (fun x => x ≠ .pciOpen ∧ x ≠ .mapper) s (free s) := by
  have hwork := freeWorkLoop_undoes h
  have hloop : Sound E n (freeWorkLoop s) := by
    refine h.undoes hwork fun x b hb hP => .inl ?_
    cases x <;> cases hb <;> simp at hP ⊢
  have hdrops := ((((hwork.trans (.drop .commandGate _)).trans (.drop .txQueue _)).trans
    (.drop .mediumDict _)).trans (.drop .baseMap _)).trans (.drop .pciDevice _)
  have hs := ((((hloop.drop (r := .commandGate) rfl).drop (r := .txQueue) rfl).drop
    (r := .mediumDict) rfl).drop (r := .baseMap) rfl).drop (r := .pciDevice) rfl
  have htx := hs.freeTxResources
  refine (((hdrops.trans (freeTxResources_undoes hs)).trans (freeRxResources_undoes htx)).trans
    (freeStatResources_undoes _)).congr fun x => ?_
  cases x <;> simp [Resource.stage]

end Release

/-! ### The setup functions -/

/-- The resources of a ring, at stages `n`, `n + 1` and `n + 2`. -/
structure RingAt (r : RingResources) (n : ℕ) : Prop where
  first : r.first.stage = n ∧ r.first.box = none ∧ r.first.path = none
  bufDesc : r.bufDesc.stage = n + 1 ∧ r.bufDesc.box = none ∧ r.bufDesc.path = none ∧
    r.bufDesc.isBox = false
  dmaCmd : r.dmaCmd.stage = n + 2 ∧ r.dmaCmd.box = none ∧ r.dmaCmd.path = none ∧ r.dmaCmd.isBox = false

theorem txRing_at : RingAt txRing 7 := ⟨⟨rfl, rfl, rfl⟩, ⟨rfl, rfl, rfl, rfl⟩, ⟨rfl, rfl, rfl, rfl⟩⟩
theorem rxRing_at : RingAt rxRing 12 := ⟨⟨rfl, rfl, rfl⟩, ⟨rfl, rfl, rfl, rfl⟩, ⟨rfl, rfl, rfl, rfl⟩⟩
theorem statRing_at : RingAt statRing 19 := ⟨⟨rfl, rfl, rfl⟩, ⟨rfl, rfl, rfl, rfl⟩, ⟨rfl, rfl, rfl, rfl⟩⟩

section Setup

variable {E : Resource → Prop} {n : ℕ} {s : DriverObject}

/-- The states in which the three resources of the ring have been asked for. -/
theorem Sound.takeRing {r : RingResources} (hr : RingAt r n) (h : Sound E n s) (k : RingCalls) :
    Sound E (n + 1) (s.take r.first k.first) ∧
      Sound E (n + 2) ((s.take r.first k.first).take r.bufDesc k.bufDesc) ∧
      Sound E (n + 3) (((s.take r.first k.first).take r.bufDesc k.bufDesc).take r.dmaCmd k.dmaCmd) := by
  obtain ⟨⟨hs₁, hb₁, hp₁⟩, ⟨hs₂, hb₂, hp₂, -⟩, ⟨hs₃, hb₃, hp₃, -⟩⟩ := hr
  have h₁ := h.take_plain hs₁.ge k.first hb₁ hp₁
  rw [hs₁] at h₁
  have h₂ := h₁.take_plain hs₂.ge k.bufDesc hb₂ hp₂
  rw [hs₂] at h₂
  have h₃ := h₂.take_plain hs₃.ge k.dmaCmd hb₃ hp₃
  rw [hs₃] at h₃
  exact ⟨h₁, h₂, h₃⟩

/-- `p` is left by `freeFirst`, which finds the rest in order. -/
def FreedLast (E : Resource → Prop) (n : ℕ) (freeFirst : DriverObject → DriverObject)
    (p : DriverObject) : Prop := ∃ s', Sound E n s' ∧ p = freeFirst s'

/-- If the ring cannot be set up, its first resource is freed last. -/
theorem setupRing_failed {r : RingResources} (hr : RingAt r n) (h : Sound E n s)
    (freeFirst : DriverObject → DriverObject) {k : RingCalls} (hfirst : k.first = true)
    (hok : k.ok = false) : FreedLast E (n + 3) freeFirst (setupRing r freeFirst k s).2 := by
  obtain ⟨-, h₂, h₃⟩ := h.takeRing hr k
  have hd₂ := hr.bufDesc.2.2.2
  have hd₃ := hr.dmaCmd.2.2.2
  have h₂' := h₂.mono (Nat.le_succ (n + 2))
  rw [setupRing, orGoto_ok hfirst]
  refine orGoto_snd (Q := FreedLast E (n + 3) freeFirst) (fun _ => ⟨_, h₂', rfl⟩) fun hbuf => ?_
  refine orGoto_snd (Q := FreedLast E (n + 3) freeFirst) (fun _ => ⟨_, h₂'.drop hd₂, rfl⟩) fun hprep => ?_
  refine orGoto_snd (Q := FreedLast E (n + 3) freeFirst) (fun _ => ⟨_, h₃.drop hd₂, rfl⟩) fun hcmd => ?_
  refine orGoto_snd (Q := FreedLast E (n + 3) freeFirst) (fun _ => ⟨_, (h₃.drop hd₃).drop hd₂, rfl⟩)
    fun hset => ?_
  refine orGoto_snd (Q := FreedLast E (n + 3) freeFirst) (fun _ => ⟨_, (h₃.drop hd₃).drop hd₂, rfl⟩)
    fun hsegm => ?_
  -- every call succeeded
  rw [RingCalls.ok, hfirst, show k.bufDesc = true from hbuf, show k.prepare = true from hprep,
    show k.dmaCmd = true from hcmd, show k.setDesc = true from hset,
    show k.segments = true from hsegm] at hok
  cases hok

theorem setupRing_ok {r : RingResources} {freeFirst : DriverObject → DriverObject} {k : RingCalls}
    (hok : k.ok = true) : (setupRing r freeFirst k s).2 =
      ((s.take r.first k.first).take r.bufDesc k.bufDesc).take r.dmaCmd k.dmaCmd := by
  simp only [RingCalls.ok, Bool.and_eq_true] at hok
  obtain ⟨⟨⟨⟨⟨hfirst, hbuf⟩, hprep⟩, hcmd⟩, hset⟩, hsegm⟩ := hok
  rw [setupRing, orGoto_ok hfirst, orGoto_ok hbuf, orGoto_ok hprep, orGoto_ok hcmd, orGoto_ok hset,
    orGoto_ok hsegm]
  rfl

theorem setupRing_sound {r : RingResources} (hr : RingAt r n) (h : Sound E n s)
    {freeFirst : DriverObject → DriverObject} {k : RingCalls}
    (hfree : k.first = true → k.ok = false → ∀ s', Sound E (n + 3) s' → Sound E (n + 3) (freeFirst s')) :
    Sound E (n + 3) (setupRing r freeFirst k s).2 := by
  obtain ⟨h₁, -, h₃⟩ := h.takeRing hr k
  cases hok : k.ok with
  | true =>
      rw [setupRing_ok hok]
      exact h₃
  | false =>
      cases hfirst : k.first with
      | true =>
          obtain ⟨s', hs', heq⟩ := setupRing_failed hr h freeFirst hfirst hok
          rw [heq]
          exact hfree hfirst hok s' hs'
      | false =>
          rw [setupRing, orGoto_failed hfirst]
          exact h₁.mono (by omega)

/-- If the ring is set up, its first resource is there. -/
theorem setupRing_first {r : RingResources} (hr : RingAt r n) {freeFirst : DriverObject → DriverObject}
    {k : RingCalls} (hok : k.ok = true) : ((setupRing r freeFirst k s).2.handle r.first).ptr = true := by
  have hfirst : k.first = true := by
    simp only [RingCalls.ok, Bool.and_eq_true] at hok
    exact hok.1.1.1.1.1
  have hne₂ : r.first ≠ r.bufDesc := by
    intro he
    have := hr.first.1.symm.trans (congrArg Resource.stage he |>.trans hr.bufDesc.1)
    omega
  have hne₃ : r.first ≠ r.dmaCmd := by
    intro he
    have := hr.first.1.symm.trans (congrArg Resource.stage he |>.trans hr.dmaCmd.1)
    omega
  rw [setupRing_ok hok, DriverObject.take_handle, take_of_ne hne₃, DriverObject.take_handle,
    take_of_ne hne₂, DriverObject.take_handle, take_ptr, hfirst]

theorem Sound.freeTxMap (h : Sound E n s) : Sound E n (freeTxMap s) := by
  refine h.undoes (freeTxMap_undoes h) fun x b hb hP => .inl ?_
  cases x <;> cases hb <;> simp [mem_txDmaCmds] at hP ⊢

theorem Sound.freeRxMap (h : Sound E n s) : Sound E n (freeRxMap s) := by
  refine h.undoes (freeRxMap_undoes h) fun x b hb hP => .inl ?_
  cases x <;> cases hb <;> simp [mem_rxMapResources] at hP ⊢

/-- An array `b` of the mapped path is allocated and filled. -/
theorem setupMap_sound {b : Resource} {ok : Bool} {calls : List (Option Resource × Bool)}
    {freeMap : DriverObject → DriverObject} (h : Sound E b.stage s) (hb : b.box = none)
    (hv : b.path = some s.useAppleVTD) (hstage : ∀ r ∈ targets calls, r.stage = b.stage + 1)
    (hnodup : (targets calls).Nodup) (hbox : ∀ r ∈ targets calls, r.box = some b)
    (hfree : ∀ s', Sound E (b.stage + 2) s' → Sound E (b.stage + 2) (freeMap s')) :
    Sound E (b.stage + 2) (orGoto (s.call b ok) (failing id) fun s =>
      orGoto (s.takeAll calls) (failing freeMap) fun s => (true, s)).2 := by
  have htake : Sound E (b.stage + 1) (s.take b ok) := by
    refine h.take (Nat.le_refl _) ok (fun b' hb' => ?_) fun v hv' => ?_
    · rw [hb] at hb'
      cases hb'
    · rw [hv, Option.some.injEq] at hv'
      exact hv'
  refine orGoto_snd (Q := Sound E (b.stage + 2)) (fun _ => htake.mono (Nat.le_succ _)) fun hok => ?_
  have hptr : ((s.take b ok).handle b).ptr = true := by
    rw [DriverObject.take_handle, take_ptr]
    exact hok
  have hall := htake.takeAll (Nat.le_refl _) hstage hnodup hbox hptr
  exact orGoto_snd (Q := Sound E (b.stage + 2)) (fun _ => hfree _ hall) fun _ => hall

theorem setupTxMap_sound (c : StartCalls) (h : Sound E 10 s) (hv : s.useAppleVTD = true) :
    Sound E 12 (setupTxMap c s).2 := by
  refine setupMap_sound (b := .txMapMem) h rfl (hv ▸ rfl) (fun r hr => ?_) ?_ (fun r hr => ?_)
    fun _ h => h.freeTxMap
  · rw [targets_txMapCalls] at hr
    exact stage_txDmaCmds hr
  · rw [targets_txMapCalls]
    exact (List.nodup_finRange _).map fun i j hij => by simpa using hij
  · rw [targets_txMapCalls] at hr
    exact box_txDmaCmds hr

theorem setupTxResources_sound (c : StartCalls) (h : Sound E 7 s) :
    Sound E 12 (setupTxResources c s).2 := by
  have hring : Sound E 10 (setupRing txRing freeTxArray c.tx s).2 :=
    setupRing_sound txRing_at h fun _ _ _ hs => hs.drop rfl
  refine orGoto_snd (Q := Sound E 12) (fun _ => hring.mono (by decide)) fun _ => ?_
  suffices h : Sound E 12 (if (setupRing txRing freeTxArray c.tx s).2.useAppleVTD then
      setupTxMap c (setupRing txRing freeTxArray c.tx s).2
      else (setupRing txRing freeTxArray c.tx s).2.call .txMbufCursor c.txMbufCursor).2 from
    orGoto_snd (Q := Sound E 12) (fun _ => ((h.drop rfl).drop rfl).drop rfl) fun _ => h
  split
  case isTrue hv => exact setupTxMap_sound c hring hv
  case isFalse hv =>
    refine (hring.take (r := .txMbufCursor) (Nat.le_refl 10) c.txMbufCursor (fun b hb => ?_)
      fun b hb => ?_).mono (by decide)
    · cases hb
    · cases hb
      exact Bool.eq_false_iff.mpr hv

theorem setupRxMap_sound (c : StartCalls) (h : Sound E 17 s) (hv : s.useAppleVTD = true) :
    Sound E 19 (setupRxMap c s).2 := by
  refine setupMap_sound (b := .rxMapMem) h rfl (hv ▸ rfl) (fun r hr => stage_targets_rxMapCalls c hr) ?_
    (fun r hr => ?_) fun _ h => h.freeRxMap
  · rw [targets_rxMapCalls, List.nodup_flatMap]
    refine ⟨fun i _ => by simp, (List.nodup_finRange _).imp fun {i j} hij => ?_⟩
    simpa [Function.onFun] using hij.symm
  · obtain ⟨i, rfl | rfl⟩ := (mem_targets_rxMapCalls c).mp hr <;> rfl

/-- The array of receive buffers is freed before there is one in it. -/
theorem Sound.freeRxArray (h : Sound E n s) (hn : n ≤ 16) : Sound E n (freeRxArray s) := by
  refine h.undoes (.drop .rxBufArrayMem s) fun x b hb hP => .inr ?_
  rw [h.shaped.fresh x ?_]
  · rfl
  · subst hP
    cases x <;> cases hb
    exact hn

theorem Sound.errorBuf (h : Sound E n s) : Sound E n (errorBuf s) := by
  have hu := ((((Undoes.dropAll rxMbufs s).trans (.drop .rxPool _)).trans (.drop .rxDescDmaCmd _)).trans
    (.drop .rxBufDesc _)).trans (.drop .rxBufArrayMem _)
  refine h.undoes hu fun x b hb hP => .inl ?_
  cases x <;> cases hb <;> simp [mem_rxMbufs] at hP ⊢

theorem setupRxResources_sound (c : StartCalls) (h : Sound E 12 s) :
    Sound E 19 (setupRxResources c s).2 := by
  have hring : Sound E 15 (setupRing rxRing freeRxArray c.rx s).2 :=
    setupRing_sound rxRing_at h fun _ _ _ hs => hs.freeRxArray (by decide)
  refine orGoto_snd (Q := Sound E 19) (fun _ => hring.mono (by decide)) fun hok => ?_
  rw [setupRing_fst] at hok
  have harray : ((setupRing rxRing freeRxArray c.rx s).2.handle .rxBufArrayMem).ptr = true :=
    setupRing_first rxRing_at hok
  have hpool := hring.take_plain (r := .rxPool) (Nat.le_refl 15) c.rxPool rfl rfl
  refine orGoto_snd (Q := Sound E 19) (fun _ => ?_) fun _ => ?_
  · exact (((hpool.drop (r := .rxDescDmaCmd) rfl).drop (r := .rxBufDesc) rfl).freeRxArray
      (Nat.le_refl 16)).mono (by decide)
  have hmbufs : Sound E 17
      (((setupRing rxRing freeRxArray c.rx s).2.take .rxPool c.rxPool).takeAll (rxMbufCalls c)).2 := by
    refine hpool.takeAll (b := .rxBufArrayMem) (Nat.le_refl 16) (fun r hr => ?_) ?_ (fun r hr => ?_) ?_
    · rw [targets_rxMbufCalls] at hr
      exact stage_rxMbufs hr
    · rw [targets_rxMbufCalls]
      exact (List.nodup_finRange _).map fun i j hij => by simpa using hij
    · rw [targets_rxMbufCalls] at hr
      exact box_rxMbufs hr
    · rw [DriverObject.take_handle, take_of_ne (by decide)]
      exact harray
  refine orGoto_snd (Q := Sound E 19) (fun _ => hmbufs.errorBuf.mono (by decide)) fun _ => ?_
  split
  case isTrue hv => exact setupRxMap_sound c hmbufs hv
  case isFalse => exact hmbufs.mono (by decide)

/-- The thread call is even unless it is freed on the way out. -/
theorem setupStatResources_sound (c : StartCalls) (h : Sound E 19 s)
    (hstat : c.stat.first = true → c.stat.ok = false → ¬E .statCall) :
    Sound E 22 (setupStatResources c s).2 :=
  setupRing_sound statRing_at h fun hfirst hok _ hs => hs.dropKept (by decide) (hstat hfirst hok)

/-- If it is, it has been released once more than the pointer says. -/
theorem setupStatResources_over (c : StartCalls) (h : Sound E 19 s) (hE : E .statCall)
    (hfirst : c.stat.first = true) (hok : c.stat.ok = false) :
    ((setupStatResources c s).2.handle .statCall).Over := by
  obtain ⟨s', hs', heq⟩ := setupRing_failed statRing_at h (DriverObject.dropKept .statCall) hfirst hok
  rw [setupStatResources, heq]
  exact over_dropKept (hs'.even _ hE)

theorem initEventSources_sound (c : StartCalls) (h : Sound E 22 s)
    (hwork : (s.handle .workLoop).ptr = true) : Sound E 25 (initEventSources c s).2 := by
  have h₁ := h.take_plain (r := .txQueue) (Nat.le_refl 22) c.txQueue rfl rfl
  have h₂ : Sound E 24 ((s.take .txQueue c.txQueue).take .interruptSource c.interrupt) := by
    refine h₁.take (r := .interruptSource) (Nat.le_refl 23) c.interrupt (fun b hb => ?_) fun b hb => ?_
    · cases hb
      rw [DriverObject.take_handle, take_of_ne (by decide), hwork]
    · cases hb
  have h₃ : Sound E 25 (((s.take .txQueue c.txQueue).take .interruptSource c.interrupt).take .timerSource
      c.timer) := by
    refine h₂.take (r := .timerSource) (Nat.le_refl 24) c.timer (fun b hb => ?_) fun b hb => ?_
    · cases hb
      rw [DriverObject.take_handle, take_of_ne (by decide), DriverObject.take_handle,
        take_of_ne (by decide), hwork]
    · cases hb
  refine orGoto_snd (Q := Sound E 25) (fun _ => h₁.mono (by decide)) fun _ => ?_
  refine orGoto_snd (Q := Sound E 25) (fun _ => (h₂.drop rfl).mono (by decide)) fun _ => ?_
  exact orGoto_snd (Q := Sound E 25) (fun _ => (h₃.drop rfl).drop rfl) fun _ => h₃

end Setup

end Rtl812x.Kext.Start
