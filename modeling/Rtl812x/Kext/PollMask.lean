import Rtl812x.Hw.Regs
import Rtl812x.Lib.Interleave

/-!
# Polling, the interrupt mask and IMR0

While `__POLL_MODE` is clear the kext must hear of received packets by interrupt: `intrMask` and IMR0
must contain `RxOK`.  Flag, mask and register are written one after the other, by
`setInputPacketPollingEnable` on the poll thread and by `interruptOccurred` with its link handling on
the work loop.

The functions are lists of the statements that read or write these words; the others (ring handling,
timers, link parameters) change none of them.  What a call reads of the chip comes with the call, and
so does whether `__POLLING` is taken.

* `Orderly` — what lies behind a statement: a flag is cleared before a mask with `RxOK` is stored, and
  a stored mask or a cleared register is written later on;
* `Awake` — **the invariant**: a mask with `RxOK` is there or will be stored, and it is in IMR0 or will
  be written, unless polling is on;
* `MaskKept` — a mask without `RxOK` is stored only while polling is on or the other thread is still to
  store one with it;
* `never_deaf` — **a run of such steps never leaves the kext deaf**; `linkDown_deafens` — a link-down
  between setting the flag and storing the mask does.
-/

namespace Rtl812x.Kext.PollMask

open Interleave Runs

def sysErr : UInt32 := 0x8000
def intrMaskRxTx : UInt32 := sysErr ||| linkChg ||| rxDescUnavail ||| txOK ||| rxOK
def intrMaskTimer : UInt32 := sysErr ||| linkChg ||| rxDescUnavail ||| pcsTimeout ||| rxOK
def intrMaskPoll : UInt32 := sysErr ||| linkChg

/-- The words in question; `imr0` is what was last written to IMR0. -/
structure Words where
  enabled : Bool
  pollMode : Bool
  intrMask : UInt32
  imr0 : UInt32
deriving DecidableEq, Repr

inductive Stmt where
  /-- `if (test_bit(__ENABLED, &stateFlags))` of `setInputPacketPollingEnable` -/
  | testEnabled (on : Bool)
  | setPollMode (on : Bool)
  | storeMask (mask : UInt32)
  /-- `RTL_W32(tp, IMR0_8125, intrMask)` -/
  | writeImr0
  /-- `RTL_W32(tp, IMR0_8125, 0)` -/
  | clearImr0
  /-- the handler's test of `__POLL_MODE` and `__POLLING`, and the mask it then leaves -/
  | testPollMode (polling : Bool) (mask : Option UInt32)
deriving DecidableEq, Repr

/-- The mask that `setInputPacketPollingEnable` stores. -/
def pollingMask (on : Bool) : UInt32 := if on then intrMaskPoll else intrMaskRxTx

def eval : Stmt → Words → Words × List Stmt
  | .testEnabled on, s =>
      (s, if s.enabled then [.setPollMode on, .storeMask (pollingMask on), .writeImr0] else [])
  | .setPollMode on, s => ({ s with pollMode := on }, [])
  | .storeMask mask, s => ({ s with intrMask := mask }, [])
  | .writeImr0, s => ({ s with imr0 := s.intrMask }, [])
  | .clearImr0, s => ({ s with imr0 := 0 }, [])
  | .testPollMode polling mask, s =>
      (s, if s.pollMode || polling then [] else (mask.map Stmt.storeMask).toList)

/-! ### The functions -/

def setInputPacketPollingEnable (on : Bool) : List Stmt := [.testEnabled on]

/-- `rtl812xLinkDownPatch`, which resets the chip. -/
def rtl812xLinkDownPatch : List Stmt := [.clearImr0]

def setLinkDown : List Stmt :=
  Stmt.setPollMode false :: rtl812xLinkDownPatch ++ [Stmt.storeMask intrMaskRxTx, Stmt.writeImr0]

/-- A link that is up is configured by `rtl812xHwConfig`. -/
def rtl812xCheckLinkStatus (phy : UInt32) : List Stmt :=
  if phyLinkUp phy then [.writeImr0] else rtl812xLinkDownPatch ++ setLinkDown

/-- The mask that the datapath part of the handler leaves. -/
def handlerMask (status : UInt32) : Option UInt32 :=
  if status &&& (txOK ||| rxOK) ≠ 0 then some intrMaskTimer
  else if status &&& pcsTimeout ≠ 0 then some intrMaskRxTx
  else none

/-- `interruptOccurred` and `interruptOccurredVTD`. -/
def interruptOccurred (status : UInt32) (polling : Bool) (phy : UInt32) : List Stmt :=
  if status = 0xffffffff ∨ status = 0 then [.writeImr0]
  else
    [Stmt.clearImr0, Stmt.testPollMode polling (handlerMask status)] ++
      (if status &&& linkChg ≠ 0 then rtl812xCheckLinkStatus phy ++ [Stmt.storeMask intrMaskRxTx] else []) ++
      [Stmt.writeImr0]

inductive KextThread where
  | poll | workLoop
deriving DecidableEq, Repr

def KextThread.other : KextThread → KextThread
  | .poll => .workLoop
  | .workLoop => .poll

/-- A statement of one of the threads, or a call that finds its thread idle. -/
inductive PollOp where
  | run (t : KextThread)
  | setInputPacketPollingEnable (on : Bool)
  | interruptOccurred (status : UInt32) (polling : Bool) (phy : UInt32)

def PollOp.move : PollOp → Move Stmt KextThread
  | .run t => .run t
  | .setInputPacketPollingEnable on => .call .poll (PollMask.setInputPacketPollingEnable on)
  | .interruptOccurred status polling phy =>
      .call .workLoop (PollMask.interruptOccurred status polling phy)

abbrev PollSys := Sys Words Stmt KextThread

def pollStep (s : PollSys) (op : PollOp) : PollSys := s.step eval op.move

/-- After `rtl812xEnable`: interrupts are on, and both threads are idle. -/
def PollSys.init (enabled : Bool) : PollSys := ⟨⟨enabled, false, intrMaskRxTx, intrMaskRxTx⟩, fun _ => []⟩

/-! ### What lies ahead -/

/-- The statement stores a mask with `RxOK`, or will unless it finds polling on. -/
def Stmt.Stores : Stmt → Prop
  | .storeMask mask => mask &&& rxOK ≠ 0
  | .testPollMode false (some mask) => mask &&& rxOK ≠ 0
  | _ => False

instance : DecidablePred Stmt.Stores
  | .storeMask mask => inferInstanceAs (Decidable (mask &&& rxOK ≠ 0))
  | .testPollMode false (some mask) => inferInstanceAs (Decidable (mask &&& rxOK ≠ 0))
  | .testPollMode false none | .testPollMode true _ | .testEnabled _ | .setPollMode _ | .writeImr0
  | .clearImr0 => isFalse not_false

/-- A mask with `RxOK` is still to be stored. -/
def WillStore (l : List Stmt) : Prop := ∃ b ∈ l, b.Stores

instance (l : List Stmt) : Decidable (WillStore l) := inferInstanceAs (Decidable (∃ b ∈ l, _))

/-- What the statements after this one must do. -/
def Stmt.Asks (k : List Stmt) : Stmt → Prop
  | .setPollMode false => WillStore k
  | .storeMask _ | .clearImr0 | .testPollMode _ _ => .writeImr0 ∈ k
  | .testEnabled _ | .setPollMode true | .writeImr0 => True

instance (k : List Stmt) : DecidablePred (Stmt.Asks k)
  | .setPollMode false => inferInstanceAs (Decidable (WillStore k))
  | .storeMask _ | .clearImr0 | .testPollMode _ _ => inferInstanceAs (Decidable (_ ∈ k))
  | .testEnabled _ | .setPollMode true | .writeImr0 => isTrue trivial

/-- Every statement has behind it what it asks for. -/
def Orderly : List Stmt → Prop
  | [] => True
  | b :: k => b.Asks k ∧ Orderly k

instance : DecidablePred Orderly
  | [] => isTrue trivial
  | b :: k =>
      have := instDecidablePredListStmtOrderly k
      inferInstanceAs (Decidable (b.Asks k ∧ Orderly k))

theorem willStore_cons_iff {b : Stmt} {l : List Stmt} : WillStore (b :: l) ↔ b.Stores ∨ WillStore l := by
  simp [WillStore]

/-- Whatever is stored is written later on. -/
theorem Orderly.writes {l : List Stmt} (h : Orderly l) (hw : WillStore l) : .writeImr0 ∈ l := by
  induction l with
  | nil =>
      obtain ⟨b, hmem, -⟩ := hw
      cases hmem
  | cons b k ih =>
      refine List.mem_cons_of_mem _ ?_
      rcases willStore_cons_iff.mp hw with hb | hk
      · cases b with
        | storeMask mask => exact h.1
        | testPollMode polling mask => exact h.1
        | testEnabled _ | setPollMode _ | writeImr0 | clearImr0 => exact absurd hb not_false
      · exact ih h.2 hk

theorem setInputPacketPollingEnable_orderly (on : Bool) : Orderly (setInputPacketPollingEnable on) :=
  ⟨trivial, trivial⟩

theorem interruptOccurred_orderly (status : UInt32) (polling : Bool) (phy : UInt32) :
    Orderly (interruptOccurred status polling phy) := by
  unfold interruptOccurred rtl812xCheckLinkStatus
  split
  · exact ⟨trivial, trivial⟩
  · split
    · split
      · simp [Orderly, Stmt.Asks]
      · simp [Orderly, Stmt.Asks, rtl812xLinkDownPatch, setLinkDown, WillStore, Stmt.Stores,
          show intrMaskRxTx &&& rxOK ≠ 0 by decide]
    · simp [Orderly, Stmt.Asks]

/-- What a statement puts in front of the rest. -/
theorem Orderly.eval {b : Stmt} {k : List Stmt} (h : Orderly (b :: k)) (w : Words) :
    Orderly ((eval b w).2 ++ k) := by
  cases b with
  | testEnabled on =>
      simp only [PollMask.eval]
      split
      · cases on with
        | true => exact ⟨trivial, by simp [Stmt.Asks], trivial, h.2⟩
        | false =>
            refine ⟨⟨_, List.mem_cons_self .., ?_⟩, by simp [Stmt.Asks], trivial, h.2⟩
            show intrMaskRxTx &&& rxOK ≠ 0
            decide
      · exact h.2
  | testPollMode polling mask =>
      simp only [PollMask.eval]
      split
      · exact h.2
      · cases mask with
        | none => exact h.2
        | some mask => exact ⟨h.1, h.2⟩
  | setPollMode _ | storeMask _ | writeImr0 | clearImr0 => exact h.2

/-! ### The invariant -/

/-- Between any two statements: unless polling is on, a mask with `RxOK` is there or will be stored,
and a mask is in IMR0 or will be written. -/
structure Awake (s : PollSys) : Prop where
  orderly : ∀ t, Orderly (s.code t)
  mask : s.shared.intrMask &&& rxOK ≠ 0 ∨ s.shared.pollMode = true ∨ ∃ t, WillStore (s.code t)
  imr0 : s.shared.imr0 &&& rxOK ≠ 0 ∨ s.shared.pollMode = true ∨ ∃ t, .writeImr0 ∈ s.code t

/-- Thread `t` is about to run the first of these statements: if it is to store a mask without `RxOK`,
polling is on, or a mask with it is still to be stored. -/
def StoreKept (s : PollSys) (t : KextThread) : List Stmt → Prop
  | .storeMask mask :: k =>
      mask &&& rxOK ≠ 0 ∨ s.shared.pollMode = true ∨ WillStore k ∨ WillStore (s.code t.other)
  | _ => True

instance (s : PollSys) (t : KextThread) : ∀ l, Decidable (StoreKept s t l)
  | .storeMask _ :: _ => inferInstanceAs (Decidable (_ ∨ _ ∨ _ ∨ _))
  | [] | .testEnabled _ :: _ | .setPollMode _ :: _ | .writeImr0 :: _ | .clearImr0 :: _
  | .testPollMode _ _ :: _ => isTrue trivial

def MaskKept (s : PollSys) : PollOp → Prop
  | .run t => StoreKept s t (s.code t)
  | _ => True

instance (s : PollSys) : ∀ op, Decidable (MaskKept s op)
  | .run t => inferInstanceAs (Decidable (StoreKept s t _))
  | .setInputPacketPollingEnable _ | .interruptOccurred _ _ _ => isTrue trivial

variable {s : PollSys} {t : KextThread} {b : Stmt} {k : List Stmt}

theorem Awake.orderly_after (h : Awake s) (hcode : s.code t = b :: k) (u : KextThread) :
    Orderly ((s.after eval t b k).code u) := by
  by_cases hut : u = t
  · subst hut
    rw [Sys.after_code_self]
    exact (hcode ▸ h.orderly u : Orderly (b :: k)).eval s.shared
  · rw [Sys.after_code_of_ne hut]
    exact h.orderly u

/-- The mask, after a statement. -/
theorem Awake.mask_after (h : Awake s) (hcode : s.code t = b :: k) (hok : MaskKept s (.run t)) :
    (s.after eval t b k).shared.intrMask &&& rxOK ≠ 0 ∨ (s.after eval t b k).shared.pollMode = true ∨
      ∃ u, WillStore ((s.after eval t b k).code u) := by
  have horderly : Orderly (b :: k) := hcode ▸ h.orderly t
  -- a statement that neither stores nor clears the flag leaves the three cases as they are
  have hkeep : (¬ b.Stores) → (∃ u, WillStore (s.code u)) → ∃ u, WillStore ((s.after eval t b k).code u) := by
    intro hb hex
    refine Sys.exists_after hex hcode fun hw => ?_
    obtain ⟨b', hmem, hb'⟩ := (willStore_cons_iff.mp hw).resolve_left hb
    exact ⟨b', List.mem_append_right _ hmem, hb'⟩
  cases b with
  | testEnabled on => exact h.mask.imp_right fun hr => hr.imp_right (hkeep not_false)
  | writeImr0 => exact h.mask.imp_right fun hr => hr.imp_right (hkeep not_false)
  | clearImr0 => exact h.mask.imp_right fun hr => hr.imp_right (hkeep not_false)
  | setPollMode on =>
      cases on with
      | true => exact Or.inr (Or.inl rfl)
      | false => exact Or.inr (Or.inr ⟨t, by rw [Sys.after_code_self]; exact horderly.1⟩)
  | storeMask mask =>
      rw [MaskKept, hcode] at hok
      have hother : t.other ≠ t := by cases t <;> decide
      rcases hok with hm | hp | hk | hu
      · exact Or.inl hm
      · exact Or.inr (Or.inl hp)
      · exact Or.inr (Or.inr ⟨t, by rw [Sys.after_code_self]; exact hk⟩)
      · exact Or.inr (Or.inr ⟨t.other, by rwa [Sys.after_code_of_ne hother]⟩)
  | testPollMode polling mask =>
      by_cases hp : s.shared.pollMode = true
      · exact Or.inr (Or.inl hp)
      · refine h.mask.imp_right fun hr => Or.inr ?_
        refine Sys.exists_after (hr.resolve_left hp) hcode fun hw => ?_
        rcases willStore_cons_iff.mp hw with hb | ⟨b', hmem, hb'⟩
        · -- the test finds polling off, so the mask is stored next
          match polling, mask, hb with
          | false, some mask, hb =>
              have hpush : (eval (.testPollMode false (some mask)) s.shared).2 = [.storeMask mask] := by
                simp [PollMask.eval, hp]
              rw [hpush]
              exact ⟨.storeMask mask, List.mem_cons_self .., hb⟩
        · exact ⟨b', List.mem_append_right _ hmem, hb'⟩

/-- The register, after a statement. -/
theorem Awake.imr0_after (h : Awake s) (hcode : s.code t = b :: k) :
    (s.after eval t b k).shared.imr0 &&& rxOK ≠ 0 ∨ (s.after eval t b k).shared.pollMode = true ∨
      ∃ u, .writeImr0 ∈ (s.after eval t b k).code u := by
  have horderly : Orderly (b :: k) := hcode ▸ h.orderly t
  have hlater : .writeImr0 ∈ k → ∃ u, .writeImr0 ∈ (s.after eval t b k).code u := fun hmem =>
    ⟨t, by rw [Sys.after_code_self]; exact List.mem_append_right _ hmem⟩
  have hkeep : b ≠ .writeImr0 → (∃ u, .writeImr0 ∈ s.code u) →
      ∃ u, .writeImr0 ∈ (s.after eval t b k).code u := by
    intro hb hex
    refine Sys.exists_after hex hcode fun hmem => List.mem_append_right _ ?_
    exact (List.mem_cons.mp hmem).resolve_left fun heq => hb heq.symm
  cases b with
  | testEnabled on =>
      exact h.imr0.imp_right fun hr => hr.imp_right (hkeep (by simp))
  | testPollMode polling mask =>
      exact h.imr0.imp_right fun hr => hr.imp_right (hkeep (by simp))
  | storeMask mask => exact Or.inr (Or.inr (hlater horderly.1))
  | clearImr0 => exact Or.inr (Or.inr (hlater horderly.1))
  | setPollMode on =>
      cases on with
      | true => exact Or.inr (Or.inl rfl)
      | false => exact Or.inr (Or.inr (hlater (horderly.2.writes horderly.1)))
  | writeImr0 =>
      rcases h.mask with hm | hp | ⟨u, hu⟩
      · exact Or.inl hm
      · exact Or.inr (Or.inl hp)
      · refine Or.inr (Or.inr ?_)
        by_cases hut : u = t
        · subst hut
          rw [hcode] at hu
          exact hlater (horderly.2.writes ((willStore_cons_iff.mp hu).resolve_left not_false))
        · exact ⟨u, by rw [Sys.after_code_of_ne hut]; exact (h.orderly u).writes hu⟩

/-- An idle thread is called. -/
theorem Awake.call (h : Awake s) {p : List Stmt} (hidle : s.code t = []) (hp : Orderly p) :
    Awake ⟨s.shared, Function.update s.code t p⟩ := by
  have hother : ∀ {Q : List Stmt → Prop}, ¬ Q [] → (∃ u, Q (s.code u)) →
      ∃ u, Q (Function.update s.code t p u) := by
    rintro Q hnil ⟨u, hu⟩
    have hut : u ≠ t := by
      rintro rfl
      exact hnil (hidle ▸ hu)
    exact ⟨u, by rwa [Function.update_of_ne hut]⟩
  refine ⟨fun u => ?_, ?_, ?_⟩
  · by_cases hut : u = t
    · subst hut
      show Orderly (Function.update s.code u p u)
      rwa [Function.update_self]
    · show Orderly (Function.update s.code t p u)
      rw [Function.update_of_ne hut]
      exact h.orderly u
  · exact h.mask.imp_right fun hr => hr.imp_right (hother (by simp [WillStore]))
  · exact h.imr0.imp_right fun hr => hr.imp_right (hother List.not_mem_nil)

theorem Awake.step (h : Awake s) (op : PollOp) (hok : MaskKept s op) : Awake (pollStep s op) := by
  refine Sys.step_keeps h op.move ?_ ?_
  · intro t b k hmove hcode
    have hop : MaskKept s (.run t) := by
      cases op with
      | run u =>
          cases hmove
          exact hok
      | setInputPacketPollingEnable _ | interruptOccurred _ _ _ => cases hmove
    exact ⟨h.orderly_after hcode, h.mask_after hcode hop, h.imr0_after hcode⟩
  · intro t p hmove hidle
    refine h.call hidle ?_
    cases op with
    | run u => cases hmove
    | setInputPacketPollingEnable on =>
        cases hmove
        exact setInputPacketPollingEnable_orderly on
    | interruptOccurred status polling phy =>
        cases hmove
        exact interruptOccurred_orderly status polling phy

/-! ### Runs -/

theorem Awake.init (enabled : Bool) : Awake (PollSys.init enabled) where
  orderly := fun _ => trivial
  mask := Or.inl (show intrMaskRxTx &&& rxOK ≠ 0 by decide)
  imr0 := Or.inl (show intrMaskRxTx &&& rxOK ≠ 0 by decide)

/-- Neither function is in progress and the interface is enabled, but there is neither polling nor a
receive interrupt. -/
def Deaf (s : PollSys) : Prop :=
  s.code .poll = [] ∧ s.code .workLoop = [] ∧ s.shared.enabled = true ∧ s.shared.pollMode = false ∧
    ¬ (s.shared.intrMask &&& rxOK ≠ 0 ∧ s.shared.imr0 &&& rxOK ≠ 0)

instance (s : PollSys) : Decidable (Deaf s) := inferInstanceAs (Decidable (_ ∧ _ ∧ _ ∧ _ ∧ ¬ _))

theorem Awake.not_deaf (h : Awake s) : ¬ Deaf s := by
  rintro ⟨hpoll, hwork, -, hoff, hdeaf⟩
  have hidle : ∀ t, s.code t = [] := by
    intro t
    cases t with
    | poll => exact hpoll
    | workLoop => exact hwork
  refine hdeaf ⟨?_, ?_⟩
  · rcases h.mask with hm | hp | ⟨t, ht⟩
    · exact hm
    · rw [hoff] at hp
      cases hp
    · rw [hidle t] at ht
      obtain ⟨b, hmem, -⟩ := ht
      cases hmem
  · rcases h.imr0 with hm | hp | ⟨t, ht⟩
    · exact hm
    · rw [hoff] at hp
      cases hp
    · rw [hidle t] at ht
      cases ht

/-- **The kext never goes deaf** in a run in which `intrMaskPoll` is stored only while `__POLL_MODE` is
still set, or the handler is still to store a mask with `RxOK`. -/
theorem never_deaf (enabled : Bool) (ops : List PollOp)
    (hrun : Along pollStep MaskKept (PollSys.init enabled) ops) :
    ¬ Deaf (exec pollStep (PollSys.init enabled) ops) :=
  Awake.not_deaf (invariant_along (fun _ op h => h.step op) (Awake.init enabled) hrun)

/-- Polling is turned on while the handler sees a link-down, and the mask is stored in time. -/
def pollDuringLinkDown : List PollOp :=
  [PollOp.setInputPacketPollingEnable true, PollOp.run .poll, PollOp.run .poll,
      PollOp.interruptOccurred linkChg false 0] ++
    List.replicate 4 (PollOp.run .workLoop) ++ [PollOp.run .poll] ++
    List.replicate 5 (PollOp.run .workLoop) ++ [PollOp.run .poll]

theorem never_deaf_pollDuringLinkDown :
    (exec pollStep (PollSys.init true) pollDuringLinkDown).shared.pollMode = false ∧
    ¬ Deaf (exec pollStep (PollSys.init true) pollDuringLinkDown) :=
  ⟨by decide +kernel, never_deaf true pollDuringLinkDown (by decide +kernel)⟩

/-- The handler of a link-down comes and goes between the flag and the mask. -/
def linkDownBetween : List PollOp :=
  [PollOp.setInputPacketPollingEnable true, PollOp.run .poll, PollOp.run .poll,
      PollOp.interruptOccurred linkChg false 0] ++
    List.replicate 9 (PollOp.run .workLoop) ++ [PollOp.run .poll, PollOp.run .poll]

/-- The flag is clear again, and the mask of polling is left. -/
theorem linkDown_deafens : Deaf (exec pollStep (PollSys.init true) linkDownBetween) := by
  decide +kernel

end Rtl812x.Kext.PollMask
