import Rtl812x.Lib.Interleave
import Rtl812x.Dext.TxConservation

/-!
# Disabling the interface during a batch

`setInterfaceEnable(false)` drains the transmit ring without taking `txLock`, so a batch of
`txDequeueAction` that is past its link check may go on meanwhile.  Here the two run interleaved, one
packet of the batch and one retired descriptor of the drain at a time.

* `DrainStmt`, `drainEval` — the statements of the two calls;
* `batch_finishes`, `disable_finishes` — **left alone, each call does what `txDequeueAction` and
  `setInterfaceEnable` do**;
* `Control`, `Batch` — where the two calls are, with what holds there; `Control.step`, `Batch.step` —
  the rules for one statement of each, `Batch.tx_cases` — what a statement of the batch does;
* `Stable`, `Phases.run` — **the rule for a property that both calls keep**, whatever their order.
-/

namespace Rtl812x.Dext

open Circular Tagged WrapCounter Runs Interleave

inductive DrainThread where
  | framework | control
deriving DecidableEq, Repr

inductive DrainStmt where
  /-- the loop of `txDequeueAction`, with the packets left and the number accepted so far -/
  | packets (queue : ℕ) (pkts : List TxPacket) (accepted : ℕ)
  | doorbell (accepted : ℕ)
  | unlock
  | clearLinkUp
  | rtl812xDisable
  /-- `txRingReclaim(true)` reads the tail and takes it over as the close pointer -/
  | reclaim
  /-- its loop, with the descriptors left and the queues that got completions -/
  | retire (reclaimed numDone : ℕ) (didWork : ℕ → Bool)
  | publish (reclaimed : ℕ) (didWork : ℕ → Bool)
  /-- the queues are disabled and the receive ring is dropped -/
  | shutdown

def drainEval (c : Config) : DrainStmt → Driver → Driver × List DrainStmt
  | .packets _ [] accepted, d => (d, [.doorbell accepted, .unlock])
  | .packets queue (pkt :: pkts) accepted, d =>
      if d.tx.noSpace then (d, [.doorbell accepted, .unlock])
      else ({ d with tx := txAccept queue pkt d.tx }, [.packets queue pkts (accepted + 1)])
  | .doorbell accepted, d => (if accepted ≠ 0 then { d with tx := txDoorbell c.mcfg d.tx } else d, [])
  | .unlock, d => (d, [])
  | .clearLinkUp, d => ({ d with interfaceEnabled := false, linkUp := false }, [])
  | .rtl812xDisable, d => (Dext.rtl812xDisable d, [])
  | .reclaim, d =>
      let numDone := d.tx.hw.numDone c.mcfg true 0
      ({ d with tx := d.tx.closeTo d.tx.hw.txTailPtr0 }, [.retire numDone numDone fun _ => false])
  | .retire reclaimed 0 didWork, d => (d, [.publish reclaimed didWork])
  | .retire reclaimed (numDone + 1) didWork, d =>
      ({ d with tx := txRetire true d.tx }, [.retire reclaimed numDone (txNoteWork didWork d.tx)])
  | .publish reclaimed didWork, d => ({ d with tx := txPublish reclaimed didWork d.tx }, [])
  | .shutdown, d =>
      ({ d with rx := rxRingDrop d.rx, reports := (false, d.currentMedia) :: d.reports }, [])

/-- A batch past its link check. -/
def batchCode (queue : PacketQueue) (pkts : List TxPacket) : List DrainStmt :=
  [.packets (txQueueIndex queue) pkts 0]

def disableCode : List DrainStmt := [.clearLinkUp, .rtl812xDisable, .reclaim, .shutdown]

abbrev DrainSys := Sys Driver DrainStmt DrainThread

def DrainSys.start (d : Driver) (queue : PacketQueue) (pkts : List TxPacket) : DrainSys :=
  ⟨d, fun t => match t with
    | .framework => batchCode queue pkts
    | .control => disableCode⟩

def drainStep (c : Config) (s : DrainSys) (t : DrainThread) : DrainSys := s.step (drainEval c) (.run t)

def DrainSys.finished (s : DrainSys) : Prop := s.code .framework = [] ∧ s.code .control = []

/-! ### Each call alone -/

theorem packets_finishes (c : Config) (q : ℕ) (pkts : List TxPacket) (n : ℕ) (d : Driver) :
    Finishes (drainEval c) [.packets q pkts n] d
      { d with
        tx := if (txDequeueLoop q pkts n d.tx).1 ≠ 0 then txDoorbell c.mcfg (txDequeueLoop q pkts n d.tx).2
          else (txDequeueLoop q pkts n d.tx).2 } := by
  have hend : ∀ (n : ℕ) (d : Driver), Finishes (drainEval c) [.doorbell n, .unlock] d
      { d with tx := if n ≠ 0 then txDoorbell c.mcfg d.tx else d.tx } := by
    intro n d
    have heq : { d with tx := if n ≠ 0 then txDoorbell c.mcfg d.tx else d.tx }
        = (drainEval c (.doorbell n) d).1 := by
      simp only [drainEval]
      split <;> rfl
    rw [heq]
    exact .cons (.cons (.nil _))
  induction pkts generalizing n d with
  | nil => exact .cons (hend n d)
  | cons pkt pkts ih =>
      by_cases hfull : d.tx.noSpace
      · refine .cons ?_
        simp only [drainEval, txDequeueLoop, if_pos hfull]
        exact hend n d
      · refine .cons ?_
        simp only [drainEval, txDequeueLoop, if_neg hfull]
        exact ih (n + 1) _

/-- **The batch alone** is `txDequeueAction`. -/
theorem batch_finishes (c : Config) (queue : PacketQueue) (pkts : List TxPacket) (d : Driver) :
    Finishes (drainEval c) (batchCode queue pkts) d
      { d with tx := (txDequeueAction c.mcfg true queue pkts d.tx).2 } := by
  have h := packets_finishes c (txQueueIndex queue) pkts 0 d
  have heq : (txDequeueAction c.mcfg true queue pkts d.tx).2 =
      if (txDequeueLoop (txQueueIndex queue) pkts 0 d.tx).1 ≠ 0
      then txDoorbell c.mcfg (txDequeueLoop (txQueueIndex queue) pkts 0 d.tx).2
      else (txDequeueLoop (txQueueIndex queue) pkts 0 d.tx).2 := by
    simp only [txDequeueAction, Bool.not_true, Bool.false_eq_true, if_false]
    split <;> rfl
  rw [heq]
  exact h

theorem retire_finishes (c : Config) (r n : ℕ) (didWork : ℕ → Bool) (d : Driver) :
    Finishes (drainEval c) [.retire r n didWork] d
      { d with
        tx := txPublish r (txRetireLoop true n didWork d.tx).1 (txRetireLoop true n didWork d.tx).2 } := by
  induction n generalizing didWork d with
  | zero => exact .cons (.cons (.nil _))
  | succ n ih => exact .cons (ih _ _)

/-- **The disable alone** is `setInterfaceEnable(false)`. -/
theorem disable_finishes (c : Config) (phy phy' : UInt32) (d : Driver) :
    Finishes (drainEval c) disableCode d (setInterfaceEnable c false phy phy' d) := by
  refine .cons (.cons (.cons ?_))
  refine (retire_finishes c _ _ _ _).append (.cons ?_)
  simp only [setInterfaceEnable, Bool.false_eq_true, if_false, txRingReclaim_eq]
  exact .nil _

/-! ### Where the two calls are -/

/-- The drain has not read the tail yet. -/
def NotBegun : List DrainStmt → Bool
  | [] => false
  | .reclaim :: _ => true
  | _ :: k => NotBegun k

/-- The statements the disable has left: `Pre` holds until it reads the tail, then `P n r`, where `n`
descriptors are still to be retired and `r` to be published. -/
inductive Control (Pre : Prop) (P : ℕ → ℕ → Prop) : List DrainStmt → Prop
  | clearLinkUp (h : Pre) : Control Pre P [.clearLinkUp, .rtl812xDisable, .reclaim, .shutdown]
  | rtl812xDisable (h : Pre) : Control Pre P [.rtl812xDisable, .reclaim, .shutdown]
  | reclaim (h : Pre) : Control Pre P [.reclaim, .shutdown]
  | retire (r n : ℕ) (didWork : ℕ → Bool) (h : P n r) : Control Pre P [.retire r n didWork, .shutdown]
  | publish (r : ℕ) (didWork : ℕ → Bool) (h : P 0 r) : Control Pre P [.publish r didWork, .shutdown]
  | shutdown (h : P 0 0) : Control Pre P [.shutdown]
  | done (h : P 0 0) : Control Pre P []

/-- The statements the batch has left, with what holds of its packets. -/
inductive Batch (Q : ℕ → List TxPacket → Prop) : List DrainStmt → Prop
  | packets (q : ℕ) (pkts : List TxPacket) (n : ℕ) (h : Q q pkts) : Batch Q [.packets q pkts n]
  | doorbell (n : ℕ) : Batch Q [.doorbell n, .unlock]
  | unlock : Batch Q [.unlock]
  | done : Batch Q []

variable {Pre Pre' : Prop} {P P' : ℕ → ℕ → Prop} {Q Q' : ℕ → List TxPacket → Prop} {l : List DrainStmt}

/-- What holds in each phase may be replaced. -/
theorem Control.change (h : Control Pre P l) (hpre : NotBegun l = true → Pre → Pre')
    (hP : NotBegun l = false → ∀ n r, P n r → P' n r) : Control Pre' P' l := by
  cases h with
  | clearLinkUp h => exact .clearLinkUp (hpre rfl h)
  | rtl812xDisable h => exact .rtl812xDisable (hpre rfl h)
  | reclaim h => exact .reclaim (hpre rfl h)
  | retire r n didWork h => exact .retire r n didWork (hP rfl n r h)
  | publish r didWork h => exact .publish r didWork (hP rfl 0 r h)
  | shutdown h => exact .shutdown (hP rfl 0 0 h)
  | done h => exact .done (hP rfl 0 0 h)

theorem Control.elim {X : Prop} (h : Control Pre P l) (hpre : Pre → X) (hP : ∀ n r, P n r → X) : X := by
  cases h with
  | clearLinkUp h => exact hpre h
  | rtl812xDisable h => exact hpre h
  | reclaim h => exact hpre h
  | retire r n didWork h => exact hP n r h
  | publish r didWork h => exact hP 0 r h
  | shutdown h => exact hP 0 0 h
  | done h => exact hP 0 0 h

theorem Batch.mono (h : Batch Q l) (hQ : ∀ q pkts, Q q pkts → Q' q pkts) : Batch Q' l := by
  cases h with
  | packets q pkts n h => exact .packets q pkts n (hQ q pkts h)
  | doorbell n => exact .doorbell n
  | unlock => exact .unlock
  | done => exact .done

/-- One statement of the disable, for a property of the transmit side in each phase. -/
theorem Control.step {c : Config} {d : Driver} {b : DrainStmt} {k : List DrainStmt}
    (Pre : TxSide → Prop) (P : TxSide → ℕ → ℕ → Prop) (h : Control (Pre d.tx) (P d.tx) (b :: k))
    (hbegin : Pre d.tx → P (d.tx.closeTo d.tx.hw.txTailPtr0) (d.tx.hw.numDone c.mcfg true 0)
      (d.tx.hw.numDone c.mcfg true 0))
    (hretire : ∀ n r, P d.tx (n + 1) r → P (txRetire true d.tx) n r)
    (hpublish : ∀ r didWork, P d.tx 0 r → P (txPublish r didWork d.tx) 0 0) :
    Control (Pre (drainEval c b d).1.tx) (P (drainEval c b d).1.tx) ((drainEval c b d).2 ++ k) := by
  cases h with
  | clearLinkUp h => exact .rtl812xDisable h
  | rtl812xDisable h =>
      have htx : (Dext.rtl812xDisable d).tx = d.tx := by simp [Dext.rtl812xDisable, writeImr0]
      refine .reclaim ?_
      show Pre (Dext.rtl812xDisable d).tx
      rwa [htx]
  | reclaim h => exact .retire _ _ _ (hbegin h)
  | retire r n didWork h =>
      cases n with
      | zero => exact .publish r didWork h
      | succ n => exact .retire r n _ (hretire n r h)
  | publish r didWork h => exact .shutdown (hpublish r didWork h)
  | shutdown h => exact .done h

/-- One statement of the batch, for a property of the packets left. -/
theorem Batch.step {c : Config} {d : Driver} {b : DrainStmt} {k : List DrainStmt}
    (Q : TxSide → ℕ → List TxPacket → Prop) (h : Batch (Q d.tx) (b :: k))
    (haccept : ∀ q pkt pkts, Q d.tx q (pkt :: pkts) → Q (txAccept q pkt d.tx) q pkts) :
    Batch (Q (drainEval c b d).1.tx) ((drainEval c b d).2 ++ k) := by
  cases h with
  | packets q pkts n h =>
      cases pkts with
      | nil => exact .doorbell n
      | cons pkt pkts =>
          simp only [drainEval]
          split
          · exact .doorbell n
          · exact .packets q pkts (n + 1) (haccept q pkt pkts h)
  | doorbell n => exact .unlock
  | unlock => exact .done

/-- What a statement of the batch does to the transmit side. -/
theorem Batch.tx_cases {c : Config} {d : Driver} {b : DrainStmt} {k : List DrainStmt}
    (h : Batch Q (b :: k)) :
    (drainEval c b d).1.tx = d.tx ∨ (drainEval c b d).1.tx = txDoorbell c.mcfg d.tx ∨
      ∃ q pkt pkts n, b = .packets q (pkt :: pkts) n ∧ Q q (pkt :: pkts) ∧ ¬ d.tx.noSpace ∧
        (drainEval c b d).1.tx = txAccept q pkt d.tx := by
  cases h with
  | packets q pkts n h =>
      cases pkts with
      | nil => exact Or.inl rfl
      | cons pkt pkts =>
          by_cases hfull : d.tx.noSpace
          · left
            simp only [drainEval, if_pos hfull]
          · refine Or.inr (Or.inr ⟨q, pkt, pkts, n, rfl, h, hfull, ?_⟩)
            simp only [drainEval, if_neg hfull]
  | doorbell n =>
      simp only [drainEval]
      split
      · exact Or.inr (Or.inl rfl)
      · exact Or.inl rfl
  | unlock => exact Or.inl rfl

/-! ### What both calls keep -/

/-- The statements of both calls keep `Pre` until the tail is read and `P` afterwards, for batches whose
packets satisfy `Q`. -/
structure Stable (m : Mcfg) (Pre : TxSide → Prop) (P : TxSide → ℕ → ℕ → Prop)
    (Q : ℕ → List TxPacket → Prop) : Prop where
  reclaim : ∀ s, Pre s →
    P (s.closeTo s.hw.txTailPtr0) (s.hw.numDone m true 0) (s.hw.numDone m true 0)
  retire : ∀ s n r, P s (n + 1) r → P (txRetire true s) n r
  publish : ∀ s r didWork, P s 0 r → P (txPublish r didWork s) 0 0
  doorbell : ∀ s, (Pre s → Pre (txDoorbell m s)) ∧ ∀ n r, P s n r → P (txDoorbell m s) n r
  accept : ∀ s q pkt pkts, Q q (pkt :: pkts) → ¬ s.noSpace →
    (Pre s → Pre (txAccept q pkt s)) ∧ ∀ n r, P s n r → P (txAccept q pkt s) n r
  rest : ∀ q pkt pkts, Q q (pkt :: pkts) → Q q pkts

/-- Where the two calls are, with such a property. -/
structure Phases (Pre : TxSide → Prop) (P : TxSide → ℕ → ℕ → Prop) (Q : ℕ → List TxPacket → Prop)
    (s : DrainSys) : Prop where
  control : Control (Pre s.shared.tx) (P s.shared.tx) (s.code .control)
  batch : Batch Q (s.code .framework)

theorem Phases.step {c : Config} {Pre : TxSide → Prop} {P : TxSide → ℕ → ℕ → Prop} {s : DrainSys}
    (hk : Stable c.mcfg Pre P Q) (h : Phases Pre P Q s) (t : DrainThread) :
    Phases Pre P Q (drainStep c s t) := by
  unfold drainStep
  cases hcode : s.code t with
  | nil => rwa [Sys.step_run_idle hcode]
  | cons b k =>
      rw [Sys.step_run hcode]
      cases t with
      | control =>
          have hctl := h.control
          rw [hcode] at hctl
          constructor
          · rw [Sys.after_code_self]
            exact Control.step Pre P hctl (hk.reclaim _) (hk.retire _) (hk.publish _)
          · rw [Sys.after_code_of_ne (by decide)]
            exact h.batch
      | framework =>
          have hbatch := h.batch
          rw [hcode] at hbatch
          constructor
          · rw [Sys.after_code_of_ne (by decide)]
            rcases hbatch.tx_cases (c := c) (d := s.shared) with
              htx | htx | ⟨q, pkt, pkts, n, rfl, hQ, hroom, htx⟩
            · simp only [Sys.after, htx]
              exact h.control
            · obtain ⟨hpre, hP⟩ := hk.doorbell s.shared.tx
              simp only [Sys.after, htx]
              exact h.control.change (fun _ => hpre) fun _ => hP
            · obtain ⟨hpre, hP⟩ := hk.accept s.shared.tx q pkt pkts hQ hroom
              simp only [Sys.after, htx]
              exact h.control.change (fun _ => hpre) fun _ => hP
          · rw [Sys.after_code_self]
            exact Batch.step (fun _ => Q) hbatch hk.rest

theorem Phases.run {c : Config} {Pre : TxSide → Prop} {P : TxSide → ℕ → ℕ → Prop} {s : DrainSys}
    (hk : Stable c.mcfg Pre P Q) (h : Phases Pre P Q s) (sched : List DrainThread) :
    Phases Pre P Q (exec (drainStep c) s sched) := by
  have hstep : ∀ s t, Phases Pre P Q s → Phases Pre P Q (drainStep c s t) := by
    intro s t hs
    exact hs.step hk t
  exact invariant_exec hstep h

end Rtl812x.Dext
