import Rtl812x.Dext.TxAnnounce
import Rtl812x.Dext.RxOwnership

/-!
# Announcing completions

The receive side of the matter: `rxRingService` asks for collection when it delivered anything, and
nothing else pushes.  Both sides together then give the statement for whole runs: of all the calls
that push onto a completion FIFO, only a submission that rejects a packet leaves it unannounced.

* `RxAnnounced` — what a call did: every push has a later request;
* `rxRingService_announced` — the one that pushes, from any state;
* `completions_announced_iff` — **in every run, a call announces what it pushes**, a submission
  exactly when it meets no malformed packet.
-/

namespace Rtl812x.Dext

open Trace Runs

/-! ### Receive -/

/-- Every push onto the receive FIFO has a later request. -/
def RxAnswered (added : List RxEvent) : Prop :=
  ∀ newer p older, added = newer ++ .push p :: older → .requestEnqueue ∈ newer

theorem rxAnswered_iff {added : List RxEvent} :
    RxAnswered added ↔ Answered (fun e => ∃ p, e = .push p) (· = .requestEnqueue) added := by
  simp only [RxAnswered, answered_iff]
  constructor
  · rintro h newer e older heq ⟨p, rfl⟩
    exact Or.inr ⟨_, h newer p older heq, rfl⟩
  · intro h newer p older heq
    rcases h newer _ older heq ⟨p, rfl⟩ with he | ⟨r, hmem, rfl⟩
    · cases he
    · exact hmem

/-- Between two states of the receive side every push was announced. -/
def RxAnnounced (s s' : RxSide) : Prop := Grew RxAnswered s.trace s'.trace

variable {r r' r'' : RxSide}

theorem RxAnnounced.trans (h : RxAnnounced r r') (h' : RxAnnounced r' r'') : RxAnnounced r r'' := by
  refine Grew.trans (fun l' l hl' hl => ?_) h h'
  rw [rxAnswered_iff] at hl hl' ⊢
  exact hl'.append hl

theorem rxAnnounced_of_no_push (added : List RxEvent) (heq : r'.trace = added ++ r.trace)
    (hno : ∀ p, .push p ∉ added) : RxAnnounced r r' := by
  refine ⟨added, heq, ?_⟩
  rw [rxAnswered_iff]
  apply answered_of_not_push
  rintro e he ⟨p, rfl⟩
  exact hno p he

/-- A call that records nothing. -/
theorem rxAnnounced_of_trace_eq (heq : r'.trace = r.trace) : RxAnnounced r r' :=
  rxAnnounced_of_no_push [] heq fun _ h => by cases h

theorem rxTake_trace (outcome : ℕ → Option ℕ) (r : RxSide) : (rxTake outcome r).2.trace = r.trace := by
  simp only [rxTake, rxAllocate]
  split
  · rfl
  · split
    · rfl
    · split <;> rfl

/-- Refilling the ring records nothing. -/
theorem rxRefillLoop_trace (iova : ℕ → ℕ) (outcome : ℕ → Option ℕ) (is : List ℕ) (r : RxSide) :
    (rxRefillLoop iova outcome is r).2.trace = r.trace := by
  induction is generalizing r with
  | nil => rfl
  | cons i is ih =>
      rw [rxRefillLoop]
      split
      · exact ih r
      · have htake := rxTake_trace outcome r
        split
        case h_1 heq =>
          rw [heq] at htake
          exact htake
        case h_2 heq =>
          rw [heq] at htake
          rw [ih]
          exact htake

theorem rxRingRefill_trace (iova : ℕ → ℕ) (outcome : ℕ → Option ℕ) (r : RxSide) :
    (rxRingRefill iova outcome r).2.trace = r.trace := by
  rw [rxRingRefill, rxRefillLoop_trace]

theorem rxRingRearm_trace (iova : ℕ → ℕ) (outcome : ℕ → Option ℕ) (r : RxSide) :
    (rxRingRearm iova outcome r).trace = r.trace := by
  rw [rxRingRearm, rxRingRefill_trace]
  rfl

/-- The service loop pushes only if it says so. -/
theorem rxServiceLoop_trace (budget : ℕ) (delivered : Bool) (r : RxSide) :
    ∃ added, (rxServiceLoop budget delivered r).2.trace = added ++ r.trace ∧
      ((rxServiceLoop budget delivered r).1 = false → delivered = false ∧ ∀ p, .push p ∉ added) := by
  induction budget generalizing delivered r with
  | zero => exact ⟨[], rfl, fun h => ⟨h, fun _ hmem => by cases hmem⟩⟩
  | succ budget ih =>
      simp only [rxServiceLoop]
      split
      · exact ⟨[], rfl, fun h => ⟨h, fun _ hmem => by cases hmem⟩⟩
      · split
        · exact ⟨[], rfl, fun h => ⟨h, fun _ hmem => by cases hmem⟩⟩
        · rename_i p hp
          obtain ⟨added, heq, hadded⟩ := ih
            (delivered || !decide (rxBad (r.rxRing r.rxNextDescIndex).opts1)) (rxServiceOne p r)
          by_cases hbad : rxBad (r.rxRing r.rxNextDescIndex).opts1
          · refine ⟨added, ?_, fun h => ?_⟩
            · rw [heq, rxServiceOne, if_pos hbad]
              rfl
            · obtain ⟨hdel, hno⟩ := hadded h
              exact ⟨(Bool.or_eq_false_iff.mp hdel).1, hno⟩
          · obtain ⟨e, he⟩ : ∃ e, (rxServiceOne p r).trace = e :: r.trace := by
              rw [rxServiceOne, if_neg hbad]
              exact ⟨_, rfl⟩
            refine ⟨added ++ [e], ?_, fun h => ?_⟩
            · rw [heq, he, List.append_assoc, List.singleton_append]
            · have hdel := (hadded h).1
              rw [decide_eq_false hbad] at hdel
              simp at hdel

/-- **Servicing the receive ring announces what it delivers.** -/
theorem rxRingService_announced (iova : ℕ → ℕ) (outcome : ℕ → Option ℕ) (r : RxSide) :
    RxAnnounced r (rxRingService iova outcome r) := by
  obtain ⟨added, heq, hadded⟩ := rxServiceLoop_trace kNumRxDesc false r
  have hrefill : (rxRingRefill iova outcome (rxServiceLoop kNumRxDesc false r).2).2.trace =
      added ++ r.trace := by
    rw [rxRingRefill_trace, heq]
  simp only [rxRingService, rxAnnounce]
  split
  · refine ⟨[.requestDequeue, .requestEnqueue] ++ added, ?_, ?_⟩
    · show _ :: _ :: (rxRingRefill iova outcome _).2.trace = _
      rw [hrefill]
      rfl
    · rw [rxAnswered_iff]
      have hreq : ∃ e ∈ [RxEvent.requestDequeue, .requestEnqueue], e = .requestEnqueue :=
        ⟨_, List.mem_cons_of_mem _ (List.mem_singleton_self _), rfl⟩
      refine answered_append_of_req ?_ hreq added
      rintro e he ⟨p, rfl⟩
      simp at he
  · rename_i hnot
    refine rxAnnounced_of_no_push added hrefill (hadded ?_).2
    simpa using hnot

/-- Link changes record requests for packets only. -/
theorem updateLinkStatus_rxAnnounced (c : Config) (phy phy' : UInt32) (d : Driver) :
    RxAnnounced d.rx (updateLinkStatus c phy phy' d).rx := by
  unfold updateLinkStatus
  split
  · rcases linkOn_rx c phy d with h | h
    · rw [h]
      exact rxAnnounced_of_trace_eq rfl
    · rw [h]
      refine rxAnnounced_of_no_push [.requestDequeue] rfl fun p hmem => ?_
      cases List.mem_singleton.mp hmem
  · split
    · split
      · exact rxAnnounced_of_trace_eq rfl
      · rw [linkOff_rx]
        exact rxAnnounced_of_trace_eq (rxRingRearm_trace _ _ _)
    · exact rxAnnounced_of_trace_eq rfl

theorem setInterfaceEnable_rxAnnounced (c : Config) (on : Bool) (phy phy' : UInt32) (d : Driver) :
    RxAnnounced d.rx (setInterfaceEnable c on phy phy' d).rx := by
  cases on with
  | false =>
      refine rxAnnounced_of_trace_eq ?_
      show (rxRingDrop (rtl812xDisable { d with interfaceEnabled := false, linkUp := false }).rx).trace = _
      rw [rtl812xDisable, hwReset_rx]
      rfl
  | true =>
      refine RxAnnounced.trans ?_ (updateLinkStatus_rxAnnounced c phy phy' (startEngines c d))
      rw [startEngines_rx]
      refine rxAnnounced_of_no_push [.requestDequeue] ?_ fun p hmem => ?_
      · show _ :: (rxRingRefill c.iova c.outcome _).2.trace = _
        rw [rxRingRefill_trace]
        rfl
      · cases List.mem_singleton.mp hmem

/-- Exchanging packets with the framework records nothing on the receive side. -/
theorem rxDequeueLoop_trace (packets : List ℕ) (r : RxSide) :
    (rxDequeueLoop packets r).2.trace = r.trace := by
  induction packets generalizing r with
  | nil => rfl
  | cons p packets ih =>
      rw [rxDequeueLoop]
      split
      · exact ih _
      · rfl

theorem rxEnqueueAction_trace (capacity : ℕ) (r : RxSide) :
    (rxEnqueueAction capacity r).2.trace = r.trace := by
  induction capacity generalizing r with
  | zero => rfl
  | succ capacity ih =>
      simp only [rxEnqueueAction]
      split
      · rfl
      · exact ih _

theorem rxStep_rxAnnounced (c : Config) (op : RxOp) (d : Driver) :
    RxAnnounced d.rx (rxStep c d op).rx := by
  cases op with
  | enable on phy phy' => exact setInterfaceEnable_rxAnnounced c on phy phy' d
  | service => exact rxRingService_announced c.iova c.outcome d.rx
  | refill =>
      refine rxAnnounced_of_trace_eq ?_
      simp only [rxStep, rxRingRefill_trace]
  | rearm =>
      refine rxAnnounced_of_trace_eq ?_
      show (rxRingRearm c.iova c.outcome d.rx).trace = d.rx.trace
      rw [rxRingRearm_trace]
  | dequeue packets => exact rxAnnounced_of_trace_eq (rxDequeueLoop_trace packets d.rx)
  | enqueue capacity => exact rxAnnounced_of_trace_eq (rxEnqueueAction_trace capacity d.rx)
  | link phy phy' =>
      rw [rxStep]
      split
      · exact updateLinkStatus_rxAnnounced c phy phy' d
      · exact rxAnnounced_of_trace_eq rfl
  | chipComplete i opts1 opts2 => exact rxAnnounced_of_trace_eq rfl
  | frameworkAlloc k =>
      refine rxAnnounced_of_trace_eq ?_
      show (frameworkAlloc k d.rx).trace = d.rx.trace
      unfold frameworkAlloc
      split <;> rfl
  | frameworkFree p => exact rxAnnounced_of_trace_eq rfl

/-! ### Runs -/

/-- A step of either side, or an interrupt, which runs both. -/
inductive DataOp where
  | tx (op : TxOp)
  | rx (op : RxOp)
  | interrupt (status : UInt32) (clo : ℕ) (phy phy' : UInt32)

def dataStep (c : Config) (d : Driver) : DataOp → Driver
  | .tx op => txStep c d op
  | .rx op => rxStep c d op
  | .interrupt status clo phy phy' => interruptOccurred c status clo phy phy' d

/-- Every push of the step was announced. -/
def Announced (d d' : Driver) : Prop := TxAnnounced d.tx d'.tx ∧ RxAnnounced d.rx d'.rx

/-- The step is a submission that rejects a packet. -/
def Rejects (d : Driver) : DataOp → Prop
  | .tx (.dequeue queue packets) => TxRejects d queue packets
  | _ => False

variable {c : Config} {d : Driver} {P : TxSide → Prop}

theorem TxCarried.setInterfaceEnable (hc : TxCarried c.mcfg P) (hd : P d.tx) (on : Bool)
    (phy phy' : UInt32) : P (setInterfaceEnable c on phy phy' d).tx := by
  cases on with
  | false => exact hc.toTxKept.disable hd
  | true => exact hc.toTxKept.enable (hc.reset d.tx trivial hd)

theorem TxCarried.linkChange (hc : TxCarried c.mcfg P) (hd : P d.tx) (phy phy' : UInt32) :
    P (updateLinkStatus c phy phy' d).tx :=
  hc.toTxKept.updateLinkStatus hd fun _ => trivial

theorem TxCarried.txStep (hc : TxCarried c.mcfg P) (hd : P d.tx) (op : TxOp)
    (hop : ∀ queue packets, op ≠ .dequeue queue packets) : P (txStep c d op).tx := by
  cases op with
  | dequeue queue packets => exact absurd rfl (hop queue packets)
  | reclaim clo => exact hc.reclaim clo _ hd
  | abort => exact hc.abort _ hd
  | enqueue queue capacity => exact hc.enqueue _ capacity _ hd
  | link phy phy' => exact hc.linkChange hd phy phy'
  | enable on phy phy' => exact hc.setInterfaceEnable hd on phy phy'

theorem TxCarried.rxStep (hc : TxCarried c.mcfg P) (hd : P d.tx) (op : RxOp) :
    P (rxStep c d op).tx := by
  cases op with
  | enable on phy phy' => exact hc.setInterfaceEnable hd on phy phy'
  | link phy phy' =>
      rw [Dext.rxStep]
      split
      · exact hc.linkChange hd phy phy'
      · exact hd
  | service | refill | rearm | dequeue _ | enqueue _ | chipComplete _ _ _ | frameworkAlloc _
  | frameworkFree _ => simpa only [Dext.rxStep] using hd

theorem irqRx_tx (c : Config) (status : UInt32) (d : Driver) : (irqRx c status d).tx = d.tx := by
  unfold irqRx
  split <;> rfl

theorem irqMitigate_tx (status : UInt32) (d : Driver) : (irqMitigate status d).tx = d.tx := by
  unfold irqMitigate
  split
  · rfl
  · split <;> rfl

/-- An interrupt serves the receive ring, sweeps the transmit ring and looks at the link. -/
theorem TxCarried.interruptOccurred (hc : TxCarried c.mcfg P) (hd : P d.tx) (status : UInt32)
    (clo : ℕ) (phy phy' : UInt32) : P (interruptOccurred c status clo phy phy' d).tx := by
  have hdata : P (irqData c status clo (irqAck status d)).tx := by
    unfold irqData
    split
    · rw [irqMitigate_tx]
      have hrx : P (irqRx c status (irqAck status d)).tx := by
        rw [irqRx_tx]
        exact hd
      unfold irqTx
      split
      · exact hc.reclaim clo _ hrx
      · exact hrx
    · exact hd
  unfold Dext.interruptOccurred
  split
  · exact hd
  · unfold irqLink
    split
    · exact hc.linkChange hdata phy phy'
    · exact hdata

theorem txStep_rxAnnounced (c : Config) (d : Driver) (op : TxOp) : RxAnnounced d.rx (txStep c d op).rx := by
  cases op with
  | link phy phy' => exact updateLinkStatus_rxAnnounced c phy phy' d
  | enable on phy phy' => exact setInterfaceEnable_rxAnnounced c on phy phy' d
  | dequeue _ _ | reclaim _ | abort | enqueue _ _ => exact rxAnnounced_of_trace_eq rfl

theorem irqRx_rxAnnounced (c : Config) (status : UInt32) (d : Driver) :
    RxAnnounced d.rx (irqRx c status d).rx := by
  unfold irqRx
  split
  · exact rxRingService_announced c.iova c.outcome d.rx
  · exact rxAnnounced_of_trace_eq rfl

theorem interruptOccurred_rxAnnounced (c : Config) (status : UInt32) (clo : ℕ) (phy phy' : UInt32)
    (d : Driver) : RxAnnounced d.rx (interruptOccurred c status clo phy phy' d).rx := by
  have hdata : RxAnnounced d.rx (irqData c status clo (irqAck status d)).rx := by
    unfold irqData
    split
    · rw [irqMitigate_rx, irqTx_rx]
      exact irqRx_rxAnnounced c status (irqAck status d)
    · exact rxAnnounced_of_trace_eq rfl
  unfold interruptOccurred
  split
  · exact rxAnnounced_of_trace_eq rfl
  · unfold irqLink
    split
    · exact hdata.trans (updateLinkStatus_rxAnnounced c phy phy' _)
    · exact hdata

theorem freeInRange_dataStep (hrange : FreeInRange d.tx) (op : DataOp) :
    FreeInRange (dataStep c d op).tx := by
  have hc := freeInRange_carried c.mcfg
  cases op with
  | tx op =>
      by_cases hop : ∃ queue packets, op = .dequeue queue packets
      · obtain ⟨queue, packets, rfl⟩ := hop
        exact hrange.txDequeueAction c.mcfg d.linkUp queue packets
      · exact hc.txStep hrange op fun queue packets h => hop ⟨queue, packets, h⟩
  | rx op => exact hc.rxStep hrange op
  | interrupt status clo phy phy' => exact hc.interruptOccurred hrange status clo phy phy'

/-- **A step announces what it pushes unless it is a submission that rejects a packet.** -/
theorem dataStep_announced_iff (hrange : FreeInRange d.tx) (op : DataOp) :
    Announced d (dataStep c d op) ↔ ¬ Rejects d op := by
  have hc := txAnnounced_carried c.mcfg d.tx
  have hrefl := TxAnnounced.refl d.tx
  cases op with
  | tx op =>
      by_cases hop : ∃ queue packets, op = .dequeue queue packets
      · obtain ⟨queue, packets, rfl⟩ := hop
        have hiff := txDequeueAction_announced_iff hrange c.mcfg queue packets
        exact (and_iff_left (txStep_rxAnnounced c d _)).trans hiff
      · have htx := hc.txStep hrefl op fun queue packets h => hop ⟨queue, packets, h⟩
        have hnot : ¬ Rejects d (.tx op) := by
          cases op with
          | dequeue queue packets => exact absurd ⟨queue, packets, rfl⟩ hop
          | reclaim _ | abort | enqueue _ _ | link _ _ | enable _ _ _ => exact not_false
        exact iff_of_true ⟨htx, txStep_rxAnnounced c d op⟩ hnot
  | rx op => exact iff_of_true ⟨hc.rxStep hrefl op, rxStep_rxAnnounced c op d⟩ not_false
  | interrupt status clo phy phy' =>
      exact iff_of_true ⟨hc.interruptOccurred hrefl status clo phy phy',
        interruptOccurred_rxAnnounced c status clo phy phy' d⟩ not_false

/-- **Completions are announced** by every step of every run that is no submission of a malformed
packet, and by no step that is one. -/
theorem completions_announced_iff (c : Config) (ops : List DataOp) (op : DataOp) :
    Announced (exec (dataStep c) Driver.init ops) (dataStep c (exec (dataStep c) Driver.init ops) op) ↔
      ¬ Rejects (exec (dataStep c) Driver.init ops) op := by
  have hrange : FreeInRange (exec (dataStep c) Driver.init ops).tx :=
    @invariant_exec _ _ _ (fun d : Driver => FreeInRange d.tx) (fun _ op h => freeInRange_dataStep h op)
      _ _ (show FreeInRange TxSide.init by unfold FreeInRange; decide)
  exact dataStep_announced_iff hrange op

/-- Too short for an Ethernet header. -/
def runtPacket : TxPacket := { plainPacket 7 with dataLength := 13 }

/-- The interface is enabled and the link comes up. -/
def linkedRun : List DataOp := [.tx (.enable true 0 0), .interrupt linkChg 0 phy10G 0]

/-- A runt frame goes to the first completion FIFO, and nobody is told. -/
theorem runt_not_announced :
    let d := exec (dataStep copperConfig) Driver.init linkedRun
    let d' := dataStep copperConfig d (.tx (.dequeue (.txSub 0) [runtPacket]))
    d'.tx.trace.take 3 = [.doorbell 0, .push 0 7, .reject 7 0] ∧ ¬ Announced d d' := by
  refine ⟨by decide +kernel, ?_⟩
  have hrange : FreeInRange (exec (dataStep copperConfig) Driver.init linkedRun).tx := by
    unfold FreeInRange
    decide +kernel
  rw [dataStep_announced_iff hrange, not_not]
  show TxRejects _ _ _
  decide +kernel

end Rtl812x.Dext
