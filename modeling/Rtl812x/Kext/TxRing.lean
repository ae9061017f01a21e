import Rtl812x.Kext.TxMapping
import Rtl812x.Lib.Interleave
import Rtl812x.Lib.Slots

/-!
# The transmit ring under three threads

`outputStart` runs on the output thread of the interface, `txInterrupt` and `clearRxTxRings` on the
work loop or on the poll thread.  Nothing but the order of the calls keeps them apart, so the
functions are cut into the statements that may be interleaved: a round of a loop is one statement,
and so is what stands between two loops.

The path with AppleVTD and the one without differ in how a packet gets its segments and in whether a
retired packet is unmapped; both are here.  Every thread may call every function.

* `eval` — what a statement does, and which statements it is followed by;
* `outputPacket_vtd`, `retireDesc_vtd` — with AppleVTD the rounds are those of `Kext.Tx`;
* `outputStart_finishes`, `txInterrupt_finishes`, `clearRxTxRings_finishes` — **a call that is left
  alone does what the function does.**
-/

namespace Rtl812x.Kext.TxRing

open Circular WrapCounter Interleave Slots

/-! ### Rounds -/

/-- A packet as a round finds it; `cursor` is what `getPhysicalSegmentsWithCoalesce` makes of it, where
AppleVTD is not used. -/
structure Offer extends TxOffer where
  cursor : List Segment

/-- The segments of a packet, and the state after they are mapped. -/
def segments (cfg : TxConfig) (vtd : Bool) (o : Offer) (s : TxSide) : List Segment × TxSide :=
  if vtd then
    let m := txMapPacket cfg o.pkt kMaxSegs o.result o.vector s
    ((List.range m.1).map m.2.1, m.2.2)
  else (o.cursor, s)

/-- A packet that `outputStart` has taken: freed on an error, else put on the ring. -/
def outputPacket (cfg : TxConfig) (vtd : Bool) (o : Offer) (s : TxSide) : TxSide :=
  if o.pkt.tsoError then freePacket o.pkt.id s
  else
    let m := segments cfg vtd o s
    if m.1 = [] then freePacket o.pkt.id m.2
    else placePacket (offloadWords cfg.mtu o.pkt).1
      ((offloadWords cfg.mtu o.pkt).2 ||| vlanWord o.pkt.vlanTag) o.pkt.id m.1 m.2

/-- The test at the head of the loop of `outputStart`. -/
def HasRoom (s : TxSide) : Prop := (kMaxSegs : ℤ) + 3 < s.hw.txNumFreeDesc

instance (s : TxSide) : Decidable (HasRoom s) := inferInstanceAs (Decidable (_ < _))

/-- One round of the loop of `txInterrupt`. -/
def retireDesc (vtd : Bool) (s : TxSide) : TxSide :=
  let index := s.hw.txDirtyDescIndex
  let s' := match s.txMbuf index with
    | some m =>
        let s' := { s with txMbuf := Function.update s.txMbuf index none }
        freePacket m (if vtd then txUnmapPacket m s' else s')
    | none => s
  { s' with
    txDescDoneCount := s'.txDescDoneCount + 1
    hw := { s'.hw with
      txNumFreeDesc := s'.hw.txNumFreeDesc + 1
      txDirtyDescIndex := (index + 1) &&& kTxDescMask } }

/-- The first word of a cleared descriptor. -/
def clearWord (i : ℕ) (t : TxDesc) : TxDesc := { t with opts1 := if i = kTxLastDesc then ringEnd else 0 }

/-- One round of the loop of `clearRxTxRings` over the ring. -/
def clearDesc (i : ℕ) (s : TxSide) : TxSide :=
  let s' := { s with txDesc := Function.update s.txDesc i (clearWord i (s.txDesc i)) }
  match s.txMbuf i with
  | some m => { freePacket m s' with txMbuf := Function.update s.txMbuf i none }
  | none => s'

theorem outputPacket_vtd (cfg : TxConfig) (o : Offer) (s : TxSide) :
    outputPacket cfg true o s = Kext.outputPacket cfg o.pkt o.result o.vector s := by
  simp only [outputPacket, Kext.outputPacket, segments, if_true, List.map_eq_nil_iff,
    List.range_eq_nil]

theorem retireDesc_vtd (s : TxSide) : retireDesc true s = Kext.retireDesc s := rfl

/-- The slot is empty afterwards, and an mbuf found there is freed. -/
theorem clearDesc_eq (i : ℕ) (s : TxSide) : clearDesc i s = { s with
    txDesc := Function.update s.txDesc i (clearWord i (s.txDesc i))
    txMbuf := Function.update s.txMbuf i none
    trace := (s.txMbuf i).toList.map .free ++ s.trace } := by
  cases hm : s.txMbuf i with
  | none =>
      simp only [clearDesc, hm, update_none_self hm]
      rfl
  | some p =>
      simp only [clearDesc, hm]
      rfl

/-! ### Statements -/

inductive Stmt where
  /-- the test of `__ENABLED` and `__LINK_UP` -/
  | testFlags (queue : List Offer)
  /-- the next round of `outputStart`, or the end of its loop -/
  | round (queue : List Offer)
  | doorbell
  /-- `txInterrupt` up to its loop -/
  | readClose (reg : ℕ)
  | retire
  | clearMem (i : ℕ)
  | restartMap
  | clearDesc (i : ℕ)
  | restartRing
  | setFlags (enabled linkUp : Bool)

/-- The transmit side, and a record of the packets taken from the interface. -/
structure State where
  side : TxSide
  taken : List ℕ

/-- What `outputStart` does in a round that takes a packet. -/
def State.output (cfg : TxConfig) (vtd : Bool) (o : Offer) (s : State) : State :=
  ⟨outputPacket cfg vtd o s.side, o.pkt.id :: s.taken⟩

/-- Statements that only read or write the transmit side. -/
def State.map (f : TxSide → TxSide) (s : State) : State := { s with side := f s.side }

section Functions

variable (cfg : TxConfig) (vtd : Bool)

/-- The descriptors closed since the last reading. -/
def numDone (reg : ℕ) (s : TxSide) : ℕ :=
  sub32 (rtl812xGetHwCloPtr (hwSuppTxNoCloseVer cfg.mcfg) reg) s.hw.txClosePtr0 &&&
    maxTxDescPtrMask (hwSuppTxNoCloseVer cfg.mcfg)

def readClose (reg : ℕ) (s : TxSide) : TxSide :=
  { s with hw := { s.hw with txClosePtr0 := rtl812xGetHwCloPtr (hwSuppTxNoCloseVer cfg.mcfg) reg } }

def eval : Stmt → State → State × List Stmt
  | .testFlags queue, s => (s, if s.side.enabled && s.side.linkUp then [.round queue] else [])
  | .round [], s => (s, [.doorbell])
  | .round (o :: queue), s =>
      if HasRoom s.side then (s.output cfg vtd o, [.round queue]) else (s, [.doorbell])
  | .doorbell, s => (s.map (txDoorbell cfg), [])
  | .readClose reg, s => (s.map (readClose cfg reg), List.replicate (numDone cfg reg s.side) .retire)
  | .retire, s => (s.map (retireDesc vtd), [])
  | .clearMem i, s => (s.map (setMem i Kext.clearMem), [])
  | .restartMap, s =>
      (s.map fun d => { d with txNextMem2Use := 0, txNextMem2Free := 0, txNumFreeMem := kNumTxMemDesc }, [])
  | .clearDesc i, s => (s.map (clearDesc i), [])
  | .restartRing, s => (s.map Kext.rtl812xHwConfig, [])
  | .setFlags enabled linkUp, s =>
      (s.map fun d => { d with enabled := enabled, linkUp := linkUp }, [])

/-- What a thread may call. -/
inductive Call where
  | outputStart (queue : List Offer)
  | txInterrupt (reg : ℕ)
  | clearRxTxRings
  /-- the flags, as `enable`, `disable` and the link handling set them -/
  | setFlags (enabled linkUp : Bool)

/-- The statements of a call; the map is cleared with AppleVTD only. -/
def Call.code : Call → List Stmt
  | .outputStart queue => [.testFlags queue]
  | .txInterrupt reg => [.readClose reg]
  | .clearRxTxRings =>
      (if vtd then (List.range kNumTxMemDesc).map .clearMem ++ [.restartMap] else []) ++
        ((List.range kNumTxDesc).map .clearDesc ++ [.restartRing])
  | .setFlags enabled linkUp => [.setFlags enabled linkUp]

end Functions

/-! ### A call left alone -/

section Alone

variable {cfg : TxConfig} {vtd : Bool}

/-- A statement with nothing behind it. -/
theorem finishes_single {b : Stmt} {s s' : State} (h : eval cfg vtd b s = (s', [])) :
    Finishes (eval cfg vtd) [b] s s' := by
  refine Finishes.cons ?_
  rw [h]
  exact Finishes.nil _

theorem retire_finishes (n : ℕ) (s : State) :
    Finishes (eval cfg vtd) (List.replicate n .retire) s (s.map (retireDesc vtd)^[n]) := by
  induction n generalizing s with
  | zero => exact Finishes.nil _
  | succ n ih => exact Finishes.cons (ih (s.map (retireDesc vtd)))

/-- **`txInterrupt`.** -/
theorem txInterrupt_finishes (reg : ℕ) (s : State) :
    Finishes (eval cfg true) (Call.txInterrupt reg |>.code true) s (s.map (Kext.txInterrupt cfg reg)) := by
  refine Finishes.cons ?_
  rw [List.append_nil]
  exact retire_finishes _ _

theorem clearMem_finishes (n : ℕ) (s : State) :
    Finishes (eval cfg vtd) ((List.range n).map .clearMem) s (s.map fun d => { d with
      txMem := fun i => if i < n then Kext.clearMem (d.txMem i) else d.txMem i }) := by
  induction n with
  | zero => exact Finishes.nil _
  | succ n ih =>
      rw [List.range_succ, List.map_append]
      refine ih.append (finishes_single ?_)
      simp only [eval, State.map, setMem, if_neg (Nat.lt_irrefl n)]
      rw [update_below s.side.txMem fun i => Kext.clearMem (s.side.txMem i)]

/-- What the ring holds after the first `n` rounds over it. -/
def clearedTo (n : ℕ) (d : TxSide) : TxSide :=
  { d with
    txDesc := fun i => if i < n then clearWord i (d.txDesc i) else d.txDesc i
    txMbuf := fun i => if i < n then none else d.txMbuf i
    trace := ((window kNumTxDesc 0 n d.txMbuf).reduceOption.map .free).reverse ++ d.trace }

theorem clearDesc_clearedTo {n : ℕ} (hn : n < kNumTxDesc) (d : TxSide) :
    clearDesc n (clearedTo n d) = clearedTo (n + 1) d := by
  have hslot : slot kNumTxDesc 0 n = n := by
    rw [slot, Nat.zero_add, Nat.mod_eq_of_lt hn]
  have htrace : (d.txMbuf n).toList.map TxEvent.free ++ (clearedTo n d).trace =
      (clearedTo (n + 1) d).trace := by
    simp only [clearedTo]
    rw [window_snoc, List.reduceOption_append, List.map_append, List.reverse_append, List.append_assoc,
      hslot, List.reduceOption_singleton]
    cases d.txMbuf n <;> rfl
  rw [clearDesc_eq, show (clearedTo n d).txMbuf n = d.txMbuf n from if_neg (Nat.lt_irrefl n), htrace]
  simp only [clearedTo, if_neg (Nat.lt_irrefl n)]
  rw [update_below d.txDesc fun i => clearWord i (d.txDesc i), update_below d.txMbuf fun _ => none]

theorem clearDesc_finishes {n : ℕ} (hn : n ≤ kNumTxDesc) (s : State) :
    Finishes (eval cfg vtd) ((List.range n).map .clearDesc) s (s.map (clearedTo n)) := by
  induction n with
  | zero => exact Finishes.nil _
  | succ n ih =>
      rw [List.range_succ, List.map_append]
      refine (ih (by omega)).append (finishes_single ?_)
      simp only [eval, State.map, clearDesc_clearedTo (show n < kNumTxDesc by omega)]

/-- **`clearRxTxRings`.** -/
theorem clearRxTxRings_finishes (s : State) :
    Finishes (eval cfg true) (Call.clearRxTxRings.code true) s (s.map Kext.clearRxTxRings) := by
  refine ((clearMem_finishes kNumTxMemDesc s).append (finishes_single rfl)).append
    ((clearDesc_finishes (Nat.le_refl _) _).append (finishes_single rfl))

theorem outputRound_eq (o : TxOffer) (d : TxSide) : outputRound cfg o d =
    if HasRoom d then Kext.outputPacket cfg o.pkt o.result o.vector d else d := rfl

/-- With no room the rounds left change nothing. -/
theorem rounds_no_room {d : TxSide} (hroom : ¬ HasRoom d) (queue : List TxOffer) :
    queue.foldl (fun s o => outputRound cfg o s) d = d := by
  induction queue with
  | nil => rfl
  | cons o rest ih =>
      rw [List.foldl_cons, outputRound_eq, if_neg hroom]
      exact ih

/-- The packets a call takes are the first of the queue. -/
theorem round_finishes (cfg : TxConfig) (queue : List Offer) (s : State) :
    ∃ taken, Finishes (eval cfg true) [.round queue] s ⟨txDoorbell cfg
      ((queue.map Offer.toTxOffer).foldl (fun s o => outputRound cfg o s) s.side), taken⟩ := by
  induction queue generalizing s with
  | nil => exact ⟨s.taken, Finishes.cons (finishes_single rfl)⟩
  | cons o rest ih =>
      by_cases hroom : HasRoom s.side
      · obtain ⟨taken, h⟩ := ih (s.output cfg true o)
        refine ⟨taken, Finishes.cons ?_⟩
        rw [eval, if_pos hroom, List.map_cons, List.foldl_cons, outputRound_eq, if_pos hroom,
          ← outputPacket_vtd]
        exact h
      · refine ⟨s.taken, Finishes.cons ?_⟩
        rw [eval, if_neg hroom, rounds_no_room hroom]
        exact finishes_single rfl

/-- **`outputStart`.** -/
theorem outputStart_finishes (queue : List Offer) (s : State) :
    ∃ taken, Finishes (eval cfg true) (Call.outputStart queue |>.code true) s
      ⟨Kext.outputStart cfg (queue.map Offer.toTxOffer) s.side, taken⟩ := by
  by_cases hflags : (s.side.enabled && s.side.linkUp) = true
  · obtain ⟨taken, h⟩ := round_finishes cfg queue s
    refine ⟨taken, Finishes.cons ?_⟩
    rw [eval, if_pos hflags, Kext.outputStart, if_pos hflags]
    exact h
  · refine ⟨s.taken, Finishes.cons ?_⟩
    rw [eval, if_neg hflags, Kext.outputStart, if_neg hflags]
    exact Finishes.nil _

end Alone

end Rtl812x.Kext.TxRing
