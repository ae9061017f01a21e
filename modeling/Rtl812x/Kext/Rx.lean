import Rtl812x.Kext.RxFrame
import Rtl812x.Lib.Circular
import Rtl812x.Lib.Loop

/-!
# The kext's receive loops

`rxInterrupt` gives each descriptor back to the chip as it goes; `rxInterruptVTD` (the path with an
IOMMU) leaves the ring alone and has `rxMapBuffers` map and arm whole batches of sixteen after the
loop.  Both are `while` loops and run here with fuel; `goodPkts` and `numMap` are their locals,
`visited` the ring indices they looked at.

* `rxInterruptStep`, `rxInterruptVTDStep`, `rxInterrupt`, `rxInterruptVTD`, `rxMapBuffers`;
* `Addressed` — each descriptor the chip has points to the mbuf of its receive buffer, and
  `Addressed.round` — **a round of the plain loop keeps that**;
* `asmAfter`, `goodAfter` — what handling the first `k` descriptors makes of the assembly, and how
  many packets it delivers;
* `rxInterruptVTDStep_iterate`, `rxInterruptStep_iterate` — **the state after `k` rounds** of either
  loop;
* `rxInterrupt_stopsAt` — the plain loop takes at most one round for each descriptor of the ring.
-/

namespace Rtl812x.Kext

open Circular Loop

def kRxMemBaseShift : ℕ := 4
def kNumRxMemDesc : ℕ := kNumRxDesc >>> kRxMemBaseShift
def kRxMemBatchSize : ℕ := kNumRxDesc / kNumRxMemDesc
def kRxMemDescMask : ℕ := kRxMemBatchSize - 1

/-- The page size (`kRxBufferSize`), the largest packet the pool copies, and where the chip finds
the data of an mbuf on the plain path. -/
structure RxConfig where
  pageSize : ℕ
  maxCopySize : ℕ
  phys : ℕ → ℕ

/-- One memory descriptor of the receive map: how often it is prepared, and whether its DMA command
is bound to it. -/
structure RxMem where
  prepared : ℤ
  bound : Bool
deriving DecidableEq, Repr

/-- The receive side of the driver.  `seen` counts the descriptors looked at so far; the `n`th one
gets the `n`th allocation outcome. -/
structure RxSide where
  desc : ℕ → RxDesc
  bufPhyAddr : ℕ → ℕ
  rxNextDescIndex : ℕ
  rxMapNextIndex : ℕ
  rxMem : ℕ → RxMem
  rxMemRange : ℕ → ℕ
  seen : ℕ
  asm : RxAssembly

/-- A call in progress. -/
structure RxCall where
  side : RxSide
  goodPkts : ℕ
  numMap : ℕ
  visited : List ℕ

def RxCall.start (s : RxSide) : RxCall := ⟨s, 0, 0, []⟩

/-- The word that gives a descriptor to the chip. -/
def rxWord1 (pageSize i : ℕ) : UInt32 :=
  (if i = kRxLastDesc then ringEnd else 0) ||| UInt32.ofNat pageSize ||| descOwn

/-- A descriptor given to the chip.  `word1` has 64 bits and `DescOwn` is an `int`, whose sign fills the
upper half: that is `opts2`. -/
def armedDesc (pageSize i addr : ℕ) : RxDesc := ⟨rxWord1 pageSize i, 0xffffffff, addr⟩

/-! ### The loops -/

/-- The loop condition. -/
def rxGoOn (maxCount : ℕ) (c : RxCall) : Bool :=
  !(c.side.desc c.side.rxNextDescIndex).own && decide (c.goodPkts < maxCount)

/-- The loop body up to `nextDesc`, on the descriptor the loop has come to. -/
def RxCall.handle (lenMask : UInt32) (maxCopySize : ℕ) (alloc : ℕ → Alloc) (c : RxCall) : Handled :=
  rxHandle lenMask maxCopySize c.side.rxNextDescIndex (c.side.desc c.side.rxNextDescIndex)
    (alloc c.side.seen) c.side.asm

/-- On to the next descriptor. -/
def RxCall.next (h : Handled) (desc : ℕ → RxDesc) (bufPhyAddr : ℕ → ℕ) (numMap : ℕ) (c : RxCall) :
    RxCall where
  side := { c.side with
    desc := desc
    bufPhyAddr := bufPhyAddr
    rxNextDescIndex := (c.side.rxNextDescIndex + 1) &&& kRxDescMask
    seen := c.side.seen + 1
    asm := h.asm }
  goodPkts := c.goodPkts + h.good.toNat
  numMap := numMap
  visited := c.visited ++ [c.side.rxNextDescIndex]

/-- The address a descriptor of the plain path gets back: that of the new mbuf, if there is one. -/
def rxAddr (cfg : RxConfig) (old : ℕ) (newBuf : Option ℕ) : ℕ := (newBuf.map cfg.phys).getD old

def rxInterruptStep (cfg : RxConfig) (alloc : ℕ → Alloc) (c : RxCall) : RxCall :=
  let i := c.side.rxNextDescIndex
  let h := c.handle 0x3fff cfg.maxCopySize alloc
  let addr := rxAddr cfg (c.side.bufPhyAddr i) h.newBuf
  c.next h (Function.update c.side.desc i (armedDesc cfg.pageSize i addr))
    (Function.update c.side.bufPhyAddr i addr) c.numMap

def rxInterruptVTDStep (cfg : RxConfig) (alloc : ℕ → Alloc) (c : RxCall) : RxCall :=
  let i := c.side.rxNextDescIndex
  let h := c.handle 0x1fff cfg.maxCopySize alloc
  c.next h c.side.desc
    (if h.newBuf.isSome then Function.update c.side.bufPhyAddr i 0 else c.side.bufPhyAddr)
    (if i &&& kRxMemDescMask = kRxMemDescMask then c.numMap + 1 else c.numMap)

def rxInterrupt (cfg : RxConfig) (alloc : ℕ → Alloc) (maxCount fuel : ℕ) (s : RxSide) :
    Option RxCall :=
  whileFuel (rxGoOn maxCount) (rxInterruptStep cfg alloc) fuel (.start s)

/-! ### Mapping a batch of receive buffers -/

/-- How the calls that map one batch turn out; `segs` gives the device address of each buffer of
the batch, `none` where `gen64IOVMSegments` fails. -/
inductive MapResult where
  | initFails
  | prepareFails
  | setFails
  | segs (pa : ℕ → Option ℕ)

/-- Tear the old mapping of the batch at `index` down and take the addresses of replaced buffers. -/
def rxUnmapBatch (index : ℕ) (s : RxSide) : RxSide :=
  let b := index >>> kRxMemBaseShift
  { s with
    rxMem := Function.update s.rxMem b ⟨(s.rxMem b).prepared - 1, false⟩
    rxMemRange := fun i => if index ≤ i ∧ i < index + kRxMemBatchSize ∧ s.bufPhyAddr i = 0 then
      s.asm.bufMbuf i else s.rxMemRange i }

/-- Arm the buffers of a batch in order, up to one that gets no device address. -/
def rxArmSegs (pageSize : ℕ) : List (ℕ × Option ℕ) → RxSide → Bool × RxSide
  | [], s => (true, s)
  | (_, none) :: _, s => (false, s)
  | (i, some pa) :: rest, s => rxArmSegs pageSize rest { s with
      bufPhyAddr := Function.update s.bufPhyAddr i pa
      desc := Function.update s.desc i (armedDesc pageSize i pa) }

/-- One batch; `false` is the jump to `done`. -/
def rxMapBatch (pageSize index : ℕ) (r : MapResult) (s : RxSide) : Bool × RxSide :=
  let b := index >>> kRxMemBaseShift
  let u := rxUnmapBatch index s
  let prepared : RxMem := ⟨(u.rxMem b).prepared + 1, false⟩
  match r with
  | .initFails => (false, u)
  | .prepareFails => (false, u)
  | .setFails => (false, { u with rxMem := Function.update u.rxMem b prepared })
  | .segs pa => rxArmSegs pageSize
      ((List.range kRxMemBatchSize).map fun k => (index + k, pa k))
      { u with rxMem := Function.update u.rxMem b { prepared with bound := true } }

/-- Map `count` batches from `index` on; the outcomes are taken from `maps` in order. -/
def rxMapBuffers (pageSize : ℕ) (maps : ℕ → MapResult) (index : ℕ) : ℕ → RxSide → ℕ × RxSide
  | 0, s => (index, s)
  | count + 1, s =>
      let r := rxMapBatch pageSize index (maps 0) s
      if r.1 then
        let index := (index + kRxMemBatchSize) &&& kRxDescMask
        rxMapBuffers pageSize (fun n => maps (n + 1)) index count
          { r.2 with rxMapNextIndex := index }
      else (index, r.2)

/-- After the loop: the batches it completed, if any (`count` is a `UInt16`). -/
def rxRemap (cfg : RxConfig) (maps : ℕ → MapResult) (c : RxCall) : RxCall :=
  if c.numMap = 0 then c
  else { c with side :=
    (rxMapBuffers cfg.pageSize maps c.side.rxMapNextIndex (c.numMap % 2 ^ 16) c.side).2 }

def rxInterruptVTD (cfg : RxConfig) (alloc : ℕ → Alloc) (maps : ℕ → MapResult) (maxCount fuel : ℕ)
    (s : RxSide) : Option RxCall :=
  (whileFuel (rxGoOn maxCount) (rxInterruptVTDStep cfg alloc) fuel (.start s)).map (rxRemap cfg maps)

/-! ### What the loop body does to one descriptor -/

theorem rxReceive_good (maxCopySize i len : ℕ) (d : RxDesc) (a : Alloc) (s : RxAssembly) :
    (rxReceive maxCopySize i len d a s).good =
      (a != .failed && !(decide (maxCopySize < len) && a == .chained) && d.opts1 &&& lastFrag != 0) := by
  simp only [rxReceive, replaceOrCopyPacket, getPacket]
  by_cases hlen : maxCopySize < len <;> cases a <;> simp [hlen]

/-- **`goodPkts` counts the packets that complete a frame.** -/
theorem rxHandle_good (lenMask : UInt32) (maxCopySize i : ℕ) (d : RxDesc) (a : Alloc)
    (s : RxAssembly) : (rxHandle lenMask maxCopySize i d a s).good = rxDelivers lenMask maxCopySize d a := by
  unfold rxHandle rxDelivers rxTakes
  by_cases hres : d.opts1 &&& rxRES = 0
  · rw [if_neg (by simp [hres]), rxReceive_good]
    simp [hres]
  · rw [if_pos (by simp [hres])]
    simp [hres]

/-- An armed descriptor belongs to the chip. -/
theorem armedDesc_own (pageSize i addr : ℕ) : (armedDesc pageSize i addr).own = true := by
  have hbit : (rxWord1 pageSize i &&& descOwn).toBitVec.getLsbD 31 = true := by
    simp [rxWord1, descOwn]
  have hne : rxWord1 pageSize i &&& descOwn ≠ 0 := by
    intro h
    rw [h] at hbit
    exact absurd hbit (by decide)
  simp [RxDesc.own, armedDesc, hne]

/-! ### The mbufs of the receive buffers -/

section Buffers

open RxAssembly

variable (newPkt : ℕ) (pktSize : ℤ) (status1 status2 : UInt32) (s : RxAssembly)

theorem addFragment_bufMbuf : (addFragment newPkt pktSize s).bufMbuf = s.bufMbuf := by
  unfold addFragment
  split <;> rfl

theorem addLastFragment_bufMbuf : (addLastFragment newPkt pktSize s).bufMbuf = s.bufMbuf := by
  unfold addLastFragment
  split
  · split <;> rfl
  · rfl

theorem passOn_bufMbuf : (passOn newPkt status1 status2 s).bufMbuf = s.bufMbuf := by
  show (noteVlanTag status2 (getChecksumResult newPkt status1 status2 s)).bufMbuf = _
  unfold noteVlanTag getChecksumResult
  split <;> split <;> rfl

theorem handlePkt_bufMbuf : (handlePkt newPkt pktSize status1 status2 s).bufMbuf = s.bufMbuf := by
  unfold handlePkt
  split
  · rw [passOn_bufMbuf, addLastFragment_bufMbuf]
  · exact addFragment_bufMbuf newPkt pktSize s

variable {maxCopySize i len : ℕ} {d : RxDesc} {a : Alloc} {s}

theorem rxReceive_bufMbuf_eq : (rxReceive maxCopySize i len d a s).asm.bufMbuf =
    Function.update s.bufMbuf i ((rxReceive maxCopySize i len d a s).newBuf.getD (s.bufMbuf i)) := by
  simp only [rxReceive, replaceOrCopyPacket, getPacket]
  by_cases hlen : maxCopySize < len <;> cases a <;> simp [hlen, handlePkt_bufMbuf,
    discardPacketFragment, noteResourceError, mbufFree, mbufCopy, write]

/-- **The buffer handled has the new mbuf, if there is one**, and the others keep theirs. -/
theorem rxHandle_bufMbuf_eq {lenMask : UInt32} : (rxHandle lenMask maxCopySize i d a s).asm.bufMbuf =
    Function.update s.bufMbuf i ((rxHandle lenMask maxCopySize i d a s).newBuf.getD (s.bufMbuf i)) := by
  unfold rxHandle
  split
  · exact (Function.update_eq_self i s.bufMbuf).symm
  · exact rxReceive_bufMbuf_eq

/-- A buffer keeps its mbuf unless it is the one handled and gets a new one. -/
theorem rxHandle_bufMbuf {lenMask : UInt32} {j : ℕ}
    (h : j ≠ i ∨ (rxHandle lenMask maxCopySize i d a s).newBuf = none) :
    (rxHandle lenMask maxCopySize i d a s).asm.bufMbuf j = s.bufMbuf j := by
  rw [rxHandle_bufMbuf_eq]
  rcases h with hne | hnone
  · exact Function.update_of_ne hne _ _
  · rw [hnone, Option.getD_none, Function.update_eq_self]

end Buffers

/-! ### The addresses of the receive buffers -/

/-- On the plain path: `phyAddr` is the address of the buffer's mbuf, and so is the address in a
descriptor that belongs to the chip. -/
structure Addressed (cfg : RxConfig) (s : RxSide) : Prop where
  phyAddr : ∀ i < kNumRxDesc, s.bufPhyAddr i = cfg.phys (s.asm.bufMbuf i)
  armed : ∀ i < kNumRxDesc, (s.desc i).own = true → (s.desc i).addr = cfg.phys (s.asm.bufMbuf i)

/-- **A round of `rxInterrupt` arms its descriptor with the address of the mbuf it leaves there.** -/
theorem Addressed.round {cfg : RxConfig} {c : RxCall} (h : Addressed cfg c.side) (alloc : ℕ → Alloc)
    (hlt : c.side.rxNextDescIndex < kNumRxDesc) :
    Addressed cfg (rxInterruptStep cfg alloc c).side := by
  have hbuf : (rxInterruptStep cfg alloc c).side.asm.bufMbuf = Function.update c.side.asm.bufMbuf
      c.side.rxNextDescIndex ((c.handle 0x3fff cfg.maxCopySize alloc).newBuf.getD
        (c.side.asm.bufMbuf c.side.rxNextDescIndex)) := rxHandle_bufMbuf_eq
  have haddr : rxAddr cfg (c.side.bufPhyAddr c.side.rxNextDescIndex)
      (c.handle 0x3fff cfg.maxCopySize alloc).newBuf
        = cfg.phys ((rxInterruptStep cfg alloc c).side.asm.bufMbuf c.side.rxNextDescIndex) := by
    rw [hbuf, Function.update_self, rxAddr, h.phyAddr _ hlt]
    cases (c.handle 0x3fff cfg.maxCopySize alloc).newBuf with
    | none => rfl
    | some m => rfl
  refine ⟨fun i hi => ?_, fun i hi => ?_⟩
  · show Function.update c.side.bufPhyAddr c.side.rxNextDescIndex _ i = _
    by_cases hcur : i = c.side.rxNextDescIndex
    · rw [hcur, Function.update_self, haddr]
    · rw [Function.update_of_ne hcur, hbuf, Function.update_of_ne hcur]
      exact h.phyAddr i hi
  · show (Function.update c.side.desc c.side.rxNextDescIndex _ i).own = true →
      (Function.update c.side.desc c.side.rxNextDescIndex _ i).addr = _
    by_cases hcur : i = c.side.rxNextDescIndex
    · rw [hcur, Function.update_self]
      exact fun _ => haddr
    · rw [Function.update_of_ne hcur, hbuf, Function.update_of_ne hcur]
      exact h.armed i hi

/-! ### What mapping leaves alone -/

theorem rxArmSegs_frame (pageSize : ℕ) (l : List (ℕ × Option ℕ)) (s : RxSide) :
    (rxArmSegs pageSize l s).2.asm = s.asm ∧
    (rxArmSegs pageSize l s).2.rxNextDescIndex = s.rxNextDescIndex := by
  induction l generalizing s with
  | nil => exact ⟨rfl, rfl⟩
  | cons p l ih =>
      obtain ⟨i, pa⟩ := p
      cases pa with
      | none => exact ⟨rfl, rfl⟩
      | some pa => exact ih _

theorem rxMapBatch_frame (pageSize index : ℕ) (r : MapResult) (s : RxSide) :
    (rxMapBatch pageSize index r s).2.asm = s.asm ∧
    (rxMapBatch pageSize index r s).2.rxNextDescIndex = s.rxNextDescIndex := by
  cases r with
  | initFails => exact ⟨rfl, rfl⟩
  | prepareFails => exact ⟨rfl, rfl⟩
  | setFails => exact ⟨rfl, rfl⟩
  | segs pa => exact rxArmSegs_frame pageSize _ _

/-- Mapping changes neither the frame being put together nor where the loop goes on. -/
theorem rxMapBuffers_frame (pageSize : ℕ) (maps : ℕ → MapResult) (index count : ℕ) (s : RxSide) :
    (rxMapBuffers pageSize maps index count s).2.asm = s.asm ∧
    (rxMapBuffers pageSize maps index count s).2.rxNextDescIndex = s.rxNextDescIndex := by
  induction count generalizing maps index s with
  | zero => exact ⟨rfl, rfl⟩
  | succ count ih =>
      have hbatch := rxMapBatch_frame pageSize index (maps 0) s
      rw [rxMapBuffers]
      split
      · have h := ih (fun n => maps (n + 1)) ((index + kRxMemBatchSize) &&& kRxDescMask)
          { (rxMapBatch pageSize index (maps 0) s).2 with
            rxMapNextIndex := (index + kRxMemBatchSize) &&& kRxDescMask }
        exact ⟨h.1.trans hbatch.1, h.2.trans hbatch.2⟩
      · exact hbatch

theorem rxRemap_frame (cfg : RxConfig) (maps : ℕ → MapResult) (c : RxCall) :
    (rxRemap cfg maps c).side.asm = c.side.asm ∧
    (rxRemap cfg maps c).side.rxNextDescIndex = c.side.rxNextDescIndex ∧
    (rxRemap cfg maps c).goodPkts = c.goodPkts ∧ (rxRemap cfg maps c).visited = c.visited := by
  unfold rxRemap
  split
  · exact ⟨rfl, rfl, rfl, rfl⟩
  · have h := rxMapBuffers_frame cfg.pageSize maps c.side.rxMapNextIndex (c.numMap % 2 ^ 16) c.side
    exact ⟨h.1, h.2, rfl, rfl⟩

/-! ### The state after some rounds -/

section Rounds

variable (lenMask : UInt32) (maxCopySize : ℕ) (alloc : ℕ → Alloc) (s : RxSide)

/-- The ring index of the descriptor `k` places on, and that descriptor. -/
def rxIndex (k : ℕ) : ℕ := slot kNumRxDesc s.rxNextDescIndex k

def rxAt (k : ℕ) : RxDesc := s.desc (rxIndex s k)

/-- What handling the next `k` descriptors makes of the assembly. -/
def asmAfter : ℕ → RxAssembly
  | 0 => s.asm
  | k + 1 => (rxHandle lenMask maxCopySize (rxIndex s k) (rxAt s k) (alloc (s.seen + k))
      (asmAfter k)).asm

/-- How many of the next `k` descriptors deliver a packet. -/
def goodAfter : ℕ → ℕ
  | 0 => 0
  | k + 1 => goodAfter k + (rxDelivers lenMask maxCopySize (rxAt s k) (alloc (s.seen + k))).toNat

/-- The call `c` has handled the next `k` descriptors of `s`. -/
structure AfterRounds (k : ℕ) (c : RxCall) : Prop where
  next : c.side.rxNextDescIndex = rxIndex s k
  seen : c.side.seen = s.seen + k
  asm : c.side.asm = asmAfter lenMask maxCopySize alloc s k
  good : c.goodPkts = goodAfter lenMask maxCopySize alloc s k
  visited : c.visited = (List.range k).map (rxIndex s)

variable {lenMask maxCopySize alloc s}

theorem rxIndex_lt (s : RxSide) (k : ℕ) : rxIndex s k < kNumRxDesc := slot_lt (by decide) _ _

/-- Within one lap no ring index comes twice. -/
theorem rxIndex_inj {j k : ℕ} (hj : j < kNumRxDesc) (hk : k < kNumRxDesc)
    (h : rxIndex s j = rxIndex s k) : j = k := slot_inj hj hk h

theorem AfterRounds.start (h : s.rxNextDescIndex < kNumRxDesc) :
    AfterRounds lenMask maxCopySize alloc s 0 (.start s) :=
  ⟨(slot_zero h).symm, rfl, rfl, rfl, rfl⟩

/-- One round of either loop: it handles the descriptor it finds. -/
theorem AfterRounds.step {k : ℕ} {c : RxCall} (h : AfterRounds lenMask maxCopySize alloc s k c)
    (hdesc : c.side.desc c.side.rxNextDescIndex = rxAt s k) (desc : ℕ → RxDesc)
    (bufPhyAddr : ℕ → ℕ) (numMap : ℕ) :
    AfterRounds lenMask maxCopySize alloc s (k + 1)
      (c.next (c.handle lenMask maxCopySize alloc) desc bufPhyAddr numMap) := by
  have hhandle : c.handle lenMask maxCopySize alloc = rxHandle lenMask maxCopySize (rxIndex s k)
      (rxAt s k) (alloc (s.seen + k)) (asmAfter lenMask maxCopySize alloc s k) := by
    rw [RxCall.handle, hdesc, h.next, h.seen, h.asm]
  refine ⟨?_, ?_, ?_, ?_, ?_⟩
  · show (c.side.rxNextDescIndex + 1) &&& kRxDescMask = rxIndex s (k + 1)
    rw [and_kRxDescMask, h.next]
    exact slot_slot _ _ k 1
  · show c.side.seen + 1 = s.seen + (k + 1)
    rw [h.seen, Nat.add_assoc]
  · show (c.handle lenMask maxCopySize alloc).asm = _
    rw [hhandle, asmAfter]
  · show c.goodPkts + (c.handle lenMask maxCopySize alloc).good.toNat = _
    rw [hhandle, rxHandle_good, h.good, goodAfter]
  · show c.visited ++ [c.side.rxNextDescIndex] = _
    rw [h.visited, h.next, List.range_succ, List.map_append, List.map_singleton]

end Rounds

section Loops

variable (cfg : RxConfig) (alloc : ℕ → Alloc) {s : RxSide}

/-- **After `k` rounds of `rxInterruptVTD`** the ring is what it was. -/
theorem rxInterruptVTDStep_iterate (h : s.rxNextDescIndex < kNumRxDesc) (k : ℕ) :
    AfterRounds 0x1fff cfg.maxCopySize alloc s k ((rxInterruptVTDStep cfg alloc)^[k] (.start s)) ∧
    ((rxInterruptVTDStep cfg alloc)^[k] (.start s)).side.desc = s.desc := by
  induction k with
  | zero => exact ⟨AfterRounds.start h, rfl⟩
  | succ k ih =>
      rw [Function.iterate_succ_apply']
      refine ⟨ih.1.step ?_ _ _ _, ih.2⟩
      rw [ih.2, ih.1.next, rxAt]

/-- **After `k` rounds of `rxInterrupt`**, within one lap, the descriptors behind are the chip's and
the ones ahead are what they were. -/
theorem rxInterruptStep_iterate (h : s.rxNextDescIndex < kNumRxDesc) {k : ℕ} (hk : k ≤ kNumRxDesc) :
    AfterRounds 0x3fff cfg.maxCopySize alloc s k ((rxInterruptStep cfg alloc)^[k] (.start s)) ∧
    (∀ j < k, (((rxInterruptStep cfg alloc)^[k] (.start s)).side.desc (rxIndex s j)).own = true) ∧
    (∀ j, k ≤ j → j < kNumRxDesc →
      ((rxInterruptStep cfg alloc)^[k] (.start s)).side.desc (rxIndex s j) = rxAt s j) := by
  induction k with
  | zero => exact ⟨AfterRounds.start h, fun j hj => absurd hj (by omega), fun j _ _ => rfl⟩
  | succ k ih =>
      obtain ⟨hrounds, hbehind, hahead⟩ := ih (by omega)
      rw [Function.iterate_succ_apply']
      set c := (rxInterruptStep cfg alloc)^[k] (.start s)
      have hdesc : c.side.desc c.side.rxNextDescIndex = rxAt s k := by
        rw [hrounds.next, hahead k (le_refl k) (by omega)]
      have hwrite : ∀ j, (rxInterruptStep cfg alloc c).side.desc (rxIndex s j) =
          Function.update c.side.desc (rxIndex s k) (armedDesc cfg.pageSize (rxIndex s k)
            (rxAddr cfg (c.side.bufPhyAddr (rxIndex s k))
              (c.handle 0x3fff cfg.maxCopySize alloc).newBuf)) (rxIndex s j) := by
        intro j
        rw [← hrounds.next]
        rfl
      refine ⟨hrounds.step hdesc _ _ _, fun j hj => ?_, fun j hj hlt => ?_⟩
      · rw [hwrite]
        rcases Nat.lt_succ_iff_lt_or_eq.mp hj with hlt | rfl
        · rw [Function.update_of_ne
            (fun he => absurd (rxIndex_inj (by omega) (by omega) he) (by omega))]
          exact hbehind j hlt
        · rw [Function.update_self]
          exact armedDesc_own _ _ _
      · rw [hwrite, Function.update_of_ne
          (fun he => absurd (rxIndex_inj (by omega) (by omega) he) (by omega))]
        exact hahead j (by omega) hlt

/-- The test of the mapped loop after `k` rounds. -/
theorem rxGoOn_vtd (h : s.rxNextDescIndex < kNumRxDesc) (maxCount k : ℕ) :
    rxGoOn maxCount ((rxInterruptVTDStep cfg alloc)^[k] (.start s)) =
      (!(rxAt s k).own && decide (goodAfter 0x1fff cfg.maxCopySize alloc s k < maxCount)) := by
  obtain ⟨hrounds, hdesc⟩ := rxInterruptVTDStep_iterate cfg alloc h k
  rw [rxGoOn, hdesc, hrounds.next, hrounds.good, rxAt]

/-- The test of the plain loop after `k` rounds, within the first lap. -/
theorem rxGoOn_plain (h : s.rxNextDescIndex < kNumRxDesc) (maxCount : ℕ) {k : ℕ}
    (hk : k < kNumRxDesc) :
    rxGoOn maxCount ((rxInterruptStep cfg alloc)^[k] (.start s)) =
      (!(rxAt s k).own && decide (goodAfter 0x3fff cfg.maxCopySize alloc s k < maxCount)) := by
  obtain ⟨hrounds, _, hahead⟩ := rxInterruptStep_iterate cfg alloc h (Nat.le_of_lt hk)
  rw [rxGoOn, hrounds.next, hahead k (le_refl k) hk, hrounds.good]

/-- A whole lap of the plain loop has given every descriptor back. -/
theorem rxGoOn_plain_lap (h : s.rxNextDescIndex < kNumRxDesc) (maxCount : ℕ) :
    rxGoOn maxCount ((rxInterruptStep cfg alloc)^[kNumRxDesc] (.start s)) = false := by
  obtain ⟨hrounds, hbehind, _⟩ := rxInterruptStep_iterate cfg alloc h (le_refl kNumRxDesc)
  have hlap : rxIndex s kNumRxDesc = rxIndex s 0 := Nat.add_mod_right _ _
  rw [rxGoOn, hrounds.next, hlap, hbehind 0 (by decide)]
  rfl

/-- **`rxInterrupt` ends**: it takes at most one round for each descriptor of the ring. -/
theorem rxInterrupt_stopsAt (h : s.rxNextDescIndex < kNumRxDesc) (maxCount : ℕ) :
    ∃ k ≤ kNumRxDesc, StopsAt (rxGoOn maxCount) (rxInterruptStep cfg alloc) (.start s) k :=
  exists_stopsAt (rxGoOn_plain_lap cfg alloc h maxCount)

end Loops

end Rtl812x.Kext
