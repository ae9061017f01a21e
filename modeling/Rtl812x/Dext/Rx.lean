import Rtl812x.Lib.Slots
import Rtl812x.Dext.Fifo
import Rtl812x.Hw.Regs

/-!
# The receive side of the dext

The receive state and the functions that change it: `rxRingRefill` gives every empty slot a packet
and arms its descriptor, `rxRingRearm` re-arms the whole ring, `rxRingService` delivers completed
descriptors, `rxDequeueAction` and `rxEnqueueAction` exchange packets with the framework, and
`rxRingDrop` is the loop of `setInterfaceEnable(false)` that gives the ring's packets back.

Two things outside the driver are parameters: `iova p`, the device address of a packet's buffer,
and `outcome n`, what the `n`-th call of `allocatePacket` does (`none` fails, `some k` takes the
`k`-th packet of the pool).  The packets in the pool and those the framework holds are part of the
state, so that every packet is somewhere.
-/

namespace Rtl812x.Dext

def kRxBufferSize : UInt32 := 9216
def kRxPoolPackets : ℕ := kNumRxDesc + 512
def rxV4F : UInt32 := 0x40000000
def rxUDPT : UInt32 := 0x00040000
def rxTCPT : UInt32 := 0x00020000
def rxIPF : UInt32 := 0x00010000
def rxUDPF : UInt32 := 0x00008000
def rxTCPF : UInt32 := 0x00004000

/-- The checksum flags the driver sets on a received packet. -/
structure RxCsum where
  ipChecked : Bool
  ipValid : Bool
  dataValid : Bool
  pseudoHdr : Bool
deriving DecidableEq, Repr

/-- What a call did to the receive side. -/
inductive RxEvent where
  | push (pkt : ℕ)
  | dealloc (pkt : ℕ)
  | requestEnqueue
  | requestDequeue
deriving DecidableEq, Repr

/-- The receive state. -/
structure RxSide where
  rxRing : ℕ → RxDesc
  rxPkt : ℕ → Option ℕ
  rxNextDescIndex : ℕ
  rxDoneFifo : PacketFifo
  rxFreeFifo : PacketFifo
  /-- The packets in the pool. -/
  rxPool : List ℕ
  /-- The packets the framework holds. -/
  framework : List ℕ
  /-- How often `allocatePacket` has been called. -/
  allocCalls : ℕ
  dataLength : ℕ → ℕ
  rxChecksumInfo : ℕ → Option RxCsum
  rxDelivered : ℕ
  trace : List RxEvent

/-- The zero-filled state, with all packets in the pool. -/
def RxSide.init : RxSide where
  rxRing := fun _ => ⟨0, 0, 0⟩
  rxPkt := fun _ => none
  rxNextDescIndex := 0
  rxDoneFifo := PacketFifo.empty
  rxFreeFifo := PacketFifo.empty
  rxPool := List.range kRxPoolPackets
  framework := []
  allocCalls := 0
  dataLength := fun _ => 0
  rxChecksumInfo := fun _ => none
  rxDelivered := 0
  trace := []

/-- The first word of an armed descriptor. -/
def rxArmWord (i : ℕ) : UInt32 :=
  let word1 := kRxBufferSize ||| descOwn
  if i = kRxLastDesc then word1 ||| ringEnd else word1

theorem rxArmWord_own (i : ℕ) : rxArmWord i &&& descOwn ≠ 0 := by
  unfold rxArmWord
  split <;> decide

/-- Only the last descriptor ends the ring. -/
theorem rxArmWord_ringEnd_iff (i : ℕ) : rxArmWord i &&& ringEnd ≠ 0 ↔ i = 1023 := by
  by_cases hlast : i = kRxLastDesc
  · rw [rxArmWord, if_pos hlast]
    exact iff_of_true (by decide) hlast
  · rw [rxArmWord, if_neg hlast]
    exact iff_of_false (by decide) hlast

section Refill

variable (iova : ℕ → ℕ) (outcome : ℕ → Option ℕ)

/-! ### Refill -/

/-- `allocatePacket`: the packet the pool gives out, if any. -/
def rxAllocate (s : RxSide) : Option ℕ × RxSide :=
  let s' := { s with allocCalls := s.allocCalls + 1 }
  match outcome s.allocCalls with
  | none => (none, s')
  | some k =>
    match s.rxPool[k]? with
    | none => (none, s')
    | some p => (some p, { s' with rxPool := s.rxPool.eraseIdx k })

/-- A packet for an empty slot: from the framework's FIFO, else from the pool. -/
def rxTake (s : RxSide) : Option ℕ × RxSide :=
  let s' := { s with rxFreeFifo := (fifoPop s.rxFreeFifo).2 }
  match (fifoPop s.rxFreeFifo).1 with
  | some p => (some p, s')
  | none => rxAllocate outcome s'

/-- Put a packet into a slot and give its descriptor to the chip. -/
def rxArm (i p : ℕ) (s : RxSide) : RxSide :=
  { s with
    rxPkt := Function.update s.rxPkt i (some p)
    rxRing := Function.update s.rxRing i ⟨rxArmWord i, 0, iova p⟩ }

/-- The refill loop over the slots `is`; `false` when it ran out of packets. -/
def rxRefillLoop : List ℕ → RxSide → Bool × RxSide
  | [], s => (true, s)
  | i :: is, s =>
    match s.rxPkt i with
    | some _ => rxRefillLoop is s
    | none =>
      match rxTake outcome s with
      | (none, s') => (false, s')
      | (some p, s') => rxRefillLoop is (rxArm iova i p s')

def rxRingRefill (s : RxSide) : Bool × RxSide :=
  rxRefillLoop iova outcome (List.range kNumRxDesc) s

/-- Arm every descriptor whose slot holds a packet. -/
def rxRearmSlots (s : RxSide) : RxSide :=
  { s with
    rxRing := fun i =>
      if i < kNumRxDesc ∧ s.rxPkt i ≠ none then ⟨rxArmWord i, 0, (s.rxRing i).addr⟩
      else s.rxRing i }

/-- Re-arm the whole ring and restart at descriptor 0. -/
def rxRingRearm (s : RxSide) : RxSide :=
  (rxRingRefill iova outcome { rxRearmSlots s with rxNextDescIndex := 0 }).2

/-! ### Service -/

/-- The frame length of a completed descriptor, without the FCS. -/
def rxLength (status : UInt32) : ℤ := ((status &&& 0x3fff).toNat : ℤ) - 4

/-- The descriptor holds an error or part of a frame. -/
def rxBad (status : UInt32) : Prop :=
  status &&& rxRES ≠ 0 ∨ rxLength status ≤ 0 ∨ status &&& firstFrag = 0 ∨ status &&& lastFrag = 0

instance (status : UInt32) : Decidable (rxBad status) :=
  inferInstanceAs (Decidable (_ ∨ _ ∨ _ ∨ _))

/-- The checksum verdict of a descriptor's second word. -/
def rxCsumFlags (opts2 : UInt32) : RxCsum :=
  let dataValid := (opts2 &&& rxTCPT != 0 && opts2 &&& rxTCPF == 0) ||
    (opts2 &&& rxUDPT != 0 && opts2 &&& rxUDPF == 0)
  { ipChecked := opts2 &&& rxV4F != 0
    ipValid := opts2 &&& rxV4F != 0 && opts2 &&& rxIPF == 0
    dataValid := dataValid
    pseudoHdr := dataValid }

/-- Give a descriptor back to the chip with its buffer. -/
def rxRecycle (index : ℕ) (s : RxSide) : RxSide :=
  { s with
    rxRing := Function.update s.rxRing index { s.rxRing index with opts1 := rxArmWord index } }

/-- Queue a received packet for the framework; a full FIFO gives it back to the pool. -/
def rxComplete (p : ℕ) (s : RxSide) : RxSide :=
  { s with
    rxDoneFifo := (fifoPush s.rxDoneFifo p).2
    rxPool := if (fifoPush s.rxDoneFifo p).1 then s.rxPool else s.rxPool ++ [p]
    trace := (if (fifoPush s.rxDoneFifo p).1 then .push p else .dealloc p) :: s.trace }

/-- Deliver the packet of a good descriptor; its slot becomes empty. -/
def rxDeliver (index p : ℕ) (s : RxSide) : RxSide :=
  let desc := s.rxRing index
  let csum := rxCsumFlags desc.opts2
  rxComplete p
    { s with
      rxPkt := Function.update s.rxPkt index none
      dataLength := Function.update s.dataLength p (rxLength desc.opts1).toNat
      rxChecksumInfo :=
        if csum.ipChecked || csum.dataValid then
          Function.update s.rxChecksumInfo p (some csum)
        else s.rxChecksumInfo
      rxDelivered := s.rxDelivered + 1 }

/-- Move on to the next descriptor. -/
def rxAdvance (s : RxSide) : RxSide :=
  { s with rxNextDescIndex := (s.rxNextDescIndex + 1) &&& kRxDescMask }

/-- Handle the descriptor at `rxNextDescIndex`, which holds packet `p`. -/
def rxServiceOne (p : ℕ) (s : RxSide) : RxSide :=
  if rxBad (s.rxRing s.rxNextDescIndex).opts1 then rxAdvance (rxRecycle s.rxNextDescIndex s)
  else rxAdvance (rxDeliver s.rxNextDescIndex p s)

/-- The service loop; also whether it delivered a packet. -/
def rxServiceLoop : ℕ → Bool → RxSide → Bool × RxSide
  | 0, delivered, s => (delivered, s)
  | budget + 1, delivered, s =>
    let desc := s.rxRing s.rxNextDescIndex
    if desc.own then (delivered, s)
    else
      match s.rxPkt s.rxNextDescIndex with
      | none => (delivered, s)
      | some p => rxServiceLoop budget (delivered || !decide (rxBad desc.opts1)) (rxServiceOne p s)

/-- Ask the framework to collect packets and to submit empty ones. -/
def rxAnnounce (delivered : Bool) (s : RxSide) : RxSide :=
  if delivered then { s with trace := .requestDequeue :: .requestEnqueue :: s.trace } else s

/-- Deliver the completed descriptors and refill the ring. -/
def rxRingService (s : RxSide) : RxSide :=
  let r := rxServiceLoop kNumRxDesc false s
  rxAnnounce r.1 (rxRingRefill iova outcome r.2).2

end Refill

/-! ### Queue actions -/

/-- The framework submits empty packets; the loop stops at a full FIFO. -/
def rxDequeueLoop : List ℕ → RxSide → ℕ × RxSide
  | [], s => (0, s)
  | p :: ps, s =>
    if (fifoPush s.rxFreeFifo p).1 then
      let r := rxDequeueLoop ps
        { s with rxFreeFifo := (fifoPush s.rxFreeFifo p).2, framework := s.framework.erase p }
      (r.1 + 1, r.2)
    else (0, s)

def rxDequeueAction (packets : List ℕ) (s : RxSide) : ℕ × RxSide := rxDequeueLoop packets s

/-- The framework collects up to `arrayCapacity` received packets. -/
def rxEnqueueAction : ℕ → RxSide → List ℕ × RxSide
  | 0, s => ([], s)
  | capacity + 1, s =>
    let s' := { s with rxDoneFifo := (fifoPop s.rxDoneFifo).2 }
    match (fifoPop s.rxDoneFifo).1 with
    | none => ([], s')
    | some p =>
      let r := rxEnqueueAction capacity { s' with framework := p :: s.framework }
      (p :: r.1, r.2)

/-! ### Disable -/

/-- The packets of the ring, by slot. -/
def RxSide.ringPkts (s : RxSide) : List ℕ := Slots.held kNumRxDesc s.rxPkt

/-- Drop the ring's packets back into the pool. -/
def rxRingDrop (s : RxSide) : RxSide :=
  { s with
    rxPkt := fun i => if i < kNumRxDesc then none else s.rxPkt i
    rxPool := s.rxPool ++ s.ringPkts }

/-! ### The chip -/

/-- The chip writes a descriptor's two status words. -/
def chipComplete (i : ℕ) (opts1 opts2 : UInt32) (s : RxSide) : RxSide :=
  { s with rxRing := Function.update s.rxRing i { s.rxRing i with opts1 := opts1, opts2 := opts2 } }

end Rtl812x.Dext
