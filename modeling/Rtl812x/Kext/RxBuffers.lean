import Rtl812x.Kext.RxHandle
import Rtl812x.Kext.RxLoop
import Rtl812x.Kext.RxMaps

/-!
# Who has the receive buffers

Each of the 1024 entries of `rxBufArray` points to the mbuf the chip writes to.  A round of the receive
loops may hand that mbuf on and put a new one in its place, copy out of it, or leave it; a packet that
is handed on goes on the chain of the frame being put together, to the network stack or back to the
pool.  `replaceOrCopyPacket` works on the pointer itself and overwrites it with whatever `getPacket`
returns, so the pointers are kept here as the source has them (`rxBufPointer`), null included.

* `RxAssembly.gone` — the mbufs freed or passed on so far;
* `RxAssembly.places` — every mbuf in use: in a receive buffer, on the chain, or gone;
* `rxHandle_places` — **a round moves mbufs and adds at most the one it allocates**;
* `rxBufPointer_some` — the pointer of the receive buffer never becomes null;
* `rxBuffers_owned` — in every run the receive buffers are distinct mbufs, nobody else has one, and on
  the path without an IOMMU the chip writes to no other mbuf.
-/

namespace Rtl812x.Kext

open RxAssembly Runs Slots

/-! ### Where the mbufs are -/

/-- The mbufs an event gives away. -/
def RxEvent.gone : RxEvent → List ℕ
  | .write _ => []
  | .free ms => ms
  | .enqueue chain _ => chain

/-- The mbufs freed or passed to the network stack so far. -/
def RxAssembly.gone (s : RxAssembly) : List ℕ := s.trace.flatMap RxEvent.gone

/-- The mbufs that have left the receive buffers: on the chain, or gone. -/
def RxAssembly.taken (s : RxAssembly) : List ℕ := s.rxPacket ++ s.gone

/-- The mbufs of the first `n` receive buffers. -/
def bufMbufs (n : ℕ) (f : ℕ → ℕ) : List ℕ := (List.range n).map f

/-- Every mbuf in use. -/
def RxAssembly.places (s : RxAssembly) : List ℕ := bufMbufs kNumRxDesc s.bufMbuf ++ s.taken

section Taken

variable (m newPkt tail : ℕ) (ms : List ℕ) (pktSize : ℤ) (status1 status2 : UInt32) (s : RxAssembly)

theorem gone_of_trace {t : RxAssembly} (es : List RxEvent) (h : t.trace = s.trace ++ es) :
    t.gone = s.gone ++ es.flatMap RxEvent.gone := by
  rw [gone, h, List.flatMap_append]
  rfl

theorem write_gone (f : Mbuf → Mbuf) : (write m f s).gone = s.gone := by
  rw [gone_of_trace s [.write m] rfl]
  exact List.append_nil _

theorem mbufFree_gone : (mbufFree ms s).gone = s.gone ++ ms := by
  rw [gone_of_trace s [.free ms] rfl]
  simp [RxEvent.gone]

/-- Discarding the frame frees its chain. -/
theorem discardPacketFragment_taken : (discardPacketFragment s).taken.Perm s.taken := by
  have hgone : (discardPacketFragment s).gone = s.gone ++ s.rxPacket := by
    by_cases h : s.rxPacket = []
    · have htrace : (discardPacketFragment s).trace = s.trace ++ [] := by
        simp [discardPacketFragment, h]
      rw [gone_of_trace s _ htrace, h]
      rfl
    · have htrace : (discardPacketFragment s).trace = s.trace ++ [.free s.rxPacket] := by
        simp [discardPacketFragment, h]
      rw [gone_of_trace s _ htrace]
      simp [RxEvent.gone]
  show (discardPacketFragment s).gone.Perm _
  rw [hgone]
  exact List.perm_append_comm

theorem linkFragment_taken : (linkFragment tail newPkt pktSize s).taken.Perm (newPkt :: s.taken) := by
  have hgone : (linkFragment tail newPkt pktSize s).gone = s.gone := by
    show (write tail id (mbufClearPktHdr newPkt (mbufSetLen newPkt pktSize s))).gone = _
    simp only [mbufClearPktHdr, mbufSetLen, write_gone]
  show ((s.rxPacket ++ [newPkt]) ++ (linkFragment tail newPkt pktSize s).gone).Perm _
  rw [hgone, List.append_assoc]
  exact List.perm_middle

theorem startPacket_taken (h : s.rxPacket = []) :
    (startPacket newPkt pktSize s).taken.Perm (newPkt :: s.taken) := by
  have hgone : (startPacket newPkt pktSize s).gone = s.gone := by
    show (mbufSetLen newPkt pktSize s).gone = _
    rw [mbufSetLen, write_gone]
  show ([newPkt] ++ (startPacket newPkt pktSize s).gone).Perm _
  rw [hgone, taken, h]
  exact List.Perm.refl _

theorem addFragment_taken : (addFragment newPkt pktSize s).taken.Perm (newPkt :: s.taken) := by
  unfold addFragment
  split
  · exact linkFragment_taken newPkt _ pktSize s
  case h_2 htail => exact startPacket_taken newPkt pktSize s (List.getLast?_eq_none_iff.mp htail)

/-- A last buffer goes on the chain, or is freed if it holds no more than the FCS. -/
theorem addLastFragment_taken : (addLastFragment newPkt pktSize s).taken.Perm (newPkt :: s.taken) := by
  unfold addLastFragment
  split
  · split
    · exact linkFragment_taken newPkt _ pktSize s
    case isFalse =>
      show (s.rxPacket ++ (mbufAdjustLen _ pktSize (mbufFree [newPkt] s)).gone).Perm _
      rw [mbufAdjustLen, write_gone, mbufFree_gone, ← List.append_assoc]
      exact List.perm_append_singleton _ _
  case h_2 htail => exact startPacket_taken newPkt pktSize s (List.getLast?_eq_none_iff.mp htail)

/-- Passing the frame on gives its chain away. -/
theorem passOn_taken : (passOn newPkt status1 status2 s).taken.Perm s.taken := by
  have hsame := readyToPassOn_sameChain newPkt status1 status2 s
  have hready : (readyToPassOn newPkt status1 status2 s).gone = s.gone := by
    rw [readyToPassOn, mbufPktHdrSetLen, write_gone]
    unfold noteVlanTag getChecksumResult
    split <;> split <;> simp only [setVlanTag, mbufSetCsumPerformed, write_gone]
  have hgone : (passOn newPkt status1 status2 s).gone = s.gone ++ s.rxPacket := by
    set t := readyToPassOn newPkt status1 status2 s
    rw [gone_of_trace t [.enqueue t.rxPacket (packetOf t.mbuf t.rxPacket)] rfl, hready,
      hsame.rxPacket]
    simp [RxEvent.gone]
  show (passOn newPkt status1 status2 s).gone.Perm _
  rw [hgone]
  exact List.perm_append_comm

/-- A packet that is kept goes on the chain, up the stack or back to the pool. -/
theorem handlePkt_taken : (handlePkt newPkt pktSize status1 status2 s).taken.Perm (newPkt :: s.taken) := by
  unfold handlePkt
  split
  · exact (passOn_taken _ _ _ _).trans (addLastFragment_taken _ _ _)
  · exact addFragment_taken _ _ _

end Taken

/-! ### One round -/

/-- A new mbuf in a receive buffer: the old one is left over. -/
theorem bufMbufs_update {n i : ℕ} (hi : i < n) (f : ℕ → ℕ) (m : ℕ) :
    (f i :: bufMbufs n (Function.update f i m)).Perm (m :: bufMbufs n f) := by
  have hheld : ∀ g : ℕ → ℕ, bufMbufs n g = held n (fun j => some (g j)) := fun g => by
    rw [bufMbufs, ← List.filterMap_eq_map]
    rfl
  have hput : (fun j => some (Function.update f i m j)) =
      Function.update (fun j => some (f j)) i (some m) := by
    funext j
    by_cases hj : j = i
    · rw [hj, Function.update_self, Function.update_self]
    · rw [Function.update_of_ne hj, Function.update_of_ne hj]
  rw [hheld, hheld, hput]
  have hold := held_take (f := fun j => some (f j)) hi rfl
  exact ((held_overwrite hi _ m).cons _).trans ((List.Perm.swap _ _ _).trans (hold.symm.cons m))

/-- The mbufs of `s'` are those of `s` in other places, and at most one more, which is new. -/
def Moved (s s' : RxAssembly) : Prop :=
  s'.nextMbuf = s.nextMbuf ∧ s'.places.Perm s.places ∨
    s'.nextMbuf = s.nextMbuf + 1 ∧ s'.places.Perm (s.nextMbuf :: s.places)

theorem handlePkt_nextMbuf (newPkt : ℕ) (pktSize : ℤ) (status1 status2 : UInt32) (s : RxAssembly) :
    (handlePkt newPkt pktSize status1 status2 s).nextMbuf = s.nextMbuf := by
  by_cases h : status1 &&& lastFrag = 0
  · exact (handlePkt_linked h newPkt pktSize status2 s).nextMbuf
  · obtain ⟨pkt, hpass, -⟩ := handlePkt_passedOn h newPkt pktSize status2 s
    exact hpass.nextMbuf

section Round

variable {i len : ℕ} {s : RxAssembly}

/-- A dropped buffer: the chain is freed, and the replacement too if it was a chain itself. -/
theorem moved_of_dropped (stats : RxStats) : Moved s (discardPacketFragment { s with stats := stats }) :=
  Or.inl ⟨rfl, (discardPacketFragment_taken { s with stats := stats }).append_left _⟩

theorem moved_of_chained (stats : RxStats) : Moved s (mbufFree [s.nextMbuf]
    (discardPacketFragment { withNewMbuf s with stats := stats })) := by
  refine Or.inr ⟨rfl, ?_⟩
  have htaken : (mbufFree [s.nextMbuf]
      (discardPacketFragment { withNewMbuf s with stats := stats })).taken.Perm
      (s.nextMbuf :: s.taken) := by
    show ([] ++ (mbufFree [s.nextMbuf] _).gone).Perm _
    rw [List.nil_append, mbufFree_gone]
    exact (List.perm_append_singleton _ _).trans
      ((discardPacketFragment_taken { withNewMbuf s with stats := stats }).cons _)
  exact (htaken.append_left _).trans List.perm_middle

/-- The mbuf of the receive buffer is handed on, and a new one takes its place. -/
theorem moved_of_replaced (hi : i < kNumRxDesc) (pktSize : ℤ) (status1 status2 : UInt32) :
    Moved s (handlePkt (s.bufMbuf i) pktSize status1 status2
      { withNewMbuf s with bufMbuf := Function.update s.bufMbuf i s.nextMbuf }) := by
  refine Or.inr ⟨handlePkt_nextMbuf _ _ _ _ _, ?_⟩
  rw [places, handlePkt_bufMbuf]
  exact ((handlePkt_taken _ _ _ _ _).append_left _).trans
    (List.perm_middle.trans ((bufMbufs_update hi s.bufMbuf s.nextMbuf).append_right s.taken))

/-- The bytes of the receive buffer are copied, and the copy is handed on. -/
theorem moved_of_copied (pktSize : ℤ) (status1 status2 : UInt32) :
    Moved s (handlePkt s.nextMbuf pktSize status1 status2
      (mbufCopy s.nextMbuf (s.bufMbuf i) len (withNewMbuf s))) := by
  refine Or.inr ⟨handlePkt_nextMbuf _ _ _ _ _, ?_⟩
  rw [places, handlePkt_bufMbuf]
  refine ((handlePkt_taken _ _ _ _ _).append_left _).trans ?_
  have htaken : (mbufCopy s.nextMbuf (s.bufMbuf i) len (withNewMbuf s)).taken = s.taken := by
    show s.rxPacket ++ (mbufCopy _ _ _ _).gone = _
    rw [mbufCopy, write_gone]
    rfl
  rw [htaken]
  exact List.perm_middle

/-- **A round moves mbufs and adds at most the one it allocates**, whatever the descriptor says and
whatever `getPacket` returns. -/
theorem rxHandle_places (lenMask : UInt32) (maxCopySize : ℕ) (d : RxDesc) (a : Alloc)
    (hi : i < kNumRxDesc) : Moved s (rxHandle lenMask maxCopySize i d a s).asm := by
  unfold rxHandle
  split
  · exact moved_of_dropped _
  · by_cases hfail : a = .failed
    · rw [hfail, rxReceive, replaceOrCopyPacket_failed]
      exact moved_of_dropped _
    · by_cases hlen : maxCopySize < rxLen lenMask d
      · simp only [rxReceive, replaceOrCopyPacket_replaced hfail hlen, if_true]
        split
        · exact moved_of_chained _
        · exact moved_of_replaced hi _ _ _
      · simp only [rxReceive, replaceOrCopyPacket_copied hfail hlen, Bool.false_eq_true, if_false]
        exact moved_of_copied _ _ _

end Round

/-! ### The pointers -/

/-- The pointers `replaceOrCopyPacket` leaves: the packet to pass on, `*mp`, and whether that is a new
mbuf.  `got` is what `getPacket` returns. -/
def replaceOrCopyPointers (maxCopySize len : ℕ) (mp got : Option ℕ) : Option ℕ × Option ℕ × Bool :=
  if maxCopySize < len then
    -- m = *mp; *mp = getPacket(); if that is null, *mp = m; m = NULL
    if got = none then (none, mp, true) else (mp, got, true)
  else (got, mp, false)

/-- What a round leaves in `rxBufArray[i].mbuf`, if it finds `mp` there. -/
def rxBufPointer (lenMask : UInt32) (maxCopySize : ℕ) (d : RxDesc) (a : Alloc) (mp got : Option ℕ) :
    Option ℕ :=
  if d.opts1 &&& rxRES != 0 then mp
  else
    match replaceOrCopyPointers maxCopySize (rxLen lenMask d) mp got with
    | (none, _, _) => mp
    | (some _, bufPkt, replaced) =>
        if replaced then
          if a = .chained then mp else bufPkt
        else mp

theorem replaceOrCopyPointers_none (maxCopySize len : ℕ) (mp : Option ℕ) :
    replaceOrCopyPointers maxCopySize len mp none = (none, mp, decide (maxCopySize < len)) := by
  by_cases hlen : maxCopySize < len <;> simp [replaceOrCopyPointers, hlen]

/-- **The pointer is not null after a round if it was not before**, and it is to the mbuf of the
receive buffer. -/
theorem rxBufPointer_some (lenMask : UInt32) (maxCopySize i : ℕ) (d : RxDesc) (a : Alloc)
    (s : RxAssembly) :
    rxBufPointer lenMask maxCopySize d a (some (s.bufMbuf i)) (getPacket a s).1 =
      some ((rxHandle lenMask maxCopySize i d a s).asm.bufMbuf i) := by
  unfold rxBufPointer rxHandle
  split
  · rfl
  · by_cases hfail : a = .failed
    · rw [hfail, rxReceive, replaceOrCopyPacket_failed,
        show (getPacket .failed s).1 = none from rfl, replaceOrCopyPointers_none]
      rfl
    · rw [getPacket_of_ne hfail, replaceOrCopyPointers]
      by_cases hlen : maxCopySize < rxLen lenMask d
      · simp only [rxReceive, replaceOrCopyPacket_replaced hfail hlen, if_pos hlen, reduceCtorEq,
          if_false, if_true]
        split
        · rfl
        · rw [handlePkt_bufMbuf]
          exact congrArg some (Function.update_self i s.nextMbuf s.bufMbuf).symm
      · simp only [rxReceive, replaceOrCopyPacket_copied hfail hlen, if_neg hlen, Bool.false_eq_true,
          if_false]
        rw [handlePkt_bufMbuf]
        rfl

/-! ### Runs -/

/-- The receive side, with the mbuf pointers of `rxBufArray`. -/
structure RxBuffers where
  side : RxSide
  rxBufArray : ℕ → Option ℕ

inductive BufOp where
  /-- the chip writes a descriptor -/
  | chip (i : ℕ) (d : RxDesc)
  /-- a round of `rxInterrupt` -/
  | plain (a : Alloc)
  /-- a round of `rxInterruptVTD` -/
  | mapped (a : Alloc)
  /-- a call of `rxMapBuffers` -/
  | remap (maps : ℕ → MapResult) (index count : ℕ)
  /-- the receive half of `clearRxTxRings`, behind `rxMapBuffers` -/
  | clear

/-- A round of either loop, which leaves `side`. -/
def RxBuffers.round (lenMask : UInt32) (maxCopySize : ℕ) (a : Alloc) (side : RxSide) (s : RxBuffers) :
    RxBuffers where
  side := side
  rxBufArray := Function.update s.rxBufArray s.side.rxNextDescIndex
    (rxBufPointer lenMask maxCopySize (s.side.desc s.side.rxNextDescIndex) a
      (s.rxBufArray s.side.rxNextDescIndex) (getPacket a s.side.asm).1)

def bufStep (cfg : RxConfig) (s : RxBuffers) : BufOp → RxBuffers
  | .chip i d => { s with side := { s.side with desc := Function.update s.side.desc i d } }
  | .plain a =>
      s.round 0x3fff cfg.maxCopySize a (rxInterruptStep cfg (fun _ => a) (.start s.side)).side
  | .mapped a =>
      s.round 0x1fff cfg.maxCopySize a (rxInterruptVTDStep cfg (fun _ => a) (.start s.side)).side
  | .remap maps index count =>
      { s with side := (rxMapBuffers cfg.pageSize maps index count s.side).2 }
  | .clear => { s with side := rxArmAll cfg.pageSize s.side }

/-- The state `setupRxResources` leaves: an mbuf of its own in every receive buffer, no frame begun and
nothing given away. -/
structure BuffersSetUp (s : RxBuffers) : Prop where
  index_lt : s.side.rxNextDescIndex < kNumRxDesc
  filled : ∀ i < kNumRxDesc, s.rxBufArray i = some (s.side.asm.bufMbuf i)
  buf_lt : ∀ i < kNumRxDesc, s.side.asm.bufMbuf i < s.side.asm.nextMbuf
  buf_inj : ∀ i < kNumRxDesc, ∀ j < kNumRxDesc, s.side.asm.bufMbuf i = s.side.asm.bufMbuf j → i = j
  noFrame : s.side.asm.rxPacket = []
  noEvents : s.side.asm.trace = []

/-- The receive buffers have distinct mbufs, and no one of them was freed, passed to the network stack
or linked into the frame being put together. -/
structure BuffersOwned (s : RxBuffers) : Prop where
  nonnull : ∀ i < kNumRxDesc, s.rxBufArray i ≠ none
  distinct : ∀ i < kNumRxDesc, ∀ j < kNumRxDesc, s.rxBufArray i = s.rxBufArray j → i = j
  unshared : ∀ i < kNumRxDesc, ∀ m, s.rxBufArray i = some m →
    m ∉ s.side.asm.gone ∧ m ∉ s.side.asm.rxPacket

/-- A step of the path without an IOMMU: the chip gives descriptors back, and only `rxInterrupt` and
`clearRxTxRings` arm them. -/
def BufOp.Plain : BufOp → Prop
  | .chip _ d => d.own = false
  | .plain _ => True
  | .clear => True
  | .mapped _ => False
  | .remap _ _ _ => False

/-- Each descriptor the chip has is at the address of the mbuf in its receive buffer. -/
def ChipAtBuffers (cfg : RxConfig) (s : RxBuffers) : Prop :=
  ∀ i < kNumRxDesc, (s.side.desc i).own = true →
    ∃ m, s.rxBufArray i = some m ∧ (s.side.desc i).addr = cfg.phys m

/-- No mbuf is in two places, those not allocated are in none, and the pointers are to the mbufs. -/
structure BufInv (s : RxBuffers) : Prop where
  index_lt : s.side.rxNextDescIndex < kNumRxDesc
  filled : ∀ i < kNumRxDesc, s.rxBufArray i = some (s.side.asm.bufMbuf i)
  nodup : s.side.asm.places.Nodup
  lt : ∀ m ∈ s.side.asm.places, m < s.side.asm.nextMbuf

theorem Moved.inv {s s' : RxAssembly} (h : Moved s s')
    (hs : s.places.Nodup ∧ ∀ m ∈ s.places, m < s.nextMbuf) :
    s'.places.Nodup ∧ ∀ m ∈ s'.places, m < s'.nextMbuf := by
  rcases h with ⟨hnext, hperm⟩ | ⟨hnext, hperm⟩
  · rw [hnext]
    exact ⟨hperm.nodup_iff.mpr hs.1, fun m hm => hs.2 m (hperm.mem_iff.mp hm)⟩
  · have hnew : s.nextMbuf ∉ s.places := fun hm => Nat.lt_irrefl _ (hs.2 _ hm)
    refine ⟨hperm.nodup_iff.mpr (List.nodup_cons.mpr ⟨hnew, hs.1⟩), fun m hm => ?_⟩
    rw [hnext]
    rcases List.mem_cons.mp (hperm.mem_iff.mp hm) with rfl | hold
    · exact Nat.lt_succ_self _
    · exact Nat.lt_succ_of_lt (hs.2 m hold)

section Inv

variable {s : RxBuffers}

theorem BuffersSetUp.inv (h : BuffersSetUp s) : BufInv s := by
  have hplaces : s.side.asm.places = bufMbufs kNumRxDesc s.side.asm.bufMbuf := by
    rw [places, taken, gone, h.noFrame, h.noEvents]
    exact List.append_nil _
  refine ⟨h.index_lt, h.filled, ?_, ?_⟩
  · rw [hplaces]
    exact List.nodup_range.map_on fun i hi j hj he =>
      h.buf_inj i (List.mem_range.mp hi) j (List.mem_range.mp hj) he
  · rw [hplaces]
    intro m hm
    obtain ⟨i, hi, rfl⟩ := List.mem_map.mp hm
    exact h.buf_lt i (List.mem_range.mp hi)

theorem mem_bufMbufs {n i : ℕ} (hi : i < n) (f : ℕ → ℕ) : f i ∈ bufMbufs n f :=
  List.mem_map_of_mem (List.mem_range.mpr hi)

theorem BufInv.owned (h : BufInv s) : BuffersOwned s := by
  obtain ⟨hbufs, -, hdisj⟩ := List.nodup_append'.mp h.nodup
  refine ⟨fun i hi => by rw [h.filled i hi]; exact Option.some_ne_none _, ?_, ?_⟩
  · intro i hi j hj he
    rw [h.filled i hi, h.filled j hj, Option.some_inj] at he
    exact List.inj_on_of_nodup_map hbufs (List.mem_range.mpr hi) (List.mem_range.mpr hj) he
  · intro i hi m hm
    rw [h.filled i hi, Option.some_inj] at hm
    have hnot : m ∉ s.side.asm.taken := hdisj (hm ▸ mem_bufMbufs hi s.side.asm.bufMbuf)
    exact ⟨fun hg => hnot (List.mem_append_right _ hg), fun hg => hnot (List.mem_append_left _ hg)⟩

/-- A round of either loop. -/
theorem BufInv.round (h : BufInv s) {lenMask : UInt32} {maxCopySize : ℕ} {a : Alloc} {side : RxSide}
    (hasm : side.asm = (rxHandle lenMask maxCopySize s.side.rxNextDescIndex
      (s.side.desc s.side.rxNextDescIndex) a s.side.asm).asm)
    (hindex : side.rxNextDescIndex < kNumRxDesc) :
    BufInv (s.round lenMask maxCopySize a side) := by
  have hmoved : Moved s.side.asm _ :=
    rxHandle_places lenMask maxCopySize (s.side.desc s.side.rxNextDescIndex) a h.index_lt
  have hplaces := hmoved.inv ⟨h.nodup, h.lt⟩
  rw [← hasm] at hplaces
  refine ⟨hindex, fun i hi => ?_, hplaces.1, hplaces.2⟩
  show Function.update s.rxBufArray s.side.rxNextDescIndex _ i = some (side.asm.bufMbuf i)
  by_cases hcur : i = s.side.rxNextDescIndex
  · rw [hcur, Function.update_self, h.filled _ h.index_lt, hasm]
    exact rxBufPointer_some _ _ _ _ _ _
  · rw [Function.update_of_ne hcur, h.filled i hi, hasm, rxHandle_bufMbuf (Or.inl hcur)]

/-- **Every step keeps the invariant.** -/
theorem BufInv.step (cfg : RxConfig) (s : RxBuffers) (op : BufOp) (h : BufInv s) :
    BufInv (bufStep cfg s op) := by
  have hnext : (s.side.rxNextDescIndex + 1) &&& kRxDescMask < kNumRxDesc := by
    rw [and_kRxDescMask]
    exact Nat.mod_lt _ (by decide)
  cases op with
  | chip i d => exact ⟨h.index_lt, h.filled, h.nodup, h.lt⟩
  | plain a => exact h.round rfl hnext
  | mapped a => exact h.round rfl hnext
  | remap maps index count =>
      obtain ⟨hasm, hindex⟩ := rxMapBuffers_frame cfg.pageSize maps index count s.side
      refine ⟨?_, ?_, ?_, ?_⟩
      · exact hindex.symm ▸ h.index_lt
      · exact hasm.symm ▸ h.filled
      · exact hasm.symm ▸ h.nodup
      · exact hasm.symm ▸ h.lt
  | clear =>
      have hmoved : Moved s.side.asm (discardPacketFragment s.side.asm) :=
        moved_of_dropped s.side.asm.stats
      obtain ⟨hnodup, hlt⟩ := hmoved.inv ⟨h.nodup, h.lt⟩
      exact ⟨show 0 < kNumRxDesc by decide, h.filled, hnodup, hlt⟩

/-- **On the plain path every step keeps the addresses** with the mbufs they are of. -/
theorem Addressed.bufStep {cfg : RxConfig} {op : BufOp} (h : Addressed cfg s.side) (hinv : BufInv s)
    (hop : op.Plain) : Addressed cfg (Kext.bufStep cfg s op).side := by
  cases op with
  | chip i d =>
      refine ⟨h.phyAddr, fun j hj => ?_⟩
      show (Function.update s.side.desc i d j).own = true → (Function.update s.side.desc i d j).addr = _
      by_cases hij : j = i
      · rw [hij, Function.update_self]
        intro hown
        rw [show d.own = false from hop] at hown
        cases hown
      · rw [Function.update_of_ne hij]
        exact h.armed j hj
  | plain a => exact h.round _ hinv.index_lt
  | clear =>
      refine ⟨h.phyAddr, fun i hi _ => ?_⟩
      show (if i < kNumRxDesc then armedDesc cfg.pageSize i (s.side.bufPhyAddr i)
        else s.side.desc i).addr = _
      rw [if_pos hi]
      exact h.phyAddr i hi
  | mapped a => exact hop.elim
  | remap maps index count => exact hop.elim

theorem BufInv.chipAtBuffers {cfg : RxConfig} (h : BufInv s) (haddr : Addressed cfg s.side) :
    ChipAtBuffers cfg s :=
  fun i hi hown => ⟨_, h.filled i hi, haddr.armed i hi hown⟩

end Inv

/-- The rounds of a call, each of which does to the receive side what the step `op` does. -/
theorem bufRounds_exec {cfg : RxConfig} (alloc : ℕ → Alloc) {step : RxCall → RxCall}
    {op : Alloc → BufOp}
    (hop : ∀ s c, c.side = s.side → (step c).side = (bufStep cfg s (op (alloc c.side.seen))).side)
    (k : ℕ) {s : RxBuffers} {c : RxCall} (hc : c.side = s.side) :
    ∃ as : List Alloc, (step^[k] c).side = (exec (bufStep cfg) s (as.map op)).side := by
  induction k generalizing s c with
  | zero => exact ⟨[], hc⟩
  | succ k ih =>
      obtain ⟨as, has⟩ := ih (hop s c hc)
      exact ⟨alloc c.side.seen :: as, has⟩

/-- **After any number of rounds of a call** the receive side is one that a run of rounds reaches. -/
theorem rxInterrupt_rounds_exec (cfg : RxConfig) (alloc : ℕ → Alloc) (k : ℕ) (s : RxBuffers) :
    (∃ as : List Alloc, ((rxInterruptStep cfg alloc)^[k] (.start s.side)).side =
      (exec (bufStep cfg) s (as.map .plain)).side) ∧
    ∃ as : List Alloc, ((rxInterruptVTDStep cfg alloc)^[k] (.start s.side)).side =
      (exec (bufStep cfg) s (as.map .mapped)).side := by
  refine ⟨bufRounds_exec alloc ?_ k rfl, bufRounds_exec alloc ?_ k rfl⟩
  · intro s c hc
    show (rxInterruptStep cfg alloc c).side =
      (rxInterruptStep cfg (fun _ => alloc c.side.seen) (.start s.side)).side
    rw [← hc]
    rfl
  · intro s c hc
    show (rxInterruptVTDStep cfg alloc c).side =
      (rxInterruptVTDStep cfg (fun _ => alloc c.side.seen) (.start s.side)).side
    rw [← hc]
    rfl

/-- **Nobody else has a receive buffer.**  Whatever the chip writes to the descriptors, whatever
`getPacket` returns and however often the rings are cleared or mapped anew, after every round of
`rxInterrupt` and of `rxInterruptVTD` the receive buffers hold distinct mbufs, none of which was freed,
passed on or put on the chain.  On the path without an IOMMU these are the mbufs at the addresses the
chip writes to; with one, what the chip's addresses lead to is up to the mapper. -/
theorem rxBuffers_owned (cfg : RxConfig) (s : RxBuffers) (h : BuffersSetUp s) (ops : List BufOp) :
    BuffersOwned (exec (bufStep cfg) s ops) ∧
      (Addressed cfg s.side → Along (bufStep cfg) (fun _ op => op.Plain) s ops →
        ChipAtBuffers cfg (exec (bufStep cfg) s ops)) := by
  refine ⟨(invariant_exec (BufInv.step cfg) h.inv).owned, fun haddr hplain => ?_⟩
  have hstep : ∀ s op, BufInv s ∧ Addressed cfg s.side → op.Plain →
      BufInv (bufStep cfg s op) ∧ Addressed cfg (bufStep cfg s op).side :=
    fun s op hs hop => ⟨BufInv.step cfg s op hs.1, hs.2.bufStep hs.1 hop⟩
  obtain ⟨hinv, haddr'⟩ := invariant_along hstep ⟨h.inv, haddr⟩ hplain
  exact hinv.chipAtBuffers haddr'

/-- A ring with the mbufs 0 to 1023 in its buffers. -/
def freshBuffers : RxBuffers :=
  ⟨{ sideWith (fun i => armedDesc 4096 i i) with bufPhyAddr := id }, some⟩

theorem freshBuffers_setUp : BuffersSetUp freshBuffers :=
  ⟨by decide, fun _ _ => rfl, fun i hi => hi, fun i _ j _ h => h, rfl, rfl⟩

/-- A first buffer is swapped, the one behind it fails to be replaced, and the last one is copied. -/
def swappedThenFailed : List BufOp :=
  [.chip 0 ⟨firstFrag ||| 4096, 0, 0⟩, .plain .single, .chip 1 ⟨4096, 0, 1⟩, .plain .chained,
    .chip 2 ⟨lastFrag ||| 64, 0, 2⟩, .plain .single]

theorem rxBuffers_owned_swappedThenFailed :
    BuffersOwned (exec (bufStep page4k) freshBuffers swappedThenFailed) ∧
      ChipAtBuffers page4k (exec (bufStep page4k) freshBuffers swappedThenFailed) ∧
      (exec (bufStep page4k) freshBuffers swappedThenFailed).side.asm.gone = [0, 1025, 1026] := by
  obtain ⟨howned, hchip⟩ := rxBuffers_owned page4k freshBuffers freshBuffers_setUp swappedThenFailed
  refine ⟨howned, hchip ⟨fun _ _ => rfl, fun _ _ _ => rfl⟩ ?_, ?_⟩
  · exact ⟨rfl, trivial, rfl, trivial, rfl, trivial, trivial⟩
  · decide +kernel

end Rtl812x.Kext
