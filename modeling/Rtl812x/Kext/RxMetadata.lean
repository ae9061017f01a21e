import Rtl812x.Kext.RxWrites

/-!
# Checksum results of received frames

A round of a receive loop takes a packet off its descriptor and handles it.  The packet was in a receive
buffer or is new, so it is neither freed nor on the chain; with that, `Kext.RxWrites` says which rounds
write to a freed mbuf and which packets get the flags of their last descriptor.

* `Received` — what a packet that is taken leaves, whether it was copied or its mbuf replaced;
* `rxHandle_live`, `rxHandle_csum` — **what a round adds**;
* `rxMetadata_sound_iff` — **the delivered packet has the flags of its last descriptor and no freed mbuf
  is written**, as long as no frame of two or more buffers ends in a descriptor with flags;
* `jumbo_metadata_lost` — a frame of two buffers, on either path.
-/

namespace Rtl812x.Kext

open RxAssembly Runs Trace

/-! ### One round -/

/-- No mbuf is in two places, and those not allocated are in none. -/
structure Placed (s : RxAssembly) : Prop where
  nodup : s.places.Nodup
  lt : ∀ m ∈ s.places, m < s.nextMbuf

section Placed

variable {s : RxAssembly} {m i : ℕ}

theorem Placed.chain_not_gone (h : Placed s) (hm : m ∈ s.rxPacket) : m ∉ s.gone :=
  (List.nodup_append'.mp (List.nodup_append'.mp h.nodup).2.1).2.2 hm

theorem Placed.buf_not_taken (h : Placed s) (hi : i < kNumRxDesc) : s.bufMbuf i ∉ s.taken :=
  (List.nodup_append'.mp h.nodup).2.2 (mem_bufMbufs hi s.bufMbuf)

theorem Placed.buf_inj (h : Placed s) {j : ℕ} (hi : i < kNumRxDesc) (hj : j < kNumRxDesc)
    (he : s.bufMbuf i = s.bufMbuf j) : i = j :=
  List.inj_on_of_nodup_map (List.nodup_append'.mp h.nodup).1 (List.mem_range.mpr hi)
    (List.mem_range.mpr hj) he

theorem Placed.buf_lt (h : Placed s) (hi : i < kNumRxDesc) : s.bufMbuf i < s.nextMbuf :=
  h.lt _ (List.mem_append_left _ (mem_bufMbufs hi s.bufMbuf))

theorem Placed.chain_lt (h : Placed s) (hm : m ∈ s.rxPacket) : m < s.nextMbuf :=
  h.lt m (List.mem_append_right _ (List.mem_append_left _ hm))

theorem Placed.new_not_gone (h : Placed s) : s.nextMbuf ∉ s.gone := fun hm =>
  Nat.lt_irrefl _ (h.lt _ (List.mem_append_right _ (List.mem_append_right _ hm)))

end Placed

/-- No flags on an mbuf of a receive buffer or of the chain. -/
structure CsumClear (s : RxAssembly) : Prop where
  buf : ∀ i < kNumRxDesc, (s.mbuf (s.bufMbuf i)).csum = (0, 0)
  chain : ∀ m ∈ s.rxPacket, (s.mbuf m).csum = (0, 0)

/-- `s'` is `s` once `newPkt` has been taken out of a receive buffer. -/
structure Received (s s' : RxAssembly) (newPkt : ℕ) : Prop where
  rxPacket : s'.rxPacket = s.rxPacket
  enqueued : s'.enqueued = s.enqueued
  live : s'.Live ↔ s.Live
  apart : Apart newPkt s'
  clear : CsumClear s'
  newPkt_csum : (s'.mbuf newPkt).csum = (0, 0)
  newPkt_buf : ∀ j < kNumRxDesc, s'.bufMbuf j ≠ newPkt

section Receive

variable {s : RxAssembly} {i : ℕ} (hplaced : Placed s) (hclear : CsumClear s) (hi : i < kNumRxDesc)
include hplaced hclear hi

/-- The mbuf of the receive buffer is handed on and a new one put in its place. -/
theorem received_replaced : Received s
    { withNewMbuf s with bufMbuf := Function.update s.bufMbuf i s.nextMbuf } (s.bufMbuf i) := by
  have hold : ∀ m < s.nextMbuf, (withNewMbuf s).mbuf m = s.mbuf m := fun m hm => withNewMbuf_mbuf hm
  have hnew : (withNewMbuf s).mbuf s.nextMbuf = newMbuf := Function.update_self _ _ _
  have hnot := hplaced.buf_not_taken hi
  refine ⟨rfl, rfl, Iff.rfl, ⟨?_, ?_, ?_⟩, ⟨?_, ?_⟩, ?_, ?_⟩
  · exact fun hf => hnot (List.mem_append_right _ (freed_sub_gone s hf))
  · exact fun m hm hf => hplaced.chain_not_gone hm (freed_sub_gone s hf)
  · exact fun m hm he => hnot (List.mem_append_left _ (he ▸ hm))
  · intro j hj
    by_cases hji : j = i
    · rw [hji]
      show ((withNewMbuf s).mbuf (Function.update s.bufMbuf i s.nextMbuf i)).csum = _
      rw [Function.update_self, hnew]
      rfl
    · show ((withNewMbuf s).mbuf (Function.update s.bufMbuf i s.nextMbuf j)).csum = _
      rw [Function.update_of_ne hji, hold _ (hplaced.buf_lt hj)]
      exact hclear.buf j hj
  · intro m hm
    show ((withNewMbuf s).mbuf m).csum = _
    rw [hold m (hplaced.chain_lt hm)]
    exact hclear.chain m hm
  · show ((withNewMbuf s).mbuf (s.bufMbuf i)).csum = _
    rw [hold _ (hplaced.buf_lt hi)]
    exact hclear.buf i hi
  · intro j hj he
    by_cases hji : j = i
    · rw [hji] at he
      have hfresh : s.nextMbuf = s.bufMbuf i := (Function.update_self i _ s.bufMbuf).symm.trans he
      exact absurd hfresh (hplaced.buf_lt hi).ne'
    · have hsame : s.bufMbuf j = s.bufMbuf i := (Function.update_of_ne hji _ s.bufMbuf).symm.trans he
      exact hji (hplaced.buf_inj hj hi hsame)

/-- The bytes of the receive buffer are copied to a new mbuf. -/
theorem received_copied (len : ℕ) : Received s
    (mbufCopy s.nextMbuf (s.bufMbuf i) len (withNewMbuf s)) s.nextMbuf := by
  set s' := mbufCopy s.nextMbuf (s.bufMbuf i) len (withNewMbuf s) with hs'
  have hold : ∀ m < s.nextMbuf, s'.mbuf m = s.mbuf m := fun m hm => by
    rw [hs', mbufCopy, write_mbuf_of_ne (Nat.ne_of_lt hm), withNewMbuf_mbuf hm]
  have hcopy : (s'.mbuf s.nextMbuf).csum = (s.mbuf (s.bufMbuf i)).csum := by
    rw [hs', mbufCopy, write_mbuf_self, withNewMbuf_mbuf (hplaced.buf_lt hi)]
  have hfreed : s'.freed = s.freed := write_freed _ _
  have hfresh : s.nextMbuf ∉ s.freed := fun hf => hplaced.new_not_gone (freed_sub_gone s hf)
  refine ⟨rfl, write_enqueued _ _ _, ?_, ⟨?_, ?_, ?_⟩, ⟨?_, ?_⟩, ?_, ?_⟩
  · exact (write_live _ _).trans (and_iff_left hfresh)
  · rw [hfreed]
    exact hfresh
  · intro m hm hf
    rw [hfreed] at hf
    exact hplaced.chain_not_gone hm (freed_sub_gone s hf)
  · exact fun m hm => (hplaced.chain_lt hm).ne
  · intro j hj
    show (s'.mbuf (s.bufMbuf j)).csum = _
    rw [hold _ (hplaced.buf_lt hj)]
    exact hclear.buf j hj
  · intro m hm
    rw [hold m (hplaced.chain_lt hm)]
    exact hclear.chain m hm
  · rw [hcopy]
    exact hclear.buf i hi
  · exact fun j hj => (hplaced.buf_lt hj).ne

/-- **A packet that is taken** is handled from `handle_pkt` on. -/
theorem rxHandle_received {lenMask : UInt32} {maxCopySize : ℕ} {d : RxDesc} {a : Alloc}
    (h : rxTakes lenMask maxCopySize d a = true) :
    ∃ newPkt s', Received s s' newPkt ∧ (rxHandle lenMask maxCopySize i d a s).asm =
      handlePkt newPkt (rxLen lenMask d) d.opts1 d.opts2 s' := by
  rcases rxHandle_taken_cases h i s with hasm | hasm
  · exact ⟨_, _, received_replaced hplaced hclear hi, hasm⟩
  · exact ⟨_, _, received_copied hplaced hclear hi _, hasm⟩

end Receive

/-- Handling the packet leaves no flags on what stays with the driver. -/
theorem Received.handled {s s' : RxAssembly} {newPkt : ℕ} (h : Received s s' newPkt) (pktSize : ℤ)
    (status1 status2 : UInt32) : CsumClear (handlePkt newPkt pktSize status1 status2 s') := by
  have hbuf := handlePkt_bufMbuf newPkt pktSize status1 status2 s'
  by_cases hlast : status1 &&& lastFrag = 0
  · have hadd : handlePkt newPkt pktSize status1 status2 s' = addFragment newPkt pktSize s' :=
      if_neg (by simp [hlast])
    have hchain := (handlePkt_linked hlast newPkt pktSize status2 s').rxPacket
    refine ⟨fun i hi => ?_, fun m hm => ?_⟩
    · rw [hbuf, hadd, addFragment_csum]
      exact h.clear.buf i hi
    · rw [hchain, List.mem_append, List.mem_singleton] at hm
      rw [hadd, addFragment_csum]
      rcases hm with hm | rfl
      · exact h.clear.chain m hm
      · exact h.newPkt_csum
  · obtain ⟨pkt, hpass, -⟩ := handlePkt_passedOn hlast newPkt pktSize status2 s'
    refine ⟨fun i hi => ?_, fun m hm => ?_⟩
    · have hready : (handlePkt newPkt pktSize status1 status2 s').mbuf =
          (readyToPassOn newPkt status1 status2
            (addLastFragment newPkt (pktSize - kIOEthernetCRCSize) s')).mbuf := by
        rw [handlePkt, if_pos (by simpa using hlast)]
        rfl
      rw [hbuf, hready, readyToPassOn_csum, if_neg (fun hc => h.newPkt_buf i hi hc.2),
        addLastFragment_csum]
      exact h.clear.buf i hi
    · rw [hpass.rxPacket] at hm
      cases hm

section Round

variable {s : RxAssembly} {i : ℕ} (hplaced : Placed s) (hclear : CsumClear s) (hi : i < kNumRxDesc)
  (lenMask : UInt32) (maxCopySize : ℕ) (d : RxDesc) (a : Alloc)
include hplaced hclear hi

theorem rxHandle_csumClear : CsumClear (rxHandle lenMask maxCopySize i d a s).asm := by
  cases htakes : rxTakes lenMask maxCopySize d a with
  | true =>
      obtain ⟨newPkt, s', hrec, hasm⟩ := rxHandle_received hplaced hclear hi htakes
      rw [hasm]
      exact hrec.handled _ _ _
  | false =>
      obtain ⟨-, hdrop⟩ := rxHandle_dropped htakes i s
      refine ⟨fun j hj => ?_, fun m hm => ?_⟩
      · rw [hdrop.bufMbuf, hdrop.old _ (hplaced.buf_lt hj)]
        exact hclear.buf j hj
      · rw [hdrop.rxPacket] at hm
        cases hm

/-- **A round writes to a freed mbuf** if it ends a frame begun before with a descriptor that has flags
and no more bytes than the FCS has. -/
theorem rxHandle_live : (rxHandle lenMask maxCopySize i d a s).asm.Live ↔
    s.Live ∧ ¬ (rxDelivers lenMask maxCopySize d a = true ∧ HasFlags d.opts1 d.opts2 ∧ s.rxPacket ≠ [] ∧
      rxLen lenMask d ≤ 4) := by
  cases htakes : rxTakes lenMask maxCopySize d a with
  | true =>
      obtain ⟨newPkt, s', hrec, hasm⟩ := rxHandle_received hplaced hclear hi htakes
      have hsize : (rxLen lenMask d : ℤ) ≤ 4 ↔ rxLen lenMask d ≤ 4 := by omega
      rw [hasm, handlePkt_live _ _ _ hrec.apart, hrec.live, hrec.rxPacket, hsize]
      simp [rxDelivers, htakes]
  | false =>
      obtain ⟨hasm, -⟩ := rxHandle_dropped htakes i s
      have hkept : (rxHandle lenMask maxCopySize i d a s).asm.Live ↔ s.Live := by
        rw [hasm]
        split
        · exact discardPacketFragment_live
        · split
          · exact discardPacketFragment_live
          · exact (mbufFree_live _).trans discardPacketFragment_live
      simp [hkept, rxDelivers, htakes]

/-- **A round passes on a packet with the flags of its descriptor** unless there are some and the frame
was begun before. -/
theorem rxHandle_csum :
    (∀ pkt ∈ (rxHandle lenMask maxCopySize i d a s).asm.enqueued.drop s.enqueued.length,
      pkt.csum = csumPerformed d.opts1 d.opts2) ↔
    ¬ (rxDelivers lenMask maxCopySize d a = true ∧ HasFlags d.opts1 d.opts2 ∧ s.rxPacket ≠ []) := by
  cases htakes : rxTakes lenMask maxCopySize d a with
  | true =>
      obtain ⟨newPkt, s', hrec, hasm⟩ := rxHandle_received hplaced hclear hi htakes
      rw [hasm, ← hrec.enqueued]
      by_cases hlast : d.opts1 &&& lastFrag = 0
      · rw [(handlePkt_linked hlast newPkt _ d.opts2 s').enqueued]
        simp [rxDelivers, hlast]
      · obtain ⟨pkt, henq, hcsum⟩ := handlePkt_csum (rxLen lenMask d) d.opts2 s' hlast
          (fun m hm => ⟨hrec.apart.chain_ne m hm, hrec.clear.chain m hm⟩) hrec.newPkt_csum
        rw [henq, List.drop_left, List.forall_mem_singleton, hcsum, hrec.rxPacket]
        simp [rxDelivers, htakes, hlast]
  | false =>
      rw [(rxHandle_dropped htakes i s).2.enqueued]
      simp [rxDelivers, htakes]

end Round

/-! ### Runs -/

/-- The descriptor a round looks at. -/
def RxBuffers.current (s : RxBuffers) : RxDesc := s.side.desc s.side.rxNextDescIndex

/-- What a step should do: a round of `rxInterrupt` records the result of the last descriptor on the
packet it passes on, and no round of either handler writes to an mbuf after freeing it. -/
def MetadataSound (cfg : RxConfig) (s : RxBuffers) : BufOp → Prop
  | .plain a =>
      (∀ pkt ∈ (bufStep cfg s (.plain a)).side.asm.enqueued.drop s.side.asm.enqueued.length,
        pkt.csum = csumPerformed s.current.opts1 s.current.opts2) ∧
      NoWriteAfterFree (bufStep cfg s (.plain a)).side.asm.trace
  | .mapped a => NoWriteAfterFree (bufStep cfg s (.mapped a)).side.asm.trace
  | _ => True

/-- A round that ends a frame begun before with a descriptor that has flags: on the path without an
IOMMU any such, on the other one with no more bytes than the FCS has. -/
def ChecksumMisplaced (cfg : RxConfig) (s : RxBuffers) : BufOp → Prop
  | .plain a =>
      rxDelivers 0x3fff cfg.maxCopySize s.current a = true ∧
        HasFlags s.current.opts1 s.current.opts2 ∧ s.side.asm.rxPacket ≠ []
  | .mapped a =>
      rxDelivers 0x1fff cfg.maxCopySize s.current a = true ∧
        HasFlags s.current.opts1 s.current.opts2 ∧ s.side.asm.rxPacket ≠ [] ∧
        rxLen 0x1fff s.current ≤ 4
  | _ => False

instance (cfg : RxConfig) (s : RxBuffers) : (op : BufOp) → Decidable (MetadataSound cfg s op)
  | .plain _ => inferInstanceAs (Decidable (_ ∧ _))
  | .mapped _ => inferInstanceAs (Decidable (NoWriteAfterFree _))
  | .chip _ _ | .remap _ _ _ | .clear => inferInstanceAs (Decidable True)

instance (cfg : RxConfig) (s : RxBuffers) : (op : BufOp) → Decidable (ChecksumMisplaced cfg s op)
  | .plain _ => inferInstanceAs (Decidable (_ ∧ _))
  | .mapped _ => inferInstanceAs (Decidable (_ ∧ _))
  | .chip _ _ | .remap _ _ _ | .clear => inferInstanceAs (Decidable False)

structure MetaInv (s : RxBuffers) : Prop where
  bufs : BufInv s
  live : s.side.asm.Live
  clear : CsumClear s.side.asm

theorem BufInv.placed {s : RxBuffers} (h : BufInv s) : Placed s.side.asm := ⟨h.nodup, h.lt⟩

/-- One step: it is sound unless a checksum is misplaced. -/
theorem MetaInv.sound_iff (cfg : RxConfig) (s : RxBuffers) (op : BufOp) (h : MetaInv s) :
    MetadataSound cfg s op ↔ ¬ ChecksumMisplaced cfg s op := by
  have hcsum := rxHandle_csum h.bufs.placed h.clear h.bufs.index_lt
  have hlive := rxHandle_live h.bufs.placed h.clear h.bufs.index_lt
  cases op with
  | plain a =>
      have hwrites : NoWriteAfterFree (bufStep cfg s (.plain a)).side.asm.trace ↔ _ :=
        noWriteAfterFree_iff.trans (hlive 0x3fff cfg.maxCopySize s.current a)
      refine (and_congr (hcsum 0x3fff cfg.maxCopySize s.current a) hwrites).trans ?_
      -- a write to a freed mbuf is a misplaced one too
      refine ⟨fun hboth => hboth.1, fun hnot => ⟨hnot, h.live, fun hfreed => hnot ?_⟩⟩
      exact ⟨hfreed.1, hfreed.2.1, hfreed.2.2.1⟩
  | mapped a =>
      have hwrites : NoWriteAfterFree (bufStep cfg s (.mapped a)).side.asm.trace ↔ _ :=
        noWriteAfterFree_iff.trans (hlive 0x1fff cfg.maxCopySize s.current a)
      exact hwrites.trans (and_iff_right h.live)
  | chip i d => exact iff_of_true trivial id
  | remap maps index count => exact iff_of_true trivial id
  | clear => exact iff_of_true trivial id

theorem MetaInv.step (cfg : RxConfig) (s : RxBuffers) (op : BufOp) (h : MetaInv s)
    (hok : MetadataSound cfg s op) : MetaInv (bufStep cfg s op) := by
  have hkept := rxHandle_csumClear h.bufs.placed h.clear h.bufs.index_lt
  refine ⟨h.bufs.step cfg s op, ?_, ?_⟩
  · cases op with
    | plain a => exact noWriteAfterFree_iff.mp hok.2
    | mapped a => exact noWriteAfterFree_iff.mp hok
    | chip i d => exact h.live
    | remap maps index count =>
        exact (rxMapBuffers_frame cfg.pageSize maps index count s.side).1.symm ▸ h.live
    | clear => exact discardPacketFragment_live.mpr h.live
  · cases op with
    | plain a => exact hkept 0x3fff cfg.maxCopySize s.current a
    | mapped a => exact hkept 0x1fff cfg.maxCopySize s.current a
    | chip i d => exact h.clear
    | remap maps index count =>
        exact (rxMapBuffers_frame cfg.pageSize maps index count s.side).1.symm ▸ h.clear
    | clear => exact ⟨h.clear.buf, fun m hm => absurd hm List.not_mem_nil⟩

/-- **Checksum results go to the delivered packet and no freed mbuf is written**, in the runs in which no
checksum is misplaced and in no others, whatever the chip writes and whatever `getPacket` returns. -/
theorem rxMetadata_sound_iff (cfg : RxConfig) (s : RxBuffers) (h : BuffersSetUp s)
    (hcsum : ∀ i < kNumRxDesc, (s.side.asm.mbuf (s.side.asm.bufMbuf i)).csum = (0, 0))
    (ops : List BufOp) :
    Along (bufStep cfg) (MetadataSound cfg) s ops ↔
      Along (bufStep cfg) (fun s op => ¬ ChecksumMisplaced cfg s op) s ops := by
  have hinv : MetaInv s := by
    refine ⟨h.inv, ?_, hcsum, fun m hm => ?_⟩
    · rw [Live, h.noEvents]
      trivial
    · rw [h.noFrame] at hm
      cases hm
  exact along_congr (MetaInv.sound_iff cfg) (MetaInv.step cfg) hinv

/-- A frame of one buffer with TCP flags, then one of two buffers without. -/
def plainFrames : List BufOp :=
  [.chip 0 ⟨firstFrag ||| lastFrag ||| rxTCPT ||| 1000, rxV4F, 0⟩, .plain .single,
    .chip 1 ⟨firstFrag ||| 4096, 0, 1⟩, .plain .single, .chip 2 ⟨lastFrag ||| 4, 0, 2⟩, .plain .single]

theorem rxMetadata_sound_plainFrames :
    Along (bufStep page4k) (MetadataSound page4k) freshBuffers plainFrames ∧
      (exec (bufStep page4k) freshBuffers plainFrames).side.asm.enqueued.map (·.csum) =
        [(0x0f00, 0xffff), (0, 0)] := by
  refine ⟨(rxMetadata_sound_iff page4k freshBuffers freshBuffers_setUp (fun _ _ => rfl)
    plainFrames).mpr ?_, ?_⟩
  all_goals decide +kernel

/-- A frame of two buffers, the last one of `len` bytes with TCP flags. -/
def jumboFrame (round : Alloc → BufOp) (len : UInt32) : List BufOp :=
  [.chip 0 ⟨firstFrag ||| 4096, 0, 0⟩, round .single, .chip 1 ⟨lastFrag ||| rxTCPT ||| len, 0, 1⟩,
    round .single]

/-- **The flags of a frame of two buffers are lost** on the path without an IOMMU, and on either path
they go to a freed mbuf if the last buffer holds the FCS alone. -/
theorem jumbo_metadata_lost :
    ¬ Along (bufStep page4k) (MetadataSound page4k) freshBuffers (jumboFrame .plain 1000) ∧
    ¬ NoWriteAfterFree (exec (bufStep page4k) freshBuffers (jumboFrame .plain 4)).side.asm.trace ∧
    ¬ Along (bufStep page4k) (MetadataSound page4k) freshBuffers (jumboFrame .mapped 4) := by
  refine ⟨?_, ?_, ?_⟩
  all_goals decide +kernel

end Rtl812x.Kext
