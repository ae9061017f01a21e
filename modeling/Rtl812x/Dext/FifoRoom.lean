import Rtl812x.Dext.Announce
import Rtl812x.Dext.TxConservation

/-!
# The hand-off FIFOs are never full

A packet that does not fit into a hand-off FIFO is given back to its pool, or a submission stops.
Neither happens: every packet in a FIFO is one of the pool and no packet is in two places, so a FIFO
holds at most the pool, which is smaller.  On the receive side this is `RxPlaced`, which every function
keeps.  On the transmit side packets may get lost (a ring restart leaves slots behind that a later
submission overwrites), and a close pointer may retire slots out of turn; what remains is that no
packet is in two places.

* `TxHeld` — packets that were taken over and not returned, each once;
* `TxRoom` — the packets in the slots and in the completion FIFOs are held;
* `TxRoom.txCarried` — **the transmit side keeps it from any state, for any close pointer**;
* `RxCarried`, `RxRoom` — the same for the receive side;
* `handOff_never_full` — in every run, no push fails and no packet is in the FIFOs twice.
-/

namespace Rtl812x.Dext

open Tagged Slots Runs

/-! ### Packets the driver has -/

/-- These packets were taken over from the framework and not returned; each is of the pool and occurs
once, and nothing was dropped so far. -/
structure TxHeld (t : List TxEvent) (owned : List (ℕ × ℕ)) : Prop where
  nodup : (owned.map Prod.fst).Nodup
  queue_lt : ∀ x ∈ owned, x.2 < kNumTxQueues
  taken : ∀ x ∈ owned, x ∈ accepted t
  pool : ∀ x ∈ accepted t, x.1 < kTxPoolPackets
  returned : ReturnedOnce t

variable {t : List TxEvent} {owned owned' : List (ℕ × ℕ)} {p q : ℕ}

theorem TxHeld.init : TxHeld [] [] where
  nodup := List.nodup_nil
  queue_lt := fun _ h => by cases h
  taken := fun _ h => by cases h
  pool := fun _ h => by cases h
  returned := trivial

/-- Some of the packets. -/
theorem TxHeld.subperm (h : TxHeld t owned) (hsub : owned'.Subperm owned) : TxHeld t owned' where
  nodup := by
    obtain ⟨l, hperm, hsublist⟩ := hsub
    exact ((hperm.map Prod.fst).nodup_iff).mp (h.nodup.sublist (hsublist.map Prod.fst))
  queue_lt := fun x hx => h.queue_lt x (hsub.subset hx)
  taken := fun x hx => h.taken x (hsub.subset hx)
  pool := h.pool
  returned := h.returned

theorem TxHeld.perm (h : TxHeld t owned) (hperm : owned'.Perm owned) : TxHeld t owned' :=
  h.subperm hperm.subperm

theorem TxHeld.neutral (h : TxHeld t owned) {es : List TxEvent} (hes : ∀ e ∈ es, e.neutral = true) :
    TxHeld (es ++ t) owned := by
  obtain ⟨hacc, hret⟩ := accepted_append_of_neutral hes t
  exact ⟨h.nodup, h.queue_lt, by rw [hacc]; exact h.taken, by rw [hacc]; exact h.pool, hret.mpr h.returned⟩

/-- A packet the framework holds is taken over. -/
theorem TxHeld.cons (h : TxHeld t owned) {t' : List TxEvent} (hp : p < kTxPoolPackets)
    (hfresh : p ∉ (accepted t).map Prod.fst) (hq : q < kNumTxQueues)
    (hacc : accepted t' = (p, q) :: accepted t) (hret : ReturnedOnce t') :
    TxHeld t' ((p, q) :: owned) where
  nodup := by
    rw [List.map_cons, List.nodup_cons]
    refine ⟨fun hmem => hfresh ?_, h.nodup⟩
    obtain ⟨x, hx, heq⟩ := List.mem_map.mp hmem
    exact List.mem_map.mpr ⟨x, h.taken x hx, heq⟩
  queue_lt := by
    rintro x (_ | ⟨_, hx⟩)
    · exact hq
    · exact h.queue_lt x hx
  taken := by
    rw [hacc]
    rintro x (_ | ⟨_, hx⟩)
    · exact List.mem_cons_self ..
    · exact List.mem_cons_of_mem _ (h.taken x hx)
  pool := by
    rw [hacc]
    rintro x (_ | ⟨_, hx⟩)
    · exact hp
    · exact h.pool x hx
  returned := hret

/-- A packet is returned. -/
theorem TxHeld.pop (h : TxHeld t ((p, q) :: owned)) : TxHeld (.pop q p :: t) owned where
  nodup := h.nodup.of_cons
  queue_lt := fun x hx => h.queue_lt x (List.mem_cons_of_mem _ hx)
  taken := by
    intro x hx
    have hne : x ≠ (p, q) := by
      rintro rfl
      have hnodup := h.nodup
      rw [List.map_cons, List.nodup_cons] at hnodup
      exact hnodup.1 (List.mem_map_of_mem hx)
    exact (List.mem_erase_of_ne hne).mpr (h.taken x (List.mem_cons_of_mem _ hx))
  pool := fun x hx => h.pool x (List.mem_of_mem_erase hx)
  returned := ⟨h.taken _ (List.mem_cons_self ..), h.returned⟩

/-- **The pool bounds what the driver can have.** -/
theorem TxHeld.length_le (h : TxHeld t owned) : owned.length ≤ kTxPoolPackets := by
  have hsub : owned.map Prod.fst ⊆ List.range kTxPoolPackets := by
    intro p hp
    obtain ⟨x, hx, rfl⟩ := List.mem_map.mp hp
    exact List.mem_range.mpr (h.pool x (h.taken x hx))
  have hlen := (List.subperm_of_subset h.nodup hsub).length_le
  rwa [List.length_map, List.length_range] at hlen

/-! ### The transmit side -/

/-- The packet of a slot and its queue. -/
def TxSide.slotPair (s : TxSide) (i : ℕ) : Option (ℕ × ℕ) := (s.txPkt i).map fun p => (p, s.txPktQueue i)

def TxSide.slotPairs (s : TxSide) : List (ℕ × ℕ) := held kNumTxDesc s.slotPair

/-- The slots and the completion FIFOs hold packets the driver has. -/
structure TxRoomAt (s : TxSide) (done : List (ℕ × ℕ)) : Prop where
  fifo : ∀ q, Holds (s.txDoneFifo q) (queueOf done q)
  packets : TxHeld s.trace (s.slotPairs ++ done)

/-- The same with one more packet in hand. -/
structure TxHandAt (s : TxSide) (p q : ℕ) (done : List (ℕ × ℕ)) : Prop where
  fifo : ∀ q, Holds (s.txDoneFifo q) (queueOf done q)
  packets : TxHeld s.trace ((p, q) :: (s.slotPairs ++ done))

/-- All packets are in their places, and the ring indices on the ring. -/
structure TxRoom (s : TxSide) : Prop where
  place : ∃ done, TxRoomAt s done
  next_lt : s.hw.txNextDescIndex < kNumTxDesc
  dirty_lt : s.hw.txDirtyDescIndex < kNumTxDesc

variable {s s' : TxSide} {done : List (ℕ × ℕ)} {m : Mcfg}

theorem slotPairs_congr (hslot : s'.slotPair = s.slotPair) : s'.slotPairs = s.slotPairs :=
  congrArg (held kNumTxDesc) hslot

/-- A slot was emptied. -/
theorem slotPairs_take {i : ℕ} (hi : i < kNumTxDesc) (hp : s.txPkt i = some p)
    (hslot : s'.slotPair = Function.update s.slotPair i none) :
    s.slotPairs.Perm ((p, s.txPktQueue i) :: s'.slotPairs) := by
  have hsome : s.slotPair i = some (p, s.txPktQueue i) := by rw [TxSide.slotPair, hp, Option.map_some]
  rw [TxSide.slotPairs, TxSide.slotPairs, hslot]
  exact held_take hi hsome

/-- Only the slots and the FIFOs matter, and who has which packet. -/
theorem TxRoomAt.neutral (h : TxRoomAt s done) (es : List TxEvent)
    (hes : ∀ e ∈ es, e.neutral = true) (htrace : s'.trace = es ++ s.trace)
    (hslot : s'.slotPair = s.slotPair) (hfifo : s'.txDoneFifo = s.txDoneFifo) : TxRoomAt s' done where
  fifo := by
    rw [hfifo]
    exact h.fifo
  packets := by
    rw [htrace, slotPairs_congr hslot]
    exact h.packets.neutral hes

theorem TxHandAt.done_lt (h : TxHandAt s p q done) : done.length < kFifoMask := by
  have hle := h.packets.length_le
  have hlt := kTxPoolPackets_lt_kFifoMask
  simp only [List.length_cons, List.length_append] at hle
  omega

/-- **Completing a packet in hand**: the FIFO has room for it. -/
theorem TxHandAt.txComplete (h : TxHandAt s p q done) (status : IOReturn) :
    TxRoomAt (txComplete q p status s) (done ++ [(p, q)]) := by
  obtain ⟨hok, hholds⟩ := fifoPush_holds (h.fifo q)
    (lt_of_le_of_lt (length_queueOf_le done q) h.done_lt) p
  refine ⟨?_, ?_⟩
  · intro q'
    show Holds (Function.update s.txDoneFifo q (fifoPush (s.txDoneFifo q) p).2 q') _
    by_cases hqq : q = q'
    · subst hqq
      rw [Function.update_self, queueOf_snoc_self]
      exact hholds
    · rw [Function.update_of_ne (Ne.symm hqq), queueOf_snoc_of_ne hqq]
      exact h.fifo q'
  · have htrace : (Dext.txComplete q p status s).trace = [.push q p] ++ s.trace := by
      simp only [Dext.txComplete, hok, if_true, List.singleton_append]
    have hslot : (Dext.txComplete q p status s).slotPairs = s.slotPairs := slotPairs_congr rfl
    rw [htrace, hslot]
    refine TxHeld.neutral (h.packets.perm ?_) (by simp [TxEvent.neutral])
    rw [← List.append_assoc]
    exact List.perm_append_singleton _ _

theorem slotPair_update_none (s : TxSide) (i : ℕ) :
    (fun j => (Function.update s.txPkt i none j).map fun p => (p, s.txPktQueue j)) =
      Function.update s.slotPair i none := by
  funext j
  by_cases hj : j = i
  · subst hj
    rw [Function.update_self, Function.update_self, Option.map_none]
  · rw [Function.update_of_ne hj, Function.update_of_ne hj]
    rfl

theorem TxRoomAt.txRelease {i : ℕ} (hi : i < kNumTxDesc) (h : TxRoomAt s done) (abort : Bool) :
    ∃ done', TxRoomAt (txRelease abort i s) done' := by
  unfold Dext.txRelease
  split
  · exact ⟨done, h⟩
  · rename_i p hp
    have htake : ∀ bytes, s.slotPairs.Perm ((p, s.txPktQueue i) :: TxSide.slotPairs
        { s with txPkt := Function.update s.txPkt i none, txInflightBytes := bytes }) :=
      fun _ => slotPairs_take hi hp (slotPair_update_none s i)
    have hq : s.txPktQueue i < kNumTxQueues := by
      refine h.packets.queue_lt (p, s.txPktQueue i) (List.mem_append_left _ ?_)
      exact (htake 0).mem_iff.mpr (List.mem_cons_self ..)
    rw [if_pos hq]
    have hhand : TxHandAt { s with
        txPkt := Function.update s.txPkt i none
        txInflightBytes := s.txInflightBytes - s.txPktLen i } p (s.txPktQueue i) done :=
      ⟨h.fifo, h.packets.perm ((htake _).append_right done).symm⟩
    exact ⟨done ++ [(p, s.txPktQueue i)], hhand.txComplete _⟩

theorem TxRoom.txRetire (h : TxRoom s) (abort : Bool) : TxRoom (txRetire abort s) := by
  obtain ⟨⟨done, hplace⟩, hnext, hdirty⟩ := h
  obtain ⟨done', hrelease⟩ := hplace.txRelease hdirty abort
  refine ⟨⟨done', hrelease.neutral [.retire _] (by simp [TxEvent.neutral]) rfl rfl rfl⟩, ?_, ?_⟩
  · rw [txRetire_hw]
    exact hnext
  · rw [txRetire_hw]
    exact Circular.slot_lt kNumTxDesc_pos _ _

/-- However many descriptors are retired. -/
theorem TxRoom.txRetireLoop (h : TxRoom s) (abort : Bool) (numDone : ℕ) (didWork : ℕ → Bool) :
    TxRoom (txRetireLoop abort numDone didWork s).2 := by
  induction numDone generalizing s didWork with
  | zero => exact h
  | succ numDone ih => exact ih (h.txRetire abort) _

/-- **A reclaim keeps it, whatever the close pointer reads.** -/
theorem TxRoom.txRingReclaim (h : TxRoom s) (m : Mcfg) (abort : Bool) (clo : ℕ) :
    TxRoom (txRingReclaim m abort clo s) := by
  obtain ⟨⟨done, hplace⟩, hnext, hdirty⟩ := h
  have hclose : TxRoom (s.closeTo (s.hw.nextClose m abort clo)) :=
    ⟨⟨done, hplace.neutral [] (by simp) rfl rfl rfl⟩, hnext, hdirty⟩
  obtain ⟨⟨done', hloop⟩, hnext', hdirty'⟩ :=
    hclose.txRetireLoop abort (s.hw.numDone m abort clo) fun _ => false
  have hindex : ∀ (n : ℕ) (didWork : ℕ → Bool) (r : TxSide),
      (txPublish n didWork r).hw.txNextDescIndex = r.hw.txNextDescIndex ∧
      (txPublish n didWork r).hw.txDirtyDescIndex = r.hw.txDirtyDescIndex := by
    intro n didWork r
    unfold txPublish
    split <;> exact ⟨rfl, rfl⟩
  rw [txRingReclaim_eq]
  refine ⟨⟨done', hloop.neutral _ (txRequests_neutral _) rfl rfl rfl⟩, ?_, ?_⟩
  · rw [(hindex _ _ _).1]
    exact hnext'
  · rw [(hindex _ _ _).2]
    exact hdirty'

/-- A ring restart leaves the slots and the FIFOs alone. -/
theorem TxRoom.restart (h : TxRoom s) (hhw : s'.hw = TxIndex.restart)
    (htrace : s'.trace = [.ringReset] ++ s.trace) (hslot : s'.slotPair = s.slotPair)
    (hfifo : s'.txDoneFifo = s.txDoneFifo) : TxRoom s' := by
  obtain ⟨⟨done, hplace⟩, -, -⟩ := h
  refine ⟨⟨done, hplace.neutral _ (by simp [TxEvent.neutral]) htrace hslot hfifo⟩, ?_, ?_⟩
  · rw [hhw]
    exact kNumTxDesc_pos
  · rw [hhw]
    exact kNumTxDesc_pos

theorem TxRoom.txEnqueueLoop (h : TxRoom s) (q n : ℕ) : TxRoom (txEnqueueLoop q n s).2 := by
  induction n generalizing s with
  | zero => exact h
  | succ n ih =>
      obtain ⟨⟨done, hplace⟩, hnext, hdirty⟩ := h
      have hholds := hplace.fifo q
      rw [Dext.txEnqueueLoop]
      cases hq : queueOf done q with
      | nil =>
          rw [hq] at hholds
          have hpop := fifoPop_nil hholds
          simp only [hpop, Function.update_eq_self]
          exact ⟨⟨done, hplace⟩, hnext, hdirty⟩
      | cons p r =>
          rw [hq] at hholds
          obtain ⟨hsome, hrest⟩ := fifoPop_cons hholds
          obtain ⟨done', hperm, hr, hother⟩ := queueOf_take hq
          simp only [hsome]
          refine ih ⟨⟨done', ?_, ?_⟩, hnext, hdirty⟩
          · intro q'
            show Holds (Function.update s.txDoneFifo q (fifoPop (s.txDoneFifo q)).2 q') _
            by_cases hqq : q = q'
            · subst hqq
              rw [Function.update_self, hr]
              exact hrest
            · rw [Function.update_of_ne (Ne.symm hqq), hother q' hqq]
              exact hplace.fifo q'
          · have howned := (hperm.append_left s.slotPairs).trans List.perm_middle
            exact TxHeld.pop (hplace.packets.perm howned.symm)

/-- **Everything but a submission keeps it, from any state.** -/
theorem TxRoom.txCarried (m : Mcfg) : TxCarried m TxRoom where
  requestAll := by
    rintro s ⟨⟨done, hplace⟩, hnext, hdirty⟩
    exact ⟨⟨done, hplace.neutral _ txRequestDequeueAll_neutral rfl rfl rfl⟩, hnext, hdirty⟩
  reset := fun _ _ h => h.restart rfl rfl rfl rfl
  idle_reset := fun _ => trivial
  linkDown := fun _ h => (h.txRingReclaim m true 0).restart rfl rfl rfl rfl
  abort := fun _ h => h.txRingReclaim m true 0
  reclaim := fun clo _ h => h.txRingReclaim m false clo
  enqueue := fun q n _ h => h.txEnqueueLoop q n

/-! ### Submission -/

/-- A slot is written over: the packet it may still have held is lost. -/
theorem slotPairs_overwrite {i : ℕ} (hi : i < kNumTxDesc)
    (hslot : s'.slotPair = Function.update s.slotPair i (some (p, q))) :
    ∃ rest : List (ℕ × ℕ), rest.Subperm s.slotPairs ∧ s'.slotPairs.Perm ((p, q) :: rest) := by
  refine ⟨held kNumTxDesc (Function.update s.slotPair i none), held_update_none_subperm hi _, ?_⟩
  rw [TxSide.slotPairs, hslot]
  exact held_overwrite hi _ _

theorem TxRoomAt.txPlace {pkt : TxPacket} (h : TxRoomAt s done)
    (hnext : s.hw.txNextDescIndex < kNumTxDesc) (hq : q < kNumTxQueues)
    (hpool : pkt.id < kTxPoolPackets) (hfresh : pkt.id ∉ (accepted s.trace).map Prod.fst) (iova : ℕ) :
    TxRoomAt (txPlace q pkt iova s) done where
  fifo := h.fifo
  packets := by
    have hslot : (Dext.txPlace q pkt iova s).slotPair =
        Function.update s.slotPair s.hw.txNextDescIndex (some (pkt.id, q)) := by
      funext j
      by_cases hj : j = s.hw.txNextDescIndex
      · subst hj
        simp [TxSide.slotPair, Dext.txPlace]
      · simp [TxSide.slotPair, Dext.txPlace, hj]
    obtain ⟨rest, hsub, hperm⟩ := slotPairs_overwrite hnext hslot
    have hrest : TxHeld s.trace (rest ++ done) :=
      h.packets.subperm ((List.subperm_append_right done).mpr hsub)
    refine TxHeld.perm ?_ (hperm.append_right done)
    exact hrest.cons hpool hfresh hq rfl hrest.returned

theorem TxRoomAt.txReject {pkt : TxPacket} (h : TxRoomAt s done) (hq : q < kNumTxQueues)
    (hpool : pkt.id < kTxPoolPackets) (hfresh : pkt.id ∉ (accepted s.trace).map Prod.fst) :
    TxRoomAt (txReject q pkt s) (done ++ [(pkt.id, q)]) := by
  have hhand : TxHandAt { s with trace := .reject pkt.id q :: s.trace } pkt.id q done :=
    ⟨h.fifo, h.packets.cons hpool hfresh hq rfl h.packets.returned⟩
  exact hhand.txComplete .badArgument

/-- One packet of the framework is taken over. -/
theorem TxRoom.txAccept {pkt : TxPacket} (h : TxRoom s) (hq : q < kNumTxQueues)
    (hpool : pkt.id < kTxPoolPackets) (hfresh : pkt.id ∉ (accepted s.trace).map Prod.fst) :
    TxRoom (txAccept q pkt s) ∧ accepted (txAccept q pkt s).trace = (pkt.id, q) :: accepted s.trace := by
  obtain ⟨⟨done, hplace⟩, hnext, hdirty⟩ := h
  unfold Dext.txAccept
  split
  · have hreject := hplace.txReject hq hpool hfresh
    refine ⟨⟨⟨_, hreject⟩, hnext, hdirty⟩, ?_⟩
    -- what was recorded after the rejection is the push, for the FIFO had room
    have hret := hreject.packets.returned
    unfold Dext.txReject Dext.txComplete at hret ⊢
    revert hret
    cases (fifoPush _ pkt.id).1 with
    | true => exact fun _ => rfl
    | false => exact fun hret => absurd hret not_false
  · refine ⟨⟨⟨done, hplace.txPlace hnext hq hpool hfresh _⟩, ?_, hdirty⟩, rfl⟩
    rw [txPlace_hw, TxIndex.place, succ_and_kTxDescMask]
    exact Circular.slot_lt kNumTxDesc_pos _ _

theorem TxRoom.txDequeueLoop (h : TxRoom s) (hq : q < kNumTxQueues) {pkts : List TxPacket} (n : ℕ)
    (hnodup : (pkts.map TxPacket.id).Nodup)
    (hpkts : ∀ pkt ∈ pkts, pkt.id < kTxPoolPackets ∧ pkt.id ∉ (accepted s.trace).map Prod.fst) :
    TxRoom (txDequeueLoop q pkts n s).2 := by
  induction pkts generalizing s n with
  | nil => exact h
  | cons pkt pkts ih =>
      rw [Dext.txDequeueLoop]
      split
      · exact h
      · rw [List.map_cons, List.nodup_cons] at hnodup
        obtain ⟨hpool, hfresh⟩ := hpkts pkt (List.mem_cons_self ..)
        obtain ⟨hroom, hacc⟩ := h.txAccept hq hpool hfresh
        refine ih hroom _ hnodup.2 fun pkt' hpkt' => ?_
        obtain ⟨hpool', hfresh'⟩ := hpkts pkt' (List.mem_cons_of_mem _ hpkt')
        refine ⟨hpool', ?_⟩
        rw [hacc, List.map_cons, List.mem_cons, not_or]
        exact ⟨fun he => hnodup.1 (List.mem_map.mpr ⟨pkt', hpkt', he⟩), hfresh'⟩

theorem TxRoom.txDequeueAction (h : TxRoom s) (m : Mcfg) (linkUp : Bool) (queue : PacketQueue)
    {pkts : List TxPacket} (hnodup : (pkts.map TxPacket.id).Nodup)
    (hpkts : ∀ pkt ∈ pkts, pkt.id < kTxPoolPackets ∧ pkt.id ∉ (accepted s.trace).map Prod.fst) :
    TxRoom (txDequeueAction m linkUp queue pkts s).2 := by
  have hloop := h.txDequeueLoop (txQueueIndex_lt queue) 0 hnodup hpkts
  simp only [Dext.txDequeueAction]
  split
  · exact h
  · split
    · obtain ⟨⟨done, hplace⟩, hnext, hdirty⟩ := hloop
      exact ⟨⟨done, hplace.neutral [.doorbell _] (by simp [TxEvent.neutral]) rfl rfl rfl⟩, hnext, hdirty⟩
    · exact hloop

theorem TxRoom.init : TxRoom TxSide.init where
  place := by
    have hnil : held kNumTxDesc TxSide.init.slotPair = [] := held_eq_nil fun _ _ => rfl
    refine ⟨[], fun _ => holds_empty, ?_⟩
    rw [TxSide.slotPairs, hnil]
    exact TxHeld.init
  next_lt := kNumTxDesc_pos
  dirty_lt := kNumTxDesc_pos

/-! ### What it says about the FIFOs -/

theorem ReturnedOnce.no_dealloc {t : List TxEvent} (h : ReturnedOnce t) (p : ℕ) : .dealloc p ∉ t := by
  induction t with
  | nil => exact List.not_mem_nil
  | cons e t ih =>
      rintro (_ | ⟨_, hmem⟩)
      · exact h
      · cases e <;> first | exact ih h hmem | exact ih h.2 hmem | exact h

/-- The packets of the completion FIFOs, queue by queue. -/
def TxSide.doneContents (s : TxSide) : List (Option ℕ) :=
  (List.range kNumTxQueues).flatMap fun q => (s.txDoneFifo q).contents

theorem TxRoomAt.doneContents_nodup (h : TxRoomAt s done) : s.doneContents.Nodup := by
  have hcontents : s.doneContents = (((List.range kNumTxQueues).flatMap fun q =>
      (queueOf done q).map fun a => (a, q)).map Prod.fst).map some := by
    simp only [TxSide.doneContents, List.map_flatMap, List.map_map, (h.fifo _).contents_eq,
      Function.comp_def]
  have hqueue : ∀ x ∈ done, x.2 < kNumTxQueues := fun x hx =>
    h.packets.queue_lt x (List.mem_append_right _ hx)
  have hdone : (done.map Prod.fst).Nodup :=
    h.packets.nodup.sublist ((List.sublist_append_right _ done).map Prod.fst)
  rw [hcontents]
  refine List.Nodup.map (Option.some_injective _) ?_
  exact ((flatMap_queueOf_perm hqueue).map Prod.fst).nodup_iff.mpr hdone

/-! ### The receive side -/

/-- `P` survives whatever the driver does to the receive side outside of the queue actions. -/
structure RxCarried (c : Config) (P : RxSide → Prop) : Prop where
  restart : ∀ s, P s → P { s with rxNextDescIndex := 0 }
  request : ∀ s, P s → P (rxRequestDequeue s)
  refill : ∀ s, P s → P (rxRingRefill c.iova c.outcome s).2
  rearm : ∀ s, P s → P (rxRingRearm c.iova c.outcome s)
  service : ∀ s, P s → P (rxRingService c.iova c.outcome s)
  drop : ∀ s, P s → P (rxRingDrop s)

variable {c : Config} {P : RxSide → Prop} {d : Driver}

theorem RxCarried.linkChange (hc : RxCarried c P) (hd : P d.rx) (phy phy' : UInt32) :
    P (updateLinkStatus c phy phy' d).rx := by
  unfold updateLinkStatus
  split
  · rcases linkOn_rx c phy d with h | h
    · rw [h]
      exact hc.restart _ hd
    · rw [h]
      exact hc.request _ (hc.restart _ hd)
  · split
    · split
      · exact hd
      · rw [linkOff_rx]
        exact hc.rearm _ hd
    · exact hd

theorem RxCarried.setInterfaceEnable (hc : RxCarried c P) (hd : P d.rx) (on : Bool)
    (phy phy' : UInt32) : P (setInterfaceEnable c on phy phy' d).rx := by
  cases on with
  | false =>
      show P (rxRingDrop (rtl812xDisable { d with interfaceEnabled := false, linkUp := false }).rx)
      rw [rtl812xDisable, hwReset_rx]
      exact hc.drop _ hd
  | true =>
      refine hc.linkChange (d := startEngines c d) ?_ phy phy'
      rw [startEngines_rx]
      exact hc.request _ (hc.refill _ (hc.restart _ hd))

theorem RxCarried.txStep (hc : RxCarried c P) (hd : P d.rx) (op : TxOp) : P (txStep c d op).rx := by
  cases op with
  | link phy phy' => exact hc.linkChange hd phy phy'
  | enable on phy phy' => exact hc.setInterfaceEnable hd on phy phy'
  | dequeue _ _ | reclaim _ | abort | enqueue _ _ => exact hd

theorem RxCarried.interruptOccurred (hc : RxCarried c P) (hd : P d.rx) (status : UInt32) (clo : ℕ)
    (phy phy' : UInt32) : P (interruptOccurred c status clo phy phy' d).rx := by
  have hdata : P (irqData c status clo (irqAck status d)).rx := by
    unfold irqData
    split
    · rw [irqMitigate_rx, irqTx_rx]
      unfold irqRx
      split
      · exact hc.service _ hd
      · exact hd
    · exact hd
  unfold Dext.interruptOccurred
  split
  · exact hd
  · unfold irqLink
    split
    · exact hc.linkChange hdata phy phy'
    · exact hdata

/-- Every packet of the pool is at one place, and nothing was dropped so far. -/
structure RxRoom (iova : ℕ → ℕ) (s : RxSide) : Prop where
  good : RxGood iova s
  next_lt : s.rxNextDescIndex < kNumRxDesc
  kept : ∀ p, .dealloc p ∉ s.trace

variable {iova : ℕ → ℕ} {outcome : ℕ → Option ℕ} {r : RxSide}

/-- A refill records nothing. -/
theorem RxRoom.refill (h : RxRoom iova r) : RxRoom iova (rxRingRefill iova outcome r).2 := by
  refine ⟨h.good.rxRingRefill, ?_, ?_⟩
  · rw [rxRingRefill_next]
    exact h.next_lt
  · rw [rxRingRefill_trace]
    exact h.kept

theorem RxGood.push_done (h : RxGood iova r) (p : ℕ) : (fifoPush r.rxDoneFifo p).1 = true := by
  obtain ⟨⟨free, done, -, hdone, hperm⟩, -⟩ := h
  have hlen := hperm.length_eq
  have hfifo := kRxPoolPackets_lt_kFifoMask
  simp only [List.length_append, List.length_range] at hlen
  exact (fifoPush_holds hdone (by omega) p).1

/-- **A received packet finds room.** -/
theorem RxRoom.serviceOne (h : RxRoom iova r) (hp : r.rxPkt r.rxNextDescIndex = some p) :
    RxRoom iova (rxServiceOne p r) := by
  refine ⟨h.good.rxServiceOne h.next_lt hp, ?_, ?_⟩
  · rw [rxServiceOne_next]
    exact Circular.slot_lt kNumRxDesc_pos _ _
  · unfold rxServiceOne
    split
    · exact h.kept
    · intro p'
      have hpush := h.good.push_done p
      simp only [rxAdvance, rxDeliver, rxComplete, hpush, if_true, List.mem_cons, reduceCtorEq,
        false_or]
      exact h.kept p'

theorem RxRoom.service (h : RxRoom iova r) : RxRoom iova (rxRingService iova outcome r) := by
  have hloop : RxRoom iova (rxServiceLoop kNumRxDesc false r).2 :=
    rxServiceLoop_induction (fun _ _ hs _ hp => hs.serviceOne hp) h
  have hrefill : RxRoom iova (rxRingRefill iova outcome (rxServiceLoop kNumRxDesc false r).2).2 :=
    hloop.refill
  refine ⟨h.good.rxRingService h.next_lt, rxRingService_next_lt iova outcome h.next_lt, fun p => ?_⟩
  simp only [rxRingService, rxAnnounce]
  split
  · simp only [List.mem_cons, reduceCtorEq, false_or]
    exact hrefill.kept p
  · exact hrefill.kept p

theorem RxRoom.rxCarried (c : Config) : RxCarried c (RxRoom c.iova) where
  restart := fun _ h => ⟨h.good.congr rfl rfl rfl rfl rfl rfl, kNumRxDesc_pos, h.kept⟩
  request := fun s h => by
    refine ⟨h.good.congr rfl rfl rfl rfl rfl rfl, h.next_lt, fun p => ?_⟩
    show RxEvent.dealloc p ∉ RxEvent.requestDequeue :: s.trace
    simp only [List.mem_cons, reduceCtorEq, false_or]
    exact h.kept p
  refill := fun _ h => h.refill
  rearm := fun s h => by
    refine ⟨h.good.rxRingRearm, ?_, ?_⟩
    · rw [rxRingRearm_next]
      exact kNumRxDesc_pos
    · rw [rxRingRearm_trace]
      exact h.kept
  service := fun _ h => h.service
  drop := fun _ h => ⟨h.good.rxRingDrop, h.next_lt, h.kept⟩

/-- **A submission is taken over as a whole.** -/
theorem RxGood.rxDequeueLoop_count {ps : List ℕ} (h : RxGood iova r) (hnodup : ps.Nodup)
    (hps : ∀ p ∈ ps, p ∈ r.framework) : (Dext.rxDequeueLoop ps r).1 = ps.length := by
  induction ps generalizing r with
  | nil => rfl
  | cons p ps ih =>
      have hone : RxGood iova (Dext.rxDequeueLoop [p] r).2 :=
        h.rxDequeueLoop (List.nodup_singleton p) fun q hq => hps q (by
          rw [List.mem_singleton.mp hq]
          exact List.mem_cons_self ..)
      obtain ⟨⟨free, done, hfree, -, hperm⟩, -⟩ := h
      have hlen := hperm.length_eq
      have hfifo := kRxPoolPackets_lt_kFifoMask
      simp only [List.length_append, List.length_range] at hlen
      obtain ⟨hok, -⟩ := fifoPush_holds hfree (by omega) p
      rw [List.nodup_cons] at hnodup
      rw [Dext.rxDequeueLoop, if_pos hok] at hone ⊢
      refine congrArg (· + 1) (ih hone hnodup.2 fun q hq => ?_)
      have hne : q ≠ p := by
        rintro rfl
        exact hnodup.1 hq
      exact (List.mem_erase_of_ne hne).mpr (hps q (List.mem_cons_of_mem _ hq))

/-! ### Runs -/

/-- The framework hands over only packets it holds: those of the transmit pool that the driver has not
taken over or has returned, and those of the receive pool that it was given. -/
def HandsOver (d : Driver) : DataOp → Prop
  | .tx (.dequeue _ packets) =>
    (packets.map TxPacket.id).Nodup ∧
      ∀ pkt ∈ packets, pkt.id < kTxPoolPackets ∧ pkt.id ∉ (accepted d.tx.trace).map Prod.fst
  | .rx (.dequeue packets) => packets.Nodup ∧ ∀ p ∈ packets, p ∈ d.rx.framework
  | .rx (.frameworkFree p) => p ∈ d.rx.framework
  | _ => True

/-- No push failed, none of the next submission will, and no packet is in the FIFOs twice. -/
structure NeverFull (d : Driver) : Prop where
  tx_pushed : ∀ p, .dealloc p ∉ d.tx.trace
  rx_pushed : ∀ p, .dealloc p ∉ d.rx.trace
  submitted : ∀ packets, HandsOver d (.rx (.dequeue packets)) →
    (rxDequeueAction packets d.rx).1 = packets.length
  tx_once : d.tx.doneContents.Nodup
  rx_once : (d.rx.rxFreeFifo.contents ++ d.rx.rxDoneFifo.contents).Nodup

/-- What holds in every state of a run. -/
structure RoomInv (c : Config) (d : Driver) : Prop where
  tx : TxRoom d.tx
  rx : RxRoom c.iova d.rx

theorem RoomInv.neverFull (h : RoomInv c d) : NeverFull d := by
  obtain ⟨⟨done, hplace⟩, -, -⟩ := h.tx
  refine ⟨hplace.packets.returned.no_dealloc, h.rx.kept, fun packets hop => ?_,
    hplace.doneContents_nodup, ?_⟩
  · exact h.rx.good.rxDequeueLoop_count hop.1 hop.2
  · obtain ⟨free, done, hfree, hdone, hperm⟩ := h.rx.good.placed
    have hnodup := (hperm.nodup_iff.mpr List.nodup_range).of_append_right
    rw [← List.append_assoc] at hnodup
    rw [hfree.contents_eq, hdone.contents_eq, ← List.map_append]
    exact hnodup.of_append_left.map (Option.some_injective _)

theorem RoomInv.rxStep (h : RoomInv c d) (op : RxOp) (hop : HandsOver d (.rx op)) :
    RxRoom c.iova (rxStep c d op).rx := by
  have hc := RxRoom.rxCarried c
  obtain ⟨hgood, hnext, hkept⟩ := h.rx
  cases op with
  | enable on phy phy' => exact hc.setInterfaceEnable h.rx on phy phy'
  | service => exact hc.service d.rx h.rx
  | refill =>
      have hkeep := hc.refill d.rx h.rx
      simpa only [Dext.rxStep] using hkeep
  | rearm =>
      have hkeep := hc.rearm d.rx h.rx
      simpa only [Dext.rxStep] using hkeep
  | dequeue packets =>
      refine ⟨hgood.rxDequeueLoop hop.1 hop.2, ?_, ?_⟩
      · show (rxDequeueLoop packets d.rx).2.rxNextDescIndex < kNumRxDesc
        rw [rxDequeueLoop_next]
        exact hnext
      · show ∀ p, RxEvent.dealloc p ∉ (rxDequeueLoop packets d.rx).2.trace
        rw [rxDequeueLoop_trace]
        exact hkept
  | enqueue capacity =>
      refine ⟨hgood.rxEnqueueAction, ?_, ?_⟩
      · show (rxEnqueueAction capacity d.rx).2.rxNextDescIndex < kNumRxDesc
        rw [rxEnqueueAction_next]
        exact hnext
      · show ∀ p, RxEvent.dealloc p ∉ (rxEnqueueAction capacity d.rx).2.trace
        rw [rxEnqueueAction_trace]
        exact hkept
  | link phy phy' =>
      rw [Dext.rxStep]
      split
      · exact hc.linkChange h.rx phy phy'
      · exact h.rx
  | chipComplete i opts1 opts2 => exact ⟨hgood.chipComplete, hnext, hkept⟩
  | frameworkAlloc k =>
      refine ⟨hgood.frameworkAlloc, ?_, ?_⟩
      · show (frameworkAlloc k d.rx).rxNextDescIndex < kNumRxDesc
        unfold frameworkAlloc
        split <;> exact hnext
      · show ∀ p, RxEvent.dealloc p ∉ (frameworkAlloc k d.rx).trace
        unfold frameworkAlloc
        split <;> exact hkept
  | frameworkFree p => exact ⟨hgood.frameworkFree hop, hnext, hkept⟩

/-- **Every step keeps both sides.** -/
theorem RoomInv.step (d : Driver) (op : DataOp) (h : RoomInv c d) (hop : HandsOver d op) :
    RoomInv c (dataStep c d op) := by
  have htx := TxRoom.txCarried c.mcfg
  have hrx := RxRoom.rxCarried c
  cases op with
  | tx op =>
      refine ⟨?_, hrx.txStep h.rx op⟩
      cases op with
      | dequeue queue packets => exact h.tx.txDequeueAction c.mcfg d.linkUp queue hop.1 hop.2
      | reclaim _ | abort | enqueue _ _ | link _ _ | enable _ _ _ =>
          exact htx.txStep h.tx _ fun _ _ he => by cases he
  | rx op => exact ⟨htx.rxStep h.tx op, h.rxStep op hop⟩
  | interrupt status clo phy phy' =>
      exact ⟨htx.interruptOccurred h.tx status clo phy phy', hrx.interruptOccurred h.rx status clo phy phy'⟩

theorem RoomInv.init (c : Config) : RoomInv c Driver.init where
  tx := TxRoom.init
  rx := ⟨RxGood.init c.iova, kNumRxDesc_pos, fun _ h => by cases h⟩

/-- **The drop-on-full branches are unreachable.**  In every run in which the framework hands over only
packets it holds, whatever the chip writes and whatever the registers read, every state reached has
seen no push fail, takes the next submission of receive packets over as a whole, and has no packet in
its hand-off FIFOs twice. -/
theorem handOff_never_full (c : Config) (ops : List DataOp)
    (hrun : Along (dataStep c) HandsOver Driver.init ops) :
    NeverFull (exec (dataStep c) Driver.init ops) :=
  (invariant_along RoomInv.step (RoomInv.init c) hrun).neverFull

/-- A receive packet is submitted, and a packet is sent whose slot a second link-up reading gives to one
of another queue; the sweep then returns that one. -/
def overwrittenSlot (queue queue' : PacketQueue) : List DataOp :=
  [.rx (.frameworkAlloc 0), .rx (.dequeue [0]), .tx (.enable true phy10G phy10G),
    .tx (.dequeue queue [plainPacket 0]), .tx (.link phy10G phy10G),
    .tx (.dequeue queue' [plainPacket 1]), .tx (.reclaim 1)]

/-- Nothing was dropped although a slot was overwritten. -/
theorem handOff_never_full_overwrittenSlot :
    Along (dataStep copperConfig) HandsOver Driver.init (overwrittenSlot (.txSub 0) (.txSub 1)) ∧
      NeverFull (exec (dataStep copperConfig) Driver.init (overwrittenSlot (.txSub 0) (.txSub 1))) := by
  have hrun : Along (dataStep copperConfig) HandsOver Driver.init (overwrittenSlot (.txSub 0) (.txSub 1)) :=
    ⟨trivial, ⟨by decide, by decide +kernel⟩, trivial, ⟨by decide, by decide +kernel⟩, trivial,
      ⟨by decide, by decide +kernel⟩, trivial, trivial⟩
  exact ⟨hrun, handOff_never_full copperConfig (overwrittenSlot (.txSub 0) (.txSub 1)) hrun⟩

end Rtl812x.Dext
