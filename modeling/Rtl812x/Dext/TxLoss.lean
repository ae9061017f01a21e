import Rtl812x.Dext.TxConservation

/-!
# A packet that is lost stays lost

A ring restart that finds packets in flight leaves them behind: no reclaim comes to their slots any
more, and they are in no completion FIFO.  Nothing the driver does later finds such a packet again, so
a state is either on its books or has lost a packet for good.

* `Astray n p q s` — packet `p` was taken over for queue `q`, and is neither in the next `n` descriptors
  to be retired nor in a FIFO; one lemma for each operation says that it stays so;
* `TxLost` — the packet is not in the window of the counters either;
* `txSettled_run` — **in every run the state is on its books or a packet is lost**;
* `TxLost.not_conserved` — a lost packet is a failure of conservation.
-/

namespace Rtl812x.Dext

open Circular Tagged Runs

/-- Packet `p`, taken over for queue `q`, is in none of the next `n` descriptors to be retired and in
no completion FIFO. -/
structure Astray (n p q : ℕ) (s : TxSide) : Prop where
  taken : (p, q) ∈ accepted s.trace
  dirty_lt : s.hw.txDirtyDescIndex < kNumTxDesc
  slots : ∀ k < n, s.txPkt (slot kNumTxDesc s.hw.txDirtyDescIndex k) ≠ some p
  fifos : ∀ q', ∃ l, Holds (s.txDoneFifo q') l ∧ p ∉ l

variable {m : Mcfg} {cap n p q : ℕ} {s : TxSide} {b : TxBook}

/-! ### No operation finds it again -/

/-- Only the slots, the FIFOs, the dirty index and who has the packets matter. -/
theorem Astray.of_neutral {s' : TxSide} (h : Astray n p q s) (es : List TxEvent)
    (hes : ∀ e ∈ es, e.neutral = true) (htrace : s'.trace = es ++ s.trace)
    (hdirty : s'.hw.txDirtyDescIndex = s.hw.txDirtyDescIndex) (hpkt : s'.txPkt = s.txPkt)
    (hfifo : s'.txDoneFifo = s.txDoneFifo) : Astray n p q s' where
  taken := by
    rw [htrace, (accepted_append_of_neutral hes s.trace).1]
    exact h.taken
  dirty_lt := by
    rw [hdirty]
    exact h.dirty_lt
  slots := by
    rw [hdirty, hpkt]
    exact h.slots
  fifos := by
    rw [hfifo]
    exact h.fifos

theorem Astray.snoc (h : Astray n p q s)
    (hslot : s.txPkt (slot kNumTxDesc s.hw.txDirtyDescIndex n) ≠ some p) : Astray (n + 1) p q s := by
  refine ⟨h.taken, h.dirty_lt, ?_, h.fifos⟩
  intro k hk
  rcases Nat.lt_succ_iff_lt_or_eq.mp hk with hlt | rfl
  · exact h.slots k hlt
  · exact hslot

/-- A slot may be written with anything but the packet. -/
theorem Astray.slots_update (h : Astray n p q s) (i : ℕ) {x : Option ℕ} (hx : x ≠ some p) :
    ∀ k < n, Function.update s.txPkt i x (slot kNumTxDesc s.hw.txDirtyDescIndex k) ≠ some p := by
  intro k hk
  by_cases hi : slot kNumTxDesc s.hw.txDirtyDescIndex k = i
  · rw [hi, Function.update_self]
    exact hx
  · rw [Function.update_of_ne hi]
    exact h.slots k hk

/-- A FIFO may be replaced by one without the packet. -/
theorem Astray.fifos_update (h : Astray n p q s) (q' : ℕ) {f : PacketFifo}
    (hf : ∃ l, Holds f l ∧ p ∉ l) :
    ∀ i, ∃ l, Holds (Function.update s.txDoneFifo q' f i) l ∧ p ∉ l := by
  intro i
  by_cases hi : i = q'
  · rw [hi, Function.update_self]
    exact hf
  · rw [Function.update_of_ne hi]
    exact h.fifos i

/-- Another packet is completed, or dropped by a full FIFO. -/
theorem Astray.txComplete (h : Astray n p q s) (q' : ℕ) {p' : ℕ} (hne : p' ≠ p) (status : IOReturn) :
    Astray n p q (txComplete q' p' status s) := by
  have hpush : ∃ l, Holds (fifoPush (s.txDoneFifo q') p').2 l ∧ p ∉ l := by
    obtain ⟨l, hl, hp⟩ := h.fifos q'
    by_cases hfull : l.length = kFifoMask
    · rw [fifoPush_full hl hfull]
      exact ⟨l, hl, hp⟩
    · have hroom : l.length < kFifoMask := by
        have hlt : l.length < kFifoMask + 1 := hl.length_lt
        omega
      exact ⟨l ++ [p'], (fifoPush_holds hl hroom p').2, by simp [hp, hne.symm]⟩
  refine ⟨?_, h.dirty_lt, h.slots, h.fifos_update q' hpush⟩
  show (p, q) ∈ accepted ((if _ then _ else _) :: s.trace)
  split
  · exact h.taken
  · exact List.mem_filter.mpr ⟨h.taken, by simpa using hne.symm⟩

theorem Astray.txPlace (h : Astray n p q s) {q' iova : ℕ} {pkt : TxPacket} (hne : pkt.id ≠ p) :
    Astray n p q (txPlace q' pkt iova s) where
  taken := List.mem_cons_of_mem _ h.taken
  dirty_lt := h.dirty_lt
  slots := h.slots_update s.hw.txNextDescIndex (by simpa using hne)
  fifos := h.fifos

theorem Astray.txReject (h : Astray n p q s) {q' : ℕ} {pkt : TxPacket} (hne : pkt.id ≠ p) :
    Astray n p q (txReject q' pkt s) := by
  have hrec : Astray n p q { s with trace := .reject pkt.id q' :: s.trace } :=
    ⟨List.mem_cons_of_mem _ h.taken, h.dirty_lt, h.slots, h.fifos⟩
  exact hrec.txComplete q' hne .badArgument

/-- Another packet is taken over. -/
theorem Astray.txAccept (h : Astray n p q s) {q' : ℕ} {pkt : TxPacket} (hne : pkt.id ≠ p) :
    Astray n p q (txAccept q' pkt s) := by
  unfold Dext.txAccept
  split
  · exact h.txReject hne
  · exact h.txPlace hne

theorem Astray.txDoorbell (h : Astray n p q s) (m : Mcfg) : Astray n p q (txDoorbell m s) :=
  h.of_neutral [.doorbell _] (by simp [TxEvent.neutral]) rfl rfl rfl rfl

theorem Astray.txRelease (h : Astray (n + 1) p q s) (abort : Bool) :
    Astray (n + 1) p q (txRelease abort s.hw.txDirtyDescIndex s) := by
  have hfirst := h.slots 0 (Nat.succ_pos n)
  rw [slot_zero h.dirty_lt] at hfirst
  unfold Dext.txRelease
  split
  · exact h
  · rename_i p' hp'
    have hne : p' ≠ p := by
      rintro rfl
      exact hfirst hp'
    refine Astray.txComplete ?_ _ hne _
    exact ⟨h.taken, h.dirty_lt, h.slots_update s.hw.txDirtyDescIndex (by simp), h.fifos⟩

/-- **A retired descriptor** is one of those the packet is not in. -/
theorem Astray.txRetire (h : Astray (n + 1) p q s) (abort : Bool) : Astray n p q (txRetire abort s) := by
  have hrel := h.txRelease abort
  have hslots := hrel.slots
  rw [txRelease_hw] at hslots
  refine ⟨hrel.taken, ?_, ?_, hrel.fifos⟩
  · rw [txRetire_hw]
    exact slot_lt kNumTxDesc_pos _ _
  · intro k hk
    rw [txRetire_hw]
    show (Dext.txRelease abort s.hw.txDirtyDescIndex s).txPkt _ ≠ some p
    rw [slot_slot, Nat.add_comm 1 k]
    exact hslots (k + 1) (Nat.succ_lt_succ hk)

theorem Astray.txRetireLoop {s : TxSide} {numDone : ℕ} (h : Astray (n + numDone) p q s) (abort : Bool)
    (didWork : ℕ → Bool) : Astray n p q (txRetireLoop abort numDone didWork s).2 := by
  induction numDone generalizing didWork s with
  | zero => exact h
  | succ numDone ih => exact ih (h.txRetire abort) _

theorem Astray.txPublish (h : Astray n p q s) (reclaimed : ℕ) (didWork : ℕ → Bool) :
    Astray n p q (txPublish reclaimed didWork s) := by
  refine h.of_neutral _ (txRequests_neutral didWork) rfl ?_ rfl rfl
  unfold Dext.txPublish
  split <;> rfl

/-- Taking the oldest packet of a FIFO does not return it. -/
theorem Astray.popped (h : Astray n p q s) (q' : ℕ) :
    (fifoPop (s.txDoneFifo q')).1 ≠ some p ∧ Astray n p q (s.popped q') := by
  obtain ⟨l, hl, hp⟩ := h.fifos q'
  have hpop : (fifoPop (s.txDoneFifo q')).1 ≠ some p ∧
      ∃ l', Holds (fifoPop (s.txDoneFifo q')).2 l' ∧ p ∉ l' := by
    cases l with
    | nil =>
        rw [fifoPop_nil hl]
        exact ⟨by simp, [], hl, hp⟩
    | cons a l =>
        obtain ⟨hsome, hrest⟩ := fifoPop_cons hl
        rw [List.mem_cons, not_or] at hp
        refine ⟨?_, l, hrest, hp.2⟩
        rw [hsome, ne_eq, Option.some.injEq]
        exact Ne.symm hp.1
  exact ⟨hpop.1, h.taken, h.dirty_lt, h.slots, h.fifos_update q' hpop.2⟩

theorem Astray.txEnqueueLoop {q' capacity : ℕ} {s : TxSide} (h : Astray n p q s) :
    Astray n p q (txEnqueueLoop q' capacity s).2 := by
  induction capacity generalizing s with
  | zero => exact h
  | succ capacity ih =>
      obtain ⟨hother, hpopped⟩ := h.popped q'
      rw [Dext.txEnqueueLoop]
      split
      · exact hpopped
      · rename_i p' hp'
        have hne : (p, q) ≠ (p', q') := by
          rintro ⟨⟩
          exact hother hp'
        refine ih ⟨?_, hpopped.dirty_lt, hpopped.slots, hpopped.fifos⟩
        exact (List.mem_erase_of_ne hne).mpr h.taken

/-! ### A lost packet -/

/-- The counters agree, and the packet is neither in their window nor in a FIFO. -/
structure TxLost (m : Mcfg) (cap p q : ℕ) (s : TxSide) : Prop where
  acct : TxAcct m cap s.hw
  astray : Astray s.hw.inFlight p q s

theorem TxLost.txAccept (h : TxLost m cap p q s) {q' : ℕ} {pkt : TxPacket}
    (hfree : 2 < s.hw.txNumFreeDesc) (hne : pkt.id ≠ p) : TxLost m cap p q (txAccept q' pkt s) := by
  unfold Dext.txAccept
  split
  · exact ⟨h.acct, h.astray.txReject hne⟩
  · refine ⟨h.acct.place hfree, ?_⟩
    rw [txPlace_hw, h.acct.inFlight_place hfree]
    refine (h.astray.txPlace hne).snoc ?_
    -- the descriptor that joins the window is the one just written
    rw [txPlace_dirty, ← h.acct.next_eq]
    show Function.update s.txPkt s.hw.txNextDescIndex (some pkt.id) s.hw.txNextDescIndex ≠ some p
    rw [Function.update_self]
    simpa using hne

theorem TxLost.txDequeueLoop {q' : ℕ} {pkts : List TxPacket} {n : ℕ} {s : TxSide}
    (h : TxLost m cap p q s) (hne : ∀ pkt ∈ pkts, pkt.id ≠ p) :
    TxLost m cap p q (txDequeueLoop q' pkts n s).2 := by
  induction pkts generalizing n s with
  | nil => exact h
  | cons pkt pkts ih =>
      rw [Dext.txDequeueLoop]
      split
      · exact h
      · rename_i hspace
        rw [TxSide.noSpace, not_or] at hspace
        have hpkt := hne pkt (List.mem_cons_self ..)
        exact ih (h.txAccept (by omega) hpkt) fun pkt' hmem => hne pkt' (List.mem_cons_of_mem _ hmem)

theorem TxLost.txDoorbell (h : TxLost m cap p q s) : TxLost m cap p q (txDoorbell m s) :=
  ⟨h.acct, h.astray.txDoorbell m⟩

theorem TxLost.txDequeueAction (h : TxLost m cap p q s) {linkUp : Bool} {queue : PacketQueue}
    {pkts : List TxPacket} (hne : ∀ pkt ∈ pkts, pkt.id ≠ p) :
    TxLost m cap p q (txDequeueAction m linkUp queue pkts s).2 := by
  simp only [Dext.txDequeueAction]
  split
  · exact h
  · split
    · exact (h.txDequeueLoop hne).txDoorbell
    · exact h.txDequeueLoop hne

/-- The framework does not hand over what it has not got back. -/
theorem TxLost.fresh_ne (h : TxLost m cap p q s) {pkts : List TxPacket}
    (hfresh : ∀ pkt ∈ pkts, pkt.id < kTxPoolPackets ∧ pkt.id ∉ (accepted s.trace).map Prod.fst) :
    ∀ pkt ∈ pkts, pkt.id ≠ p := by
  intro pkt hmem he
  exact (hfresh pkt hmem).2 (List.mem_map.mpr ⟨(p, q), h.astray.taken, he.symm⟩)

theorem TxLost.txEnqueueLoop {q' capacity : ℕ} (h : TxLost m cap p q s) :
    TxLost m cap p q (txEnqueueLoop q' capacity s).2 := by
  have hhw := txEnqueueLoop_hw q' capacity s
  constructor
  · rw [hhw]
    exact h.acct
  · rw [hhw]
    exact h.astray.txEnqueueLoop

/-- **A reclaim does not come to it.** -/
theorem TxLost.txRingReclaim (h : TxLost m cap p q s) {abort : Bool} {clo : ℕ}
    (hlegal : abort = false → LegalClose m s.hw clo) :
    TxLost m cap p q (txRingReclaim m abort clo s) := by
  have hle := h.acct.numDone_le hlegal
  refine ⟨h.acct.txRingReclaim hlegal, ?_⟩
  rw [txRingReclaim_hw h.acct hle, h.acct.inFlight_reclaim hle, txRingReclaim_eq]
  have hclose : Astray s.hw.inFlight p q (s.closeTo (s.hw.nextClose m abort clo)) :=
    h.astray.of_neutral [] (by simp) rfl rfl rfl rfl
  rw [← Nat.sub_add_cancel hle] at hclose
  exact (hclose.txRetireLoop abort _).txPublish _ _

/-- A ring restart empties the window. -/
theorem Astray.txRingReset (h : Astray n p q s) (m : Mcfg) : TxLost m kNumTxDesc p q (txRingReset s) := by
  refine ⟨TxAcct.restart m, h.taken, kNumTxDesc_pos, ?_, h.fifos⟩
  intro k hk
  have hzero : (Dext.txRingReset s).hw.inFlight = 0 := by
    show TxIndex.restart.inFlight = 0
    decide
  omega

/-- The state is on its books, or a packet is lost. -/
def TxSettled (m : Mcfg) (s : TxSide) : Prop := TxOnBooks m s ∨ ∃ cap p q, TxLost m cap p q s

/-- **What a ring restart leaves behind**: the oldest packet in flight, if there is one. -/
theorem TxBooked.astray (h : TxBooked m cap s b) (hflight : s.hw.inFlight ≠ 0) :
    ∃ p q, Astray 0 p q s := by
  obtain ⟨ring, done⟩ := b
  cases ring with
  | nil => exact absurd h.length_eq.symm hflight
  | cons e rest =>
      refine ⟨e.pkt, e.queue, ?_, h.acct.dirty_lt, fun k hk => absurd hk (Nat.not_lt_zero k), ?_⟩
      · exact h.ledger.perm.mem_iff.mp (List.mem_cons_self ..)
      · intro q'
        refine ⟨_, h.refines.done_eq q', fun hin => ?_⟩
        -- the packets on the books are distinct, so one in flight is not completed as well
        obtain ⟨x, hx, hid⟩ := List.mem_map.mp hin
        have hnodup := h.ledger.nodup
        rw [TxBook.owned, List.map_cons, List.cons_append, List.map_cons, List.nodup_cons] at hnodup
        exact hnodup.1 (List.mem_map.mpr ⟨x, List.mem_append_right _ (List.mem_filter.mp hx).1, hid⟩)

theorem TxSettled.reset (h : TxSettled m s) : TxSettled m (txRingReset s) := by
  rcases h with hbooks | ⟨cap, p, q, hlost⟩
  · by_cases hidle : s.hw.inFlight = 0
    · exact Or.inl (hbooks.reset hidle)
    · obtain ⟨cap, b, hb⟩ := hbooks
      obtain ⟨p, q, hp⟩ := hb.astray hidle
      exact Or.inr ⟨kNumTxDesc, p, q, hp.txRingReset m⟩
  · exact Or.inr ⟨kNumTxDesc, p, q, hlost.astray.txRingReset m⟩

theorem TxSettled.txKept (m : Mcfg) : TxKept m (TxSettled m) (fun _ => True) where
  requestAll := by
    rintro s (hbooks | ⟨cap, p, q, hlost⟩)
    · exact Or.inl ((TxOnBooks.txKept m).requestAll s hbooks)
    · exact Or.inr ⟨cap, p, q, hlost.acct,
        hlost.astray.of_neutral _ txRequestDequeueAll_neutral rfl rfl rfl rfl⟩
  reset _ _ hs := hs.reset
  idle_reset _ := trivial
  linkDown := by
    rintro s (hbooks | ⟨cap, p, q, hlost⟩)
    · exact Or.inl ((TxOnBooks.txKept m).linkDown s hbooks)
    · have habort : TxLost m cap p q (txRingReclaim m true 0 s) := hlost.txRingReclaim (by simp)
      have hreset := habort.astray.txRingReset m
      exact Or.inr ⟨kNumTxDesc, p, q, hreset.acct,
        hreset.astray.of_neutral [] (by simp) rfl rfl rfl rfl⟩
  abort := by
    rintro s (hbooks | ⟨cap, p, q, hlost⟩)
    · exact Or.inl ((TxOnBooks.txKept m).abort s hbooks)
    · exact Or.inr ⟨cap, p, q, hlost.txRingReclaim (by simp)⟩

/-- **Every step leaves the state on its books or a packet lost.** -/
theorem TxSettled.txStep {c : Config} (d : Driver) (op : TxOp) (hd : TxSettled c.mcfg d.tx)
    (hop : TxPromise c d op) : TxSettled c.mcfg (txStep c d op).tx := by
  have hkept := TxSettled.txKept c.mcfg
  cases op with
  | dequeue queue packets =>
      rcases hd with hbooks | ⟨cap, p, q, hlost⟩
      · exact Or.inl (hbooks.txStep d (.dequeue queue packets) ⟨hop, trivial⟩)
      · exact Or.inr ⟨cap, p, q, hlost.txDequeueAction (hlost.fresh_ne hop.2)⟩
  | reclaim clo =>
      rcases hd with hbooks | ⟨cap, p, q, hlost⟩
      · exact Or.inl (hbooks.txStep d (.reclaim clo) ⟨hop, trivial⟩)
      · exact Or.inr ⟨cap, p, q, hlost.txRingReclaim fun _ => hop⟩
  | abort => exact hkept.abort _ hd
  | enqueue queue capacity =>
      rcases hd with hbooks | ⟨cap, p, q, hlost⟩
      · exact Or.inl (hbooks.txStep d (.enqueue queue capacity) ⟨hop, trivial⟩)
      · exact Or.inr ⟨cap, p, q, hlost.txEnqueueLoop⟩
  | link phy phy' => exact hkept.updateLinkStatus hd fun _ => trivial
  | enable on phy phy' =>
      cases on with
      | true => exact hkept.enable hd.reset
      | false => exact hkept.disable hd

end Rtl812x.Dext
