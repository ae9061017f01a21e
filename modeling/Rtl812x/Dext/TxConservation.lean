import Rtl812x.Dext.TxBook

/-!
# Transmit packet conservation

`TxConserved s` says that the transmit side loses nothing: every packet taken over and not yet
returned is at exactly one place, either in a slot of the in-flight window or in the completion
FIFO of its queue, all other slots are empty, and the byte counter is the sum over the window.

The driver keeps it except at one point.  A link-up reading and `setInterfaceEnable(true)` run
`rtl812xHwConfig`, which restarts the ring indices and leaves the slots, the byte counter and the
packets in the window behind (`linkUp_loses_packet`); the link-down branch drains the ring first.

* `TxQuiet` — rings restart only while nothing is in flight;
* `TxBooked` — the state represents a book that agrees with the record of the calls;
* `txPackets_conserved` — **every run whose ring restarts find an idle ring conserves packets.**
-/

namespace Rtl812x.Dext

open Circular Tagged Runs

/-! ### The property -/

/-- Every place that holds a packet: the slots of the window with the queue they belong to, and
the completion FIFOs. -/
def TxSide.whereabouts (s : TxSide) : List (Option ℕ × ℕ) :=
  window kNumTxDesc s.hw.txDirtyDescIndex s.hw.inFlight (fun i => (s.txPkt i, s.txPktQueue i)) ++
    (List.range kNumTxQueues).flatMap fun q => (s.txDoneFifo q).contents.map fun p => (p, q)

/-- No packet is lost, kept twice or returned twice, and no byte credit leaks. -/
structure TxConserved (s : TxSide) : Prop where
  one_place : ∀ p q, (p, q) ∈ accepted s.trace →
    s.whereabouts.filter (·.1 = some p) = [(some p, q)]
  outside : ∀ i < kNumTxDesc,
    ¬ InWindow kNumTxDesc s.hw.txDirtyDescIndex s.hw.inFlight i → s.txPkt i = none
  bytes : s.txInflightBytes
    = (window kNumTxDesc s.hw.txDirtyDescIndex s.hw.inFlight fun i => (s.txPktLen i : ℤ)).sum
  not_stuck : s.hw.inFlight = 0 → s.txInflightBytes < kTxInflightBytesLimit
  returned : ReturnedOnce s.trace

/-! ### What the environment promises, and the condition -/

/-- The framework hands over packets of its pool that it holds, each once; close pointers are
legal. -/
def TxPromise (c : Config) (d : Driver) : TxOp → Prop
  | .dequeue _ packets =>
    (packets.map TxPacket.id).Nodup ∧
      ∀ pkt ∈ packets, pkt.id < kTxPoolPackets ∧ pkt.id ∉ (accepted d.tx.trace).map Prod.fst
  | .reclaim clo => LegalClose c.mcfg d.tx.hw clo
  | _ => True

/-- The ring restarts only while nothing is in flight. -/
def TxQuiet (d : Driver) : TxOp → Prop
  | .link phy _ => phyLinkUp phy = true → d.tx.hw.inFlight = 0
  | .enable on _ _ => on = true → d.tx.hw.inFlight = 0
  | _ => True

/-! ### The invariant -/

/-- The counters agree, the state represents the book, and the book agrees with the record. -/
structure TxBooked (m : Mcfg) (cap : ℕ) (s : TxSide) (b : TxBook) : Prop where
  acct : TxAcct m cap s.hw
  refines : TxRefines s b
  length_eq : b.ring.length = s.hw.inFlight
  ledger : TxLedger s.trace b

variable {m : Mcfg} {cap : ℕ} {s : TxSide} {b : TxBook}

theorem TxBooked.init (m : Mcfg) : TxBooked m 0 TxSide.init ⟨[], []⟩ :=
  ⟨TxAcct.init m, TxRefines.init, by decide, TxLedger.init⟩

/-- Events that change no owner may be recorded. -/
theorem TxBooked.of_neutral {s' : TxSide} (h : TxBooked m cap s b) (href : TxRefines s' b)
    (es : List TxEvent) (hes : ∀ e ∈ es, e.neutral = true) (htrace : s'.trace = es ++ s.trace)
    (hhw : s'.hw = s.hw) : TxBooked m cap s' b := by
  refine ⟨by rw [hhw]; exact h.acct, href, by rw [hhw]; exact h.length_eq, ?_⟩
  rw [htrace]
  exact h.ledger.of_neutral (.refl _) es hes

theorem kTxPoolPackets_lt_kFifoMask : kTxPoolPackets < kFifoMask := by decide

theorem TxBooked.done_lt (h : TxBooked m cap s b) : b.done.length < kFifoMask :=
  lt_of_le_of_lt h.ledger.done_le kTxPoolPackets_lt_kFifoMask

/-! ### The invariant is conservation -/

/-- The window holds the packets in flight. -/
theorem TxBooked.window_eq (h : TxBooked m cap s b) :
    window kNumTxDesc s.hw.txDirtyDescIndex s.hw.inFlight (fun i => (s.txPkt i, s.txPktQueue i))
      = (b.ring.map fun e => (e.pkt, e.queue)).map (Prod.map some id) := by
  have hmap := congrArg (List.map fun x : Option ℕ × ℕ × ℕ => (x.1, x.2.1)) h.refines.ring_eq
  rw [← h.length_eq, List.map_map]
  rw [window, List.map_map, List.map_map] at hmap
  exact hmap

/-- The FIFOs hold the completed packets. -/
theorem TxRefines.fifos_eq (h : TxRefines s b) :
    ((List.range kNumTxQueues).flatMap fun q => (s.txDoneFifo q).contents.map fun p => (p, q))
      = ((List.range kNumTxQueues).flatMap fun q =>
          (queueOf b.done q).map fun a => (a, q)).map (Prod.map some id) := by
  rw [List.map_flatMap]
  congr 1
  funext q
  rw [(h.done_eq q).contents_eq, List.map_map, List.map_map]
  rfl

/-- The places that hold packets are the book's packets. -/
theorem TxBooked.whereabouts_perm (h : TxBooked m cap s b) :
    s.whereabouts.Perm (b.owned.map (Prod.map some id)) := by
  rw [TxSide.whereabouts, h.window_eq, h.refines.fifos_eq, ← List.map_append]
  apply List.Perm.map
  apply List.Perm.append_left
  apply flatMap_queueOf_perm
  intro x hx
  exact h.refines.queue_lt x (List.mem_append_right _ hx)

theorem TxBooked.one_place (h : TxBooked m cap s b) {p q : ℕ} (hpq : (p, q) ∈ accepted s.trace) :
    s.whereabouts.filter (·.1 = some p) = [(some p, q)] := by
  have hmem : (p, q) ∈ b.owned := h.ledger.perm.mem_iff.mpr hpq
  have hfun : ((fun x : Option ℕ × ℕ => decide (x.1 = some p)) ∘ Prod.map some id)
      = fun x : ℕ × ℕ => decide (x.1 = p) := by
    funext x
    simp
  have hfilter : (b.owned.map (Prod.map some id)).filter (·.1 = some p) = [(some p, q)] := by
    rw [List.filter_map, hfun, filter_fst_of_nodup h.ledger.nodup hmem]
    rfl
  have hperm := h.whereabouts_perm.filter (·.1 = some p)
  rw [hfilter] at hperm
  exact List.perm_singleton.mp hperm

theorem TxBooked.bytes (h : TxBooked m cap s b) :
    s.txInflightBytes
      = (window kNumTxDesc s.hw.txDirtyDescIndex s.hw.inFlight fun i => (s.txPktLen i : ℤ)).sum := by
  have hmap := congrArg (List.map fun x : Option ℕ × ℕ × ℕ => (x.2.2 : ℤ)) h.refines.ring_eq
  rw [window, List.map_map, List.map_map] at hmap
  rw [← h.length_eq, h.refines.bytes_eq]
  exact congrArg List.sum hmap.symm

/-- An idle ring is an empty book. -/
theorem TxBooked.ring_nil (h : TxBooked m cap s b) (hzero : s.hw.inFlight = 0) : b.ring = [] :=
  List.length_eq_zero_iff.mp (h.length_eq.trans hzero)

/-- **The booked invariant is conservation.** -/
theorem TxBooked.conserved (h : TxBooked m cap s b) : TxConserved s where
  one_place _ _ hpq := h.one_place hpq
  outside i _ hi := by
    rw [← h.length_eq] at hi
    exact h.refines.outside i hi
  bytes := h.bytes
  not_stuck hzero := by
    rw [h.refines.bytes_eq, h.ring_nil hzero]
    decide
  returned := h.ledger.returned

/-! ### Submission and collection -/

/-- Taking over one packet the framework holds. -/
theorem TxBooked.txAccept (h : TxBooked m cap s b) (hfree : 2 < s.hw.txNumFreeDesc) {q : ℕ}
    (hq : q < kNumTxQueues) {pkt : TxPacket} (hpool : pkt.id < kTxPoolPackets)
    (hfresh : pkt.id ∉ b.owned.map Prod.fst) :
    ∃ b' : TxBook, TxBooked m cap (txAccept q pkt s) b' ∧
      b'.owned.Perm ((pkt.id, q) :: b.owned) := by
  have hlt := h.acct.inFlight_lt hfree
  unfold Dext.txAccept
  split
  · obtain ⟨href, htrace⟩ := h.refines.txReject h.done_lt hq pkt
    refine ⟨_, ⟨h.acct, href, h.length_eq, ?_⟩, b.owned_complete _ _⟩
    rw [htrace]
    exact h.ledger.cons (b.owned_complete _ _) hpool hfresh rfl h.ledger.returned
  · rename_i iova _
    have hnext : s.hw.txNextDescIndex
        = slot kNumTxDesc s.hw.txDirtyDescIndex b.ring.length := by
      rw [h.length_eq]
      exact h.acct.next_eq
    have href := h.refines.txPlace (by rw [h.length_eq]; omega) hnext hq pkt iova
    refine ⟨_, ⟨h.acct.place hfree, href, ?_, ?_⟩, b.owned_place _⟩
    · rw [txPlace_hw, h.acct.inFlight_place hfree, ← h.length_eq]
      simp [TxBook.place]
    · exact h.ledger.cons (b.owned_place _) hpool hfresh rfl h.ledger.returned

theorem TxBooked.txDequeueLoop {q : ℕ} (hq : q < kNumTxQueues) {pkts : List TxPacket} {n : ℕ}
    {s : TxSide} {b : TxBook} (h : TxBooked m cap s b) (hnodup : (pkts.map TxPacket.id).Nodup)
    (hpkts : ∀ pkt ∈ pkts, pkt.id < kTxPoolPackets ∧ pkt.id ∉ b.owned.map Prod.fst) :
    ∃ b' : TxBook, TxBooked m cap (txDequeueLoop q pkts n s).2 b' := by
  induction pkts generalizing n s b with
  | nil => exact ⟨b, h⟩
  | cons pkt pkts ih =>
      rw [Dext.txDequeueLoop]
      split
      · exact ⟨b, h⟩
      · rename_i hspace
        rw [TxSide.noSpace, not_or] at hspace
        rw [List.map_cons, List.nodup_cons] at hnodup
        obtain ⟨hpool, hfresh⟩ := hpkts pkt (List.mem_cons_self ..)
        obtain ⟨b', hb', hperm⟩ := h.txAccept (by omega) hq hpool hfresh
        refine ih hb' hnodup.2 ?_
        intro pkt' hpkt'
        obtain ⟨hpool', hfresh'⟩ := hpkts pkt' (List.mem_cons_of_mem _ hpkt')
        refine ⟨hpool', ?_⟩
        -- the packets of one batch are distinct, so the rest of it is still with the framework
        rw [(hperm.map Prod.fst).mem_iff, List.map_cons, List.mem_cons, not_or]
        refine ⟨?_, hfresh'⟩
        intro he
        exact hnodup.1 (List.mem_map.mpr ⟨pkt', hpkt', he⟩)

theorem TxBooked.txDequeueAction (h : TxBooked m cap s b) {linkUp : Bool} {queue : PacketQueue}
    {pkts : List TxPacket} (hnodup : (pkts.map TxPacket.id).Nodup)
    (hpkts : ∀ pkt ∈ pkts, pkt.id < kTxPoolPackets ∧ pkt.id ∉ (accepted s.trace).map Prod.fst) :
    ∃ b' : TxBook, TxBooked m cap (txDequeueAction m linkUp queue pkts s).2 b' := by
  have hfresh : ∀ pkt ∈ pkts, pkt.id < kTxPoolPackets ∧ pkt.id ∉ b.owned.map Prod.fst := by
    intro pkt hpkt
    rw [(h.ledger.perm.map Prod.fst).mem_iff]
    exact hpkts pkt hpkt
  simp only [Dext.txDequeueAction]
  split
  · exact ⟨b, h⟩
  · obtain ⟨b', hb'⟩ := h.txDequeueLoop (n := 0) (txQueueIndex_lt queue) hnodup hfresh
    split
    · exact ⟨b', hb'.of_neutral (hb'.refines.congr rfl rfl rfl rfl) [.doorbell _]
        (by simp [TxEvent.neutral]) rfl rfl⟩
    · exact ⟨b', hb'⟩

theorem TxBooked.txEnqueueLoop {q n : ℕ} {s : TxSide} {b : TxBook} (h : TxBooked m cap s b) :
    ∃ b' : TxBook, TxBooked m cap (txEnqueueLoop q n s).2 b' := by
  induction n generalizing s b with
  | zero => exact ⟨b, h⟩
  | succ n ih =>
      rw [Dext.txEnqueueLoop]
      cases hq : queueOf b.done q with
      | nil =>
          obtain ⟨hnone, href⟩ := h.refines.popped_nil hq
          simp only [hnone]
          exact ⟨b, h.of_neutral href [] (by simp) rfl rfl⟩
      | cons p r =>
          obtain ⟨hsome, b', href, hring, hperm⟩ := h.refines.popped_cons hq
          simp only [hsome]
          refine ih (b := b') ⟨h.acct, href.congr rfl rfl rfl rfl, ?_, h.ledger.pop hperm⟩
          rw [hring]
          exact h.length_eq

/-! ### Reclaim and ring restarts -/

theorem txRequests_neutral (didWork : ℕ → Bool) : ∀ e ∈ txRequests didWork, e.neutral = true := by
  intro e he
  obtain ⟨i, rfl | rfl⟩ := mem_txRequests he <;> rfl

/-- **A reclaim moves the closed packets to their queues.** -/
theorem TxBooked.txRingReclaim (h : TxBooked m cap s b) {abort : Bool} {clo : ℕ}
    (hlegal : abort = false → LegalClose m s.hw clo) :
    TxBooked m cap (txRingReclaim m abort clo s) (b.retire (s.hw.numDone m abort clo)) := by
  have hle := h.acct.numDone_le hlegal
  have hclose : TxRefines (s.closeTo (s.hw.nextClose m abort clo)) b :=
    h.refines.congr rfl rfl rfl rfl
  have hroom := h.ledger.length_le.trans kTxPoolPackets_lt_kFifoMask.le
  obtain ⟨href, htrace⟩ := hclose.txRetireLoop (n := s.hw.numDone m abort clo)
    (by rw [h.length_eq]; exact hle) hroom abort fun _ => false
  refine ⟨h.acct.txRingReclaim hlegal, ?_, ?_, ?_⟩
  · rw [txRingReclaim_eq]
    refine href.congr ?_ rfl rfl rfl
    unfold txPublish
    split <;> rfl
  · rw [txRingReclaim_hw h.acct hle, h.acct.inFlight_reclaim hle, ← h.length_eq]
    exact List.length_drop
  · rw [txRingReclaim_eq]
    show TxLedger (txRequests _ ++ (Dext.txRetireLoop abort _ _ _).2.trace) _
    rw [htrace]
    refine TxLedger.of_neutral ?_ (.refl _) _ (txRequests_neutral _)
    exact h.ledger.of_neutral (b.owned_retire _) _ (retireTrace_neutral _ _)

/-- An abort empties the ring. -/
theorem TxBooked.abort_nil (h : TxBooked m cap s b) :
    (b.retire (s.hw.numDone m true 0)).ring = [] := by
  have hall : s.hw.numDone m true 0 = b.ring.length := h.acct.lag_eq.trans h.length_eq.symm
  rw [hall]
  exact List.drop_length

/-- A restart of an empty ring. -/
theorem TxBooked.restart {s' : TxSide} (h : TxBooked m cap s b) (hring : b.ring = [])
    (hhw : s'.hw = TxIndex.restart) (hpkt : s'.txPkt = s.txPkt)
    (hdone : s'.txDoneFifo = s.txDoneFifo) (hbytes : s'.txInflightBytes = 0)
    (htrace : s'.trace = .ringReset :: s.trace) : TxBooked m kNumTxDesc s' b where
  acct := by rw [hhw]; exact TxAcct.restart m
  refines := h.refines.restart hring (by rw [hhw]; rfl) hpkt hdone hbytes
  length_eq := by rw [hhw, hring]; decide
  ledger := by
    rw [htrace]
    exact h.ledger.of_neutral (.refl _) [.ringReset] (by simp [TxEvent.neutral])

/-- The invariant, for some capacity and some book. -/
def TxOnBooks (m : Mcfg) (s : TxSide) : Prop := ∃ cap b, TxBooked m cap s b

theorem TxOnBooks.conserved (hs : TxOnBooks m s) : TxConserved s := by
  obtain ⟨cap, b, h⟩ := hs
  exact h.conserved

theorem txRequestDequeueAll_neutral :
    ∀ e ∈ ((List.range kNumTxQueues).map TxEvent.requestDequeue).reverse, e.neutral = true := by
  intro e he
  rw [List.mem_reverse, List.mem_map] at he
  obtain ⟨i, _, rfl⟩ := he
  rfl

theorem TxOnBooks.reset (hs : TxOnBooks m s) (hidle : s.hw.inFlight = 0) :
    TxOnBooks m (txRingReset s) := by
  obtain ⟨cap, b, h⟩ := hs
  have hnil := h.ring_nil hidle
  refine ⟨kNumTxDesc, b, h.restart hnil rfl rfl rfl ?_ rfl⟩
  show s.txInflightBytes = 0
  rw [h.refines.bytes_eq, hnil]
  rfl

theorem TxOnBooks.txKept (m : Mcfg) : TxKept m (TxOnBooks m) (fun s => s.hw.inFlight = 0) where
  requestAll := by
    rintro s ⟨cap, b, h⟩
    exact ⟨cap, b, h.of_neutral (h.refines.congr rfl rfl rfl rfl) _ txRequestDequeueAll_neutral
      rfl rfl⟩
  reset _ hidle hs := hs.reset hidle
  idle_reset s := by
    show TxIndex.restart.inFlight = 0
    decide
  linkDown := by
    rintro s ⟨cap, b, h⟩
    have habort : TxBooked m cap (txRingReclaim m true 0 s) _ := h.txRingReclaim (by simp)
    exact ⟨kNumTxDesc, _, habort.restart h.abort_nil rfl rfl rfl rfl rfl⟩
  abort := by
    rintro s ⟨cap, b, h⟩
    exact ⟨cap, _, h.txRingReclaim (by simp)⟩

/-! ### Steps and runs -/

/-- **Every step keeps the books**, ring restarts on an idle ring included. -/
theorem TxOnBooks.txStep {c : Config} (d : Driver) (op : TxOp) (hd : TxOnBooks c.mcfg d.tx)
    (hop : TxPromise c d op ∧ TxQuiet d op) : TxOnBooks c.mcfg (txStep c d op).tx := by
  have hkept := TxOnBooks.txKept c.mcfg
  obtain ⟨hpromise, hquiet⟩ := hop
  cases op with
  | dequeue queue packets =>
      obtain ⟨cap, b, h⟩ := hd
      exact ⟨cap, h.txDequeueAction hpromise.1 hpromise.2⟩
  | reclaim clo =>
      obtain ⟨cap, b, h⟩ := hd
      exact ⟨cap, _, h.txRingReclaim fun _ => hpromise⟩
  | abort => exact hkept.abort _ hd
  | enqueue queue capacity =>
      obtain ⟨cap, b, h⟩ := hd
      exact ⟨cap, h.txEnqueueLoop⟩
  | link phy phy' => exact hkept.updateLinkStatus hd hquiet
  | enable on phy phy' =>
      cases on with
      | true => exact hkept.enable (hd.reset (hquiet rfl))
      | false => exact hkept.disable hd

/-- **Transmit packet conservation.**  In every run in which the ring is restarted (by a link-up
reading or by enabling the interface) only while nothing is in flight, every state reached
conserves packets and byte credit. -/
theorem txPackets_conserved (c : Config) (ops : List TxOp)
    (hrun : Along (txStep c) (fun d op => TxPromise c d op ∧ TxQuiet d op) Driver.init ops) :
    TxConserved (exec (txStep c) Driver.init ops).tx := by
  have hinit : TxOnBooks c.mcfg Driver.init.tx := ⟨0, _, TxBooked.init c.mcfg⟩
  exact (invariant_along TxOnBooks.txStep hinit hrun).conserved

/-- A link that comes up, one packet sent, and a second link-up reading while it is in flight. -/
def linkUpAgain : List TxOp :=
  [.enable true phy10G phy10G, .dequeue (.txSub 0) [plainPacket 0], .link phy10G phy10G]

/-- **A link-up reading loses the packet in flight**: it is neither in the window nor in a
completion FIFO any more. -/
theorem linkUp_loses_packet :
    Along (txStep copperConfig) (TxPromise copperConfig) Driver.init linkUpAgain ∧
      ¬ TxConserved (exec (txStep copperConfig) Driver.init linkUpAgain).tx := by
  refine ⟨⟨trivial, ⟨by decide, by decide⟩, trivial, trivial⟩, ?_⟩
  intro h
  have hplace := h.one_place 0 0 (by decide)
  have hnone : (exec (txStep copperConfig) Driver.init linkUpAgain).tx.whereabouts = [] := by
    decide
  rw [hnone] at hplace
  cases hplace

/-- Conservation through a packet sent, closed and collected, and a link change after it. -/
theorem txPackets_conserved_one_packet :
    TxConserved (exec (txStep copperConfig) Driver.init
      [.enable true phy10G phy10G, .dequeue (.txSub 0) [plainPacket 0], .reclaim 1,
        .enqueue (.txComp 0) 8, .link phy10G phy10G]).tx :=
  txPackets_conserved copperConfig _
    ⟨⟨trivial, fun _ => by decide⟩, ⟨⟨by decide, by decide⟩, trivial⟩, ⟨⟨1, by decide, by decide⟩, trivial⟩,
      ⟨trivial, trivial⟩, ⟨trivial, fun _ => by decide⟩, trivial⟩

end Rtl812x.Dext
