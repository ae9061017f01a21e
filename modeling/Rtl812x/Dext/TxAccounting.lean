import Rtl812x.Dext.TxRun

/-!
# Transmit ring accounting

Three counters with three moduli describe the transmit ring: the 32-bit tail, the close pointer at
the width the chip reports it, and the ring indices modulo `kNumTxDesc`.  `TxAcct m cap h` says
that they agree on the number of descriptors in flight and that `txNumFreeDesc` is `cap` minus that
number; `cap` is 0 until the ring is first set up and `kNumTxDesc` from then on.

* `TxAcct.place`, `TxAcct.reclaim` — a submission and a reclaim keep it, at every wrap;
* `handed`, `NoOverwrite` — the descriptors handed to the chip and not reclaimed, read off the
  record of what the calls did, and that no submission wrote one of them;
* `HandedIs` — those descriptors are the window from the dirty to the next index;
* `txRing_accounting` — **the accounting of every run.**
-/

namespace Rtl812x.Dext

open Circular WrapCounter Runs

/-! ### The counters -/

/-- The number of descriptors from the dirty index to the next one. -/
def TxIndex.inFlight (h : TxIndex) : ℕ :=
  lapse kNumTxDesc h.txDirtyDescIndex h.txNextDescIndex

/-- The ring counters agree. -/
structure TxAcct (m : Mcfg) (cap : ℕ) (h : TxIndex) : Prop where
  dirty_lt : h.txDirtyDescIndex < kNumTxDesc
  next_lt : h.txNextDescIndex < kNumTxDesc
  tail_lt : h.txTailPtr0 < 2 ^ 32
  close_lt : h.txClosePtr0 < 2 ^ 32
  lag_eq : lag (descPtrPeriod m) h.txTailPtr0 h.txClosePtr0 = h.inFlight
  free_eq : h.txNumFreeDesc = (cap : ℤ) - h.inFlight
  room : h.inFlight + 2 ≤ kNumTxDesc
  cap_le : cap ≤ kNumTxDesc

variable {m : Mcfg} {cap : ℕ} {h : TxIndex} {s : TxSide}

theorem kNumTxDesc_pos : 0 < kNumTxDesc := by decide

theorem succ_and_kTxDescMask (i : ℕ) : (i + 1) &&& kTxDescMask = slot kNumTxDesc i 1 :=
  and_kTxDescMask (i + 1)

theorem descPtrPeriod_pos (m : Mcfg) : 0 < descPtrPeriod m := Nat.succ_pos _

/-- Adding two small numbers does not leave the 32-bit range. -/
theorem osAddAtomic_eq {a b : ℤ} (hlo : -(2 ^ 31) ≤ a + b) (hhi : a + b < 2 ^ 31) :
    osAddAtomic b a = a + b := by
  unfold osAddAtomic
  rw [Int.bmod_eq_of_le] <;> omega

theorem TxAcct.next_eq (ha : TxAcct m cap h) :
    h.txNextDescIndex = slot kNumTxDesc h.txDirtyDescIndex h.inFlight :=
  (slot_lapse ha.dirty_lt ha.next_lt).symm

theorem TxAcct.restart (m : Mcfg) : TxAcct m kNumTxDesc TxIndex.restart where
  dirty_lt := kNumTxDesc_pos
  next_lt := kNumTxDesc_pos
  tail_lt := by decide
  close_lt := by decide
  lag_eq := lag_self (descPtrPeriod_dvd m) (by decide) (descPtrPeriod_pos m)
  free_eq := by decide
  room := by decide
  cap_le := le_refl _

theorem TxAcct.init (m : Mcfg) : TxAcct m 0 TxSide.init.hw where
  dirty_lt := kNumTxDesc_pos
  next_lt := kNumTxDesc_pos
  tail_lt := by decide
  close_lt := by decide
  lag_eq := lag_self (descPtrPeriod_dvd m) (by decide) (descPtrPeriod_pos m)
  free_eq := by decide
  room := by decide
  cap_le := Nat.zero_le _

/-- There is room for one more descriptor whenever the free count exceeds two. -/
theorem TxAcct.inFlight_lt (ha : TxAcct m cap h) (hfree : 2 < h.txNumFreeDesc) :
    h.inFlight + 3 ≤ kNumTxDesc := by
  have hf := ha.free_eq
  have hc := ha.cap_le
  omega

theorem TxAcct.inFlight_place (ha : TxAcct m cap h) (hfree : 2 < h.txNumFreeDesc) :
    h.place.inFlight = h.inFlight + 1 := by
  have hlt := ha.inFlight_lt hfree
  show lapse kNumTxDesc h.txDirtyDescIndex ((h.txNextDescIndex + 1) &&& kTxDescMask) = _
  rw [succ_and_kTxDescMask, ha.next_eq, slot_slot, lapse_slot ha.dirty_lt (by omega)]

/-- **Submitting a packet keeps the accounting.** -/
theorem TxAcct.place (ha : TxAcct m cap h) (hfree : 2 < h.txNumFreeDesc) :
    TxAcct m cap h.place := by
  have hlt := ha.inFlight_lt hfree
  have hin := ha.inFlight_place hfree
  have hperiod := kNumTxDesc_lt_descPtrPeriod m
  have hf := ha.free_eq
  have hcap : (cap : ℤ) ≤ 1024 := by exact_mod_cast ha.cap_le
  refine ⟨ha.dirty_lt, ?_, Nat.mod_lt _ (by decide), ha.close_lt, ?_, ?_, by omega, ha.cap_le⟩
  · rw [TxIndex.place, succ_and_kTxDescMask]
    exact slot_lt kNumTxDesc_pos _ _
  · have hlag : lag (descPtrPeriod m) h.txTailPtr0 h.txClosePtr0 + 1 < descPtrPeriod m := by
      rw [ha.lag_eq]
      omega
    rw [hin, ← ha.lag_eq]
    exact lag_add (descPtrPeriod_dvd m) ha.close_lt.le hlag
  · rw [hin]
    show osAddAtomic (-1) h.txNumFreeDesc = _
    rw [osAddAtomic_eq] <;> omega

/-- The counters after the descriptors up to `nextClose` were retired. -/
def TxIndex.reclaim (m : Mcfg) (nextClose : ℕ) (h : TxIndex) : TxIndex :=
  let numDone := lag (descPtrPeriod m) nextClose h.txClosePtr0
  { h with
    txClosePtr0 := nextClose
    txDirtyDescIndex := slot kNumTxDesc h.txDirtyDescIndex numDone
    txNumFreeDesc := h.txNumFreeDesc + numDone }

theorem TxAcct.inFlight_reclaim (ha : TxAcct m cap h) {nextClose : ℕ}
    (hle : lag (descPtrPeriod m) nextClose h.txClosePtr0 ≤ h.inFlight) :
    (h.reclaim m nextClose).inFlight
      = h.inFlight - lag (descPtrPeriod m) nextClose h.txClosePtr0 := by
  have hroom := ha.room
  have hnext : h.txNextDescIndex
      = slot kNumTxDesc (slot kNumTxDesc h.txDirtyDescIndex
          (lag (descPtrPeriod m) nextClose h.txClosePtr0))
          (h.inFlight - lag (descPtrPeriod m) nextClose h.txClosePtr0) := by
    rw [slot_slot, Nat.add_sub_cancel' hle]
    exact ha.next_eq
  show lapse kNumTxDesc (slot kNumTxDesc h.txDirtyDescIndex _) h.txNextDescIndex = _
  rw [hnext]
  exact lapse_slot (slot_lt kNumTxDesc_pos _ _) (by omega)

/-- **A reclaim keeps the accounting** as long as it stops at the tail. -/
theorem TxAcct.reclaim (ha : TxAcct m cap h) {nextClose : ℕ} (hclose : nextClose < 2 ^ 32)
    (hle : lag (descPtrPeriod m) nextClose h.txClosePtr0 ≤ h.inFlight) :
    TxAcct m cap (h.reclaim m nextClose) := by
  have hin := ha.inFlight_reclaim hle
  have hroom := ha.room
  refine ⟨slot_lt kNumTxDesc_pos _ _, ha.next_lt, ha.tail_lt, hclose, ?_, ?_, by omega, ha.cap_le⟩
  · rw [← ha.lag_eq] at hle
    rw [hin, ← ha.lag_eq]
    exact lag_advance (descPtrPeriod_dvd m) (descPtrPeriod_pos m) ha.close_lt.le hclose.le hle
  · rw [hin]
    show h.txNumFreeDesc + _ = _
    rw [ha.free_eq]
    omega

/-- A legal close pointer lies no further than the tail. -/
theorem LegalClose.lag_le (hl : LegalClose m h clo) (ha : TxAcct m cap h) :
    lag (descPtrPeriod m) (rtl812xGetHwCloPtr (hwSuppTxNoCloseVer m) clo) h.txClosePtr0
      ≤ h.inFlight := by
  obtain ⟨k, hk, hmod⟩ := hl
  rw [← ha.lag_eq]
  exact lag_le_of_modEq (descPtrPeriod_dvd m) (descPtrPeriod_pos m) ha.close_lt.le hk hmod

/-! ### What the functions do to the counters -/

@[simp] theorem txPlace_hw (q : ℕ) (pkt : TxPacket) (iova : ℕ) (s : TxSide) :
    (txPlace q pkt iova s).hw = s.hw.place := rfl

@[simp] theorem txRelease_hw (abort : Bool) (index : ℕ) (s : TxSide) :
    (txRelease abort index s).hw = s.hw := by
  unfold txRelease
  split <;> rfl

/-- Collecting completions does not touch the counters. -/
theorem txEnqueueLoop_hw (q n : ℕ) (s : TxSide) : (txEnqueueLoop q n s).2.hw = s.hw := by
  induction n generalizing s with
  | zero => rfl
  | succ n ih =>
      rw [txEnqueueLoop]
      split
      · rfl
      · exact ih _

theorem txRetire_hw (abort : Bool) (s : TxSide) :
    (txRetire abort s).hw
      = { s.hw with txDirtyDescIndex := slot kNumTxDesc s.hw.txDirtyDescIndex 1 } := by
  simp [txRetire, succ_and_kTxDescMask]

theorem txRetireLoop_hw (abort : Bool) (numDone : ℕ) (didWork : ℕ → Bool) (s : TxSide)
    (hdirty : s.hw.txDirtyDescIndex < kNumTxDesc) :
    (txRetireLoop abort numDone didWork s).2.hw
      = { s.hw with txDirtyDescIndex := slot kNumTxDesc s.hw.txDirtyDescIndex numDone } := by
  induction numDone generalizing didWork s with
  | zero => rw [txRetireLoop, slot_zero hdirty]
  | succ numDone ih =>
      rw [txRetireLoop, ih _ _ (by rw [txRetire_hw]; exact slot_lt kNumTxDesc_pos _ _), txRetire_hw]
      simp only [slot_slot, Nat.add_comm 1 numDone]

/-- The close pointer a reclaim takes over. -/
def TxIndex.nextClose (m : Mcfg) (abort : Bool) (clo : ℕ) (h : TxIndex) : ℕ :=
  if abort then h.txTailPtr0 else rtl812xGetHwCloPtr (hwSuppTxNoCloseVer m) clo

/-- How many descriptors a reclaim retires. -/
def TxIndex.numDone (m : Mcfg) (abort : Bool) (clo : ℕ) (h : TxIndex) : ℕ :=
  lag (descPtrPeriod m) (h.nextClose m abort clo) h.txClosePtr0

/-- The state in which a reclaim starts to retire descriptors. -/
def TxSide.closeTo (nextClose : ℕ) (s : TxSide) : TxSide :=
  { s with hw := { s.hw with txClosePtr0 := nextClose } }

/-- A reclaim retires the distance between two close pointers. -/
theorem txRingReclaim_eq (m : Mcfg) (abort : Bool) (clo : ℕ) (s : TxSide) :
    txRingReclaim m abort clo s
      = txPublish (s.hw.numDone m abort clo)
          (txRetireLoop abort (s.hw.numDone m abort clo) (fun _ => false)
            (s.closeTo (s.hw.nextClose m abort clo))).1
          (txRetireLoop abort (s.hw.numDone m abort clo) (fun _ => false)
            (s.closeTo (s.hw.nextClose m abort clo))).2 := by
  simp only [txRingReclaim, TxIndex.numDone, TxIndex.nextClose, TxSide.closeTo,
    sub32_and_maxTxDescPtrMask]

/-- A reclaim that the accounting allows: an abort, or a legal close pointer. -/
theorem TxAcct.numDone_le (ha : TxAcct m cap h) {abort : Bool} {clo : ℕ}
    (hlegal : abort = false → LegalClose m h clo) : h.numDone m abort clo ≤ h.inFlight := by
  cases abort with
  | true => exact ha.lag_eq.le
  | false => exact (hlegal rfl).lag_le ha

theorem TxAcct.nextClose_lt (ha : TxAcct m cap h) (abort : Bool) (clo : ℕ) :
    h.nextClose m abort clo < 2 ^ 32 := by
  cases abort with
  | true => exact ha.tail_lt
  | false => exact rtl812xGetHwCloPtr_lt _ _

theorem txPublish_hw (reclaimed : ℕ) (didWork : ℕ → Bool) (s : TxSide)
    (hlo : -1024 ≤ s.hw.txNumFreeDesc) (hhi : s.hw.txNumFreeDesc + reclaimed ≤ 4096) :
    (txPublish reclaimed didWork s).hw
      = { s.hw with txNumFreeDesc := s.hw.txNumFreeDesc + reclaimed } := by
  have hb : Int.bmod (reclaimed : ℤ) (2 ^ 32) = reclaimed := by
    apply Int.bmod_eq_of_le <;> omega
  unfold txPublish
  split
  · rename_i hzero
    simp [hzero]
  · rw [hb, osAddAtomic_eq] <;> omega

/-- **The counters after a reclaim.** -/
theorem txRingReclaim_hw (ha : TxAcct m cap s.hw) {abort : Bool} {clo : ℕ}
    (hle : s.hw.numDone m abort clo ≤ s.hw.inFlight) :
    (txRingReclaim m abort clo s).hw = s.hw.reclaim m (s.hw.nextClose m abort clo) := by
  have hroom : s.hw.inFlight + 2 ≤ 1024 := ha.room
  have hfree := ha.free_eq
  have hcap : cap ≤ 1024 := ha.cap_le
  have hloop := txRetireLoop_hw abort (s.hw.numDone m abort clo) (fun _ => false)
    (s.closeTo (s.hw.nextClose m abort clo)) ha.dirty_lt
  have hsame : (txRetireLoop abort (s.hw.numDone m abort clo) (fun _ => false)
      (s.closeTo (s.hw.nextClose m abort clo))).2.hw.txNumFreeDesc = s.hw.txNumFreeDesc := by
    rw [hloop]
    rfl
  rw [txRingReclaim_eq, txPublish_hw _ _ _ (by omega) (by omega), hloop]
  rfl

/-- **Every reclaim the environment allows keeps the accounting.** -/
theorem TxAcct.txRingReclaim (ha : TxAcct m cap s.hw) {abort : Bool} {clo : ℕ}
    (hlegal : abort = false → LegalClose m s.hw clo) :
    TxAcct m cap (txRingReclaim m abort clo s).hw := by
  have hle := ha.numDone_le hlegal
  rw [txRingReclaim_hw ha hle]
  exact ha.reclaim (ha.nextClose_lt abort clo) hle

/-! ### The descriptors handed to the chip -/

/-- The event is about the ring. -/
def TxEvent.onRing : TxEvent → Bool
  | .place .. | .retire .. | .ringReset => true
  | _ => false

/-- The descriptors handed to the chip since the last ring restart and not reclaimed. -/
def handed : List TxEvent → List ℕ
  | [] => []
  | .place i _ _ :: t => i :: handed t
  | .retire i :: t => (handed t).filter (· ≠ i)
  | .ringReset :: _ => []
  | _ :: t => handed t

/-- No submission wrote a descriptor that was still handed to the chip. -/
def NoOverwrite : List TxEvent → Prop
  | [] => True
  | .place i _ _ :: t => i ∉ handed t ∧ NoOverwrite t
  | _ :: t => NoOverwrite t

theorem handed_cons_of_offRing {e : TxEvent} (he : e.onRing = false) (t : List TxEvent) :
    handed (e :: t) = handed t ∧ (NoOverwrite (e :: t) ↔ NoOverwrite t) := by
  cases e <;> first | exact ⟨rfl, Iff.rfl⟩ | cases he

theorem handed_append_of_offRing {es : List TxEvent} (hes : ∀ e ∈ es, e.onRing = false)
    (t : List TxEvent) :
    handed (es ++ t) = handed t ∧ (NoOverwrite (es ++ t) ↔ NoOverwrite t) := by
  induction es with
  | nil => exact ⟨rfl, Iff.rfl⟩
  | cons e es ih =>
      obtain ⟨hhead, hno⟩ := handed_cons_of_offRing (hes e (List.mem_cons_self ..)) (es ++ t)
      obtain ⟨ihhead, ihno⟩ := ih fun e' he' => hes e' (List.mem_cons_of_mem _ he')
      exact ⟨hhead.trans ihhead, hno.trans ihno⟩

/-- The descriptors handed to the chip are the `k` from the dirty index on, and none of them was
ever written while handed. -/
structure HandedIs (k : ℕ) (s : TxSide) : Prop where
  mem_iff : ∀ i, i ∈ handed s.trace ↔ InWindow kNumTxDesc s.hw.txDirtyDescIndex k i
  noOverwrite : NoOverwrite s.trace

/-- What is recorded besides ring events, and what changes besides the dirty index, is of no
account. -/
theorem HandedIs.of_offRing {k : ℕ} {s s' : TxSide} (hs : HandedIs k s) (es : List TxEvent)
    (hes : ∀ e ∈ es, e.onRing = false) (htrace : s'.trace = es ++ s.trace)
    (hdirty : s'.hw.txDirtyDescIndex = s.hw.txDirtyDescIndex) : HandedIs k s' := by
  obtain ⟨hhanded, hno⟩ := handed_append_of_offRing hes s.trace
  refine ⟨?_, ?_⟩
  · intro i
    rw [htrace, hhanded, hdirty]
    exact hs.mem_iff i
  · rw [htrace, hno]
    exact hs.noOverwrite

/-- Completing a packet records one event, which is not about the ring. -/
theorem txComplete_trace (q p : ℕ) (status : IOReturn) (s : TxSide) :
    ∃ e : TxEvent, e.onRing = false ∧ (txComplete q p status s).trace = e :: s.trace := by
  unfold txComplete
  split
  · exact ⟨.push q p, rfl, rfl⟩
  · exact ⟨.dealloc p, rfl, rfl⟩

theorem HandedIs.txComplete {k q p : ℕ} {status : IOReturn} (hs : HandedIs k s) :
    HandedIs k (txComplete q p status s) := by
  obtain ⟨e, he, htrace⟩ := txComplete_trace q p status s
  exact hs.of_offRing [e] (by simpa using he) htrace rfl

theorem HandedIs.txReject {k q : ℕ} {pkt : TxPacket} (hs : HandedIs k s) :
    HandedIs k (txReject q pkt s) := by
  have hrec : HandedIs k { s with trace := .reject pkt.id q :: s.trace } :=
    hs.of_offRing [.reject pkt.id q] (by simp [TxEvent.onRing]) rfl rfl
  exact hrec.txComplete

/-- A submission writes the descriptor after the window. -/
theorem HandedIs.txPlace {q iova : ℕ} {pkt : TxPacket} (hs : HandedIs s.hw.inFlight s)
    (ha : TxAcct m cap s.hw) (hfree : 2 < s.hw.txNumFreeDesc) :
    HandedIs (s.hw.inFlight + 1) (txPlace q pkt iova s) := by
  have hlt := ha.inFlight_lt hfree
  refine ⟨?_, ?_, hs.noOverwrite⟩
  · intro i
    show i ∈ s.hw.txNextDescIndex :: handed s.trace ↔ InWindow _ s.hw.txDirtyDescIndex _ i
    rw [List.mem_cons, hs.mem_iff i, inWindow_snoc_iff, ← ha.next_eq]
    tauto
  · rw [hs.mem_iff, ha.next_eq]
    exact not_inWindow_next (by omega)

theorem HandedIs.txRelease {k : ℕ} (hs : HandedIs k s) (abort : Bool) (index : ℕ) :
    HandedIs k (txRelease abort index s) := by
  unfold Dext.txRelease
  split
  · exact hs
  · apply HandedIs.txComplete
    exact hs.of_offRing [] (by simp) rfl rfl

/-- A retirement takes the first descriptor off the window. -/
theorem HandedIs.txRetire {k : ℕ} {abort : Bool} (hs : HandedIs (k + 1) s)
    (hdirty : s.hw.txDirtyDescIndex < kNumTxDesc) (hk : k < kNumTxDesc) :
    HandedIs k (txRetire abort s) := by
  have hrel := hs.txRelease abort s.hw.txDirtyDescIndex
  refine ⟨?_, hrel.noOverwrite⟩
  intro i
  rw [txRetire_hw]
  show i ∈ (handed (Dext.txRelease abort s.hw.txDirtyDescIndex s).trace).filter _ ↔ _
  rw [List.mem_filter, hrel.mem_iff i, txRelease_hw, inWindow_succ_iff hdirty]
  have hfirst := first_not_inWindow hdirty hk
  constructor
  · rintro ⟨rfl | h, hne⟩
    · simp at hne
    · exact h
  · intro h
    refine ⟨Or.inr h, ?_⟩
    simp only [decide_not, Bool.not_eq_true', decide_eq_false_iff_not]
    rintro rfl
    exact hfirst h

theorem HandedIs.txRetireLoop {k numDone : ℕ} {s : TxSide} (hs : HandedIs (k + numDone) s)
    (hdirty : s.hw.txDirtyDescIndex < kNumTxDesc) (hk : k + numDone ≤ kNumTxDesc) (abort : Bool)
    (didWork : ℕ → Bool) :
    HandedIs k (txRetireLoop abort numDone didWork s).2 := by
  induction numDone generalizing didWork s with
  | zero => exact hs
  | succ numDone ih =>
      refine ih (HandedIs.txRetire hs hdirty (by omega)) ?_ (by omega) _
      rw [txRetire_hw]
      exact slot_lt kNumTxDesc_pos _ _

/-- A reclaim only asks the queues to be served. -/
theorem mem_txRequests {didWork : ℕ → Bool} {e : TxEvent} (he : e ∈ txRequests didWork) :
    ∃ i, e = .requestEnqueue i ∨ e = .requestDequeue i := by
  unfold txRequests at he
  split at he
  · simp only [List.mem_reverse, List.mem_flatMap, List.mem_append] at he
    obtain ⟨i, _, h | h⟩ := he
    · split at h
      · exact ⟨i, Or.inl (List.mem_singleton.mp h)⟩
      · cases h
    · exact ⟨i, Or.inr (List.mem_singleton.mp h)⟩
  · cases he

theorem txRequests_offRing (didWork : ℕ → Bool) : ∀ e ∈ txRequests didWork, e.onRing = false := by
  intro e he
  obtain ⟨i, rfl | rfl⟩ := mem_txRequests he <;> rfl

theorem HandedIs.txRingReclaim {abort : Bool} {clo : ℕ} (hs : HandedIs s.hw.inFlight s)
    (ha : TxAcct m cap s.hw) (hle : s.hw.numDone m abort clo ≤ s.hw.inFlight) :
    HandedIs (s.hw.inFlight - s.hw.numDone m abort clo) (txRingReclaim m abort clo s) := by
  have hroom := ha.room
  have hclose : HandedIs s.hw.inFlight (s.closeTo (s.hw.nextClose m abort clo)) :=
    hs.of_offRing [] (by simp) rfl rfl
  rw [← Nat.sub_add_cancel hle] at hclose
  have hloop := hclose.txRetireLoop ha.dirty_lt (by omega) abort fun _ => false
  rw [txRingReclaim_eq]
  refine hloop.of_offRing _ (txRequests_offRing _) rfl ?_
  unfold txPublish
  split <;> rfl

/-! ### Steps and runs -/

/-- The counters agree and the chip holds exactly the window they describe. -/
structure TxRingInv (m : Mcfg) (cap : ℕ) (s : TxSide) : Prop where
  acct : TxAcct m cap s.hw
  handedIs : HandedIs s.hw.inFlight s

theorem TxRingInv.of_offRing {s' : TxSide} (hs : TxRingInv m cap s) (es : List TxEvent)
    (hes : ∀ e ∈ es, e.onRing = false) (htrace : s'.trace = es ++ s.trace) (hhw : s'.hw = s.hw) :
    TxRingInv m cap s' := by
  refine ⟨?_, ?_⟩
  · rw [hhw]
    exact hs.acct
  · rw [hhw]
    exact hs.handedIs.of_offRing es hes htrace (by rw [hhw])

theorem TxRingInv.txAccept {q : ℕ} {pkt : TxPacket} (hs : TxRingInv m cap s)
    (hfree : 2 < s.hw.txNumFreeDesc) : TxRingInv m cap (txAccept q pkt s) := by
  unfold Dext.txAccept
  split
  · exact ⟨hs.acct, hs.handedIs.txReject⟩
  · refine ⟨hs.acct.place hfree, ?_⟩
    rw [txPlace_hw, hs.acct.inFlight_place hfree]
    exact hs.handedIs.txPlace hs.acct hfree

theorem TxRingInv.txDequeueLoop {q : ℕ} {pkts : List TxPacket} {accepted : ℕ} {s : TxSide}
    (hs : TxRingInv m cap s) : TxRingInv m cap (txDequeueLoop q pkts accepted s).2 := by
  induction pkts generalizing accepted s with
  | nil => exact hs
  | cons pkt pkts ih =>
      rw [Dext.txDequeueLoop]
      split
      · exact hs
      · rename_i hspace
        rw [TxSide.noSpace, not_or] at hspace
        exact ih (hs.txAccept (by omega))

/-- **A submission keeps the invariant.** -/
theorem TxRingInv.txDequeueAction {linkUp : Bool} {queue : PacketQueue} {pkts : List TxPacket}
    (hs : TxRingInv m cap s) : TxRingInv m cap (txDequeueAction m linkUp queue pkts s).2 := by
  simp only [Dext.txDequeueAction]
  split
  · exact hs
  · split
    · exact hs.txDequeueLoop.of_offRing [.doorbell _] (by simp [TxEvent.onRing]) rfl rfl
    · exact hs.txDequeueLoop

/-- Collecting completions does not touch the ring. -/
theorem TxRingInv.txEnqueueLoop {q n : ℕ} {s : TxSide} (hs : TxRingInv m cap s) :
    TxRingInv m cap (txEnqueueLoop q n s).2 := by
  induction n generalizing s with
  | zero => exact hs
  | succ n ih =>
      rw [Dext.txEnqueueLoop]
      split
      · exact hs.of_offRing [] (by simp) rfl rfl
      · rename_i p _
        exact ih (hs.of_offRing [.pop q p] (by simp [TxEvent.onRing]) rfl rfl)

/-- **A reclaim keeps the invariant.** -/
theorem TxRingInv.txRingReclaim {abort : Bool} {clo : ℕ} (hs : TxRingInv m cap s)
    (hlegal : abort = false → LegalClose m s.hw clo) :
    TxRingInv m cap (txRingReclaim m abort clo s) := by
  have hle := hs.acct.numDone_le hlegal
  refine ⟨hs.acct.txRingReclaim hlegal, ?_⟩
  rw [txRingReclaim_hw hs.acct hle, hs.acct.inFlight_reclaim hle]
  exact hs.handedIs.txRingReclaim hs.acct hle

/-- A ring restart establishes the invariant at full capacity. -/
theorem TxRingInv.txRingReset (hs : NoOverwrite s.trace) :
    TxRingInv m kNumTxDesc (txRingReset s) := by
  refine ⟨TxAcct.restart m, ?_, hs⟩
  intro i
  have hzero : (Dext.txRingReset s).hw.inFlight = 0 := by
    show TxIndex.restart.inFlight = 0
    decide
  rw [hzero]
  exact ⟨fun h => absurd h (List.not_mem_nil), fun h => absurd h not_inWindow_zero⟩

theorem TxRingInv.init (m : Mcfg) : TxRingInv m 0 TxSide.init := by
  refine ⟨TxAcct.init m, ?_, trivial⟩
  intro i
  exact ⟨fun h => absurd h (List.not_mem_nil), fun h => absurd h not_inWindow_zero⟩

theorem txRequestDequeueAll_offRing :
    ∀ e ∈ ((List.range kNumTxQueues).map TxEvent.requestDequeue).reverse, e.onRing = false := by
  intro e he
  rw [List.mem_reverse, List.mem_map] at he
  obtain ⟨i, _, rfl⟩ := he
  rfl

/-- The invariant holds at one of the admitted capacities. -/
def TxRingAt (m : Mcfg) (ok : ℕ → Prop) (s : TxSide) : Prop := ∃ cap, ok cap ∧ TxRingInv m cap s

variable {ok : ℕ → Prop}

theorem TxRingAt.txKept (m : Mcfg) (hok : ok kNumTxDesc) :
    TxKept m (TxRingAt m ok) (fun _ => True) where
  requestAll := by
    rintro s ⟨cap, hcap, hs⟩
    exact ⟨cap, hcap, hs.of_offRing _ txRequestDequeueAll_offRing rfl rfl⟩
  reset := by
    rintro s - ⟨cap, -, hs⟩
    exact ⟨kNumTxDesc, hok, .txRingReset hs.handedIs.noOverwrite⟩
  idle_reset _ := trivial
  linkDown := by
    rintro s ⟨cap, -, hs⟩
    have habort : TxRingInv m cap (txRingReclaim m true 0 s) := hs.txRingReclaim (by simp)
    have hreset : TxRingInv m kNumTxDesc (txRingReset (txRingReclaim m true 0 s)) :=
      .txRingReset habort.handedIs.noOverwrite
    exact ⟨kNumTxDesc, hok, hreset.of_offRing [] (by simp) rfl rfl⟩
  abort := by
    rintro s ⟨cap, hcap, hs⟩
    exact ⟨cap, hcap, hs.txRingReclaim (by simp)⟩

/-- The close-pointer readings of a run are legal. -/
def TxLegal (c : Config) (d : Driver) : TxOp → Prop
  | .reclaim clo => LegalClose c.mcfg d.tx.hw clo
  | _ => True

/-- **Every step keeps the invariant.** -/
theorem TxRingAt.txStep {c : Config} (hok : ok kNumTxDesc) (d : Driver) (op : TxOp)
    (hd : TxRingAt c.mcfg ok d.tx) (hop : TxLegal c d op) :
    TxRingAt c.mcfg ok (txStep c d op).tx := by
  have hkept := TxRingAt.txKept c.mcfg hok
  obtain ⟨cap, hcap, hs⟩ := hd
  cases op with
  | dequeue queue packets => exact ⟨cap, hcap, hs.txDequeueAction⟩
  | reclaim clo => exact ⟨cap, hcap, hs.txRingReclaim fun _ => hop⟩
  | abort => exact ⟨cap, hcap, hs.txRingReclaim (by simp)⟩
  | enqueue queue capacity => exact ⟨cap, hcap, hs.txEnqueueLoop⟩
  | link phy phy' => exact hkept.updateLinkStatus ⟨cap, hcap, hs⟩ fun _ => trivial
  | enable on phy phy' =>
      cases on with
      | true => exact hkept.enable ⟨kNumTxDesc, hok, .txRingReset hs.handedIs.noOverwrite⟩
      | false => exact hkept.disable ⟨cap, hcap, hs⟩

/-- Enabling the interface sets the ring up. -/
theorem TxRingAt.enabled {c : Config} {d : Driver} (phy phy' : UInt32)
    (hd : TxRingAt c.mcfg ok d.tx) :
    TxRingAt c.mcfg (kNumTxDesc = ·) (setInterfaceEnable c true phy phy' d).tx := by
  obtain ⟨cap, -, hs⟩ := hd
  have hkept : TxKept c.mcfg (TxRingAt c.mcfg (kNumTxDesc = ·)) _ := TxRingAt.txKept c.mcfg rfl
  exact hkept.enable ⟨kNumTxDesc, rfl, .txRingReset hs.handedIs.noOverwrite⟩

/-- **Transmit ring accounting.**  From the first `setInterfaceEnable(true)` on, in every run with
legal close pointers, however often the counters wrap: the free count stays between 2 and
`kNumTxDesc`, the three descriptions of what is in flight agree, and no submission ever wrote a
descriptor the chip still had. -/
theorem txRing_accounting (c : Config) (before ops : List TxOp) (phy phy' : UInt32)
    (hlegal : Along (txStep c) (TxLegal c) Driver.init (before ++ .enable true phy phy' :: ops)) :
    let s := (exec (txStep c) Driver.init (before ++ .enable true phy phy' :: ops)).tx
    (2 ≤ s.hw.txNumFreeDesc ∧ s.hw.txNumFreeDesc ≤ kNumTxDesc) ∧
    ((s.hw.txTailPtr0 : ℤ) - s.hw.txClosePtr0) % (maxTxDescPtrMask (hwSuppTxNoCloseVer c.mcfg) + 1)
      = kNumTxDesc - s.hw.txNumFreeDesc ∧
    (s.hw.txNextDescIndex : ℤ)
      = (s.hw.txDirtyDescIndex + (kNumTxDesc - s.hw.txNumFreeDesc)) % kNumTxDesc ∧
    NoOverwrite s.trace := by
  intro s
  rw [along_append] at hlegal
  obtain ⟨hbefore, _, hafter⟩ := hlegal
  have hinit : TxRingAt c.mcfg (fun _ => True) (exec (txStep c) Driver.init before).tx :=
    invariant_along (TxRingAt.txStep trivial) ⟨0, trivial, TxRingInv.init c.mcfg⟩ hbefore
  have hrun : TxRingAt c.mcfg (kNumTxDesc = ·) s := by
    have hs : s = (exec (txStep c)
        (setInterfaceEnable c true phy phy' (exec (txStep c) Driver.init before)) ops).tx :=
      congrArg Driver.tx (exec_append _ _ _ _)
    rw [hs]
    exact invariant_along (TxRingAt.txStep rfl) (hinit.enabled phy phy') hafter
  obtain ⟨cap, rfl, hs⟩ := hrun
  have hroom := hs.acct.room
  have hfree := hs.acct.free_eq
  have hin : (kNumTxDesc : ℤ) - s.hw.txNumFreeDesc = s.hw.inFlight := by omega
  refine ⟨⟨by omega, by omega⟩, ?_, ?_, hs.handedIs.noOverwrite⟩
  · rw [hin, ← hs.acct.lag_eq, lag_cast (descPtrPeriod_dvd _) (descPtrPeriod_pos _) hs.acct.close_lt.le]
    rfl
  · rw [hin]
    exact_mod_cast hs.acct.next_eq

/-- The accounting after one packet was sent and closed. -/
theorem txRing_accounting_one_packet :
    NoOverwrite (exec (txStep copperConfig) Driver.init
      [.enable true phy10G phy10G, .dequeue (.txSub 0) [plainPacket 0], .reclaim 1]).tx.trace :=
  (txRing_accounting copperConfig [] [.dequeue (.txSub 0) [plainPacket 0], .reclaim 1]
    phy10G phy10G ⟨trivial, trivial, ⟨1, by decide, by decide⟩, trivial⟩).2.2.2

end Rtl812x.Dext
