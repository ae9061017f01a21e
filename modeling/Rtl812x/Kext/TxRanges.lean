import Rtl812x.Kext.TxInStep
import Rtl812x.Kext.TxRingInv
import Rtl812x.Lib.Blocks

/-!
# The address ranges of packets in flight

`txMapPacket` hands the framework an array of address ranges, one per segment, which it writes to
`txMemRange` from `txNextDescIndex` on; with `kIOMemoryAsReference` the framework goes on reading them
there until the mapping is taken down.  The descriptors of a packet wrap at `kNumTxDesc`, its ranges do
not: the array is `kMaxSegs` entries longer than the ring.

A packet keeps its ranges until its last descriptor is retired; its other descriptors are free as
soon as they are retired.  So with part of the oldest packet retired the room that `outputStart` finds
includes descriptors whose ranges are still in use, and a new packet may be given them.

* `TxFlight`, `FlightSide` — the packets in flight, each with the ranges `txMapPacket` filled;
* `FlightInv` — the packets in flight lie one after the other on the ring, and the oldest may be
  retired in part;
* `RangesApart` — the ranges in use are disjoint and lie in the array;
* `ReusesRanges` — a packet placed before the oldest one in flight whose ranges reach it;
* `txRanges_apart_iff` — **the ranges stay apart exactly in the runs that reuse none.**
-/

namespace Rtl812x.Kext

open Circular WrapCounter Runs Blocks

def kNumTxRanges : ℕ := kNumTxDesc + kMaxSegs

/-! ### Packets in flight -/

/-- A packet in flight: the index of its first descriptor, how many it has, and whether `txMapPacket`
filled the ranges from that index on (it does not when no memory descriptor is left). -/
structure TxFlight where
  index : ℕ
  n : ℕ
  filled : Bool
deriving DecidableEq, Repr

/-- The transmit side with the packets in flight, oldest first. -/
structure FlightSide where
  side : TxSide
  flights : List TxFlight

/-- The packet that a round of `outputStart` puts on the ring. -/
def placed (cfg : TxConfig) (o : TxOffer) (s : TxSide) : Option TxFlight :=
  if (s.enabled && s.linkUp) = true ∧ (kMaxSegs : ℤ) + 3 < s.hw.txNumFreeDesc ∧
      o.pkt.tsoError = false then
    let numSegs := (txMapPacket cfg o.pkt kMaxSegs o.result o.vector s).1
    if numSegs = 0 then none
    else some ⟨s.hw.txNextDescIndex, numSegs, decide (1 < s.txNumFreeMem)⟩
  else none

/-- One round of `txInterrupt`: the oldest packet lands with the descriptor that carries its mbuf. -/
def retireFlight (f : FlightSide) : FlightSide where
  side := retireDesc f.side
  flights := if (f.side.txMbuf f.side.hw.txDirtyDescIndex).isSome then f.flights.tail else f.flights

def flightStep (cfg : TxConfig) (f : FlightSide) : TxOp → FlightSide
  | .output o => ⟨txStep cfg f.side (.output o), f.flights ++ (placed cfg o f.side).toList⟩
  | .doorbell => ⟨txStep cfg f.side .doorbell, f.flights⟩
  | .interrupt reg =>
      retireFlight^[TxRing.numDone cfg reg f.side] ⟨TxRing.readClose cfg reg f.side, f.flights⟩
  | .clear => ⟨clearRxTxRings f.side, []⟩
  | .link status => ⟨rtl812xCheckLinkStatus status f.side, f.flights⟩

/-- The record of flights does not change what the driver does. -/
theorem flightStep_side (cfg : TxConfig) (f : FlightSide) (op : TxOp) :
    (flightStep cfg f op).side = txStep cfg f.side op := by
  cases op with
  | interrupt reg =>
      have hsemi : Function.Semiconj FlightSide.side retireFlight retireDesc := fun _ => rfl
      exact hsemi.iterate_right _ _
  | output o => rfl
  | doorbell => rfl
  | clear => rfl
  | link status => rfl

/-- A run with the record is a run of the driver. -/
theorem exec_flightStep_side (cfg : TxConfig) (f : FlightSide) (ops : List TxOp) :
    (exec (flightStep cfg) f ops).side = exec (txStep cfg) f.side ops := by
  induction ops generalizing f with
  | nil => rfl
  | cons op ops ih => rw [exec, exec, ih, flightStep_side]

/-- A call of `outputStart` is the run of its rounds. -/
theorem exec_flightStep_outputStart (cfg : TxConfig) (f : FlightSide) (queue : List TxOffer) :
    (exec (flightStep cfg) f (queue.map .output ++ [.doorbell])).side = outputStart cfg queue f.side := by
  rw [exec_flightStep_side, outputStart_eq_exec]

/-- The runs: rounds of `outputStart`, `txInterrupt` with legal close pointers, `clearRxTxRings`. -/
def RangeLegal (cfg : TxConfig) (f : FlightSide) : TxOp → Prop
  | .interrupt reg => LegalClose cfg.mcfg f.side.hw reg
  | .link _ => False
  | _ => True

/-! ### The property and the condition -/

/-- The ranges `txMapPacket` filled for the packet. -/
def TxFlight.Uses (a : TxFlight) (i : ℕ) : Prop :=
  a.filled = true ∧ a.index ≤ i ∧ i < a.index + a.n

/-- **No range is in use for two packets in flight**, and all of them are in the array. -/
structure RangesApart (flights : List TxFlight) : Prop where
  disjoint : flights.Pairwise fun a b => ∀ i, a.Uses i → ¬ b.Uses i
  inside : ∀ a ∈ flights, ∀ i, a.Uses i → i < kNumTxRanges

/-- A packet is put on the ring while the next descriptor comes before the oldest packet in flight, and it
has so many segments that the ranges from there on reach those of that packet. -/
def ReusesRanges (cfg : TxConfig) (f : FlightSide) : TxOp → Prop
  | .output o => (placed cfg o f.side).isSome = true ∧ 1 < f.side.txNumFreeMem ∧
      ∃ a ∈ f.flights.head?, a.filled = true ∧ f.side.hw.txNextDescIndex < a.index ∧
        a.index < f.side.hw.txNextDescIndex + (virtualSegments cfg.pageSize o.pkt.chain).length
  | _ => False

/-- The packet lies at the next descriptor, with the segments of its chain. -/
theorem placed_eq {cfg : TxConfig} {o : TxOffer} {s : TxSide} {b : TxFlight} (h : placed cfg o s = some b) :
    b = ⟨s.hw.txNextDescIndex, (virtualSegments cfg.pageSize o.pkt.chain).length,
      decide (1 < s.txNumFreeMem)⟩ := by
  have hcount : ∀ maxSegs, (txMapPacket cfg o.pkt maxSegs o.result o.vector s).1 = 0 ∨
      (txMapPacket cfg o.pkt maxSegs o.result o.vector s).1 =
        (virtualSegments cfg.pageSize o.pkt.chain).length := by
    intro maxSegs
    rw [txMapPacket]
    split
    · exact .inl rfl
    · split
      · dsimp only
        split
        · exact .inr rfl
        · exact .inl rfl
      · exact .inr rfl
  rw [placed] at h
  split at h
  · rcases hcount kMaxSegs with hzero | hsegs
    · rw [if_pos hzero] at h
      cases h
    · dsimp only at h
      split at h
      · cases h
      · rw [hsegs] at h
        exact (Option.some.inj h).symm
  · cases h

/-- The condition by the packet that is placed. -/
theorem reusesRanges_output {cfg : TxConfig} {f : FlightSide} {o : TxOffer} :
    ReusesRanges cfg f (.output o) ↔ ∃ a ∈ f.flights.head?, ∃ b ∈ placed cfg o f.side,
      a.filled = true ∧ b.filled = true ∧ b.index < a.index ∧ a.index < b.index + b.n := by
  rw [ReusesRanges]
  constructor
  · rintro ⟨hsome, hmem, a, ha, hfilled, hbefore, hreach⟩
    obtain ⟨b, hb⟩ := Option.isSome_iff_exists.mp hsome
    obtain rfl := placed_eq hb
    exact ⟨a, ha, _, hb, hfilled, decide_eq_true hmem, hbefore, hreach⟩
  · rintro ⟨a, ha, b, hb, hfilled, hfilled', hbefore, hreach⟩
    obtain rfl := placed_eq hb
    exact ⟨by rw [Option.mem_def.mp hb]; rfl, of_decide_eq_true hfilled', a, ha, hfilled, hbefore, hreach⟩

instance (cfg : TxConfig) (f : FlightSide) : (op : TxOp) → Decidable (RangeLegal cfg f op)
  | .interrupt reg => inferInstanceAs (Decidable (LegalClose cfg.mcfg f.side.hw reg))
  | .link _ => isFalse id
  | .output _ | .doorbell | .clear => isTrue trivial

instance (cfg : TxConfig) (f : FlightSide) : (op : TxOp) → Decidable (ReusesRanges cfg f op)
  | .output o => inferInstanceAs (Decidable ((placed cfg o f.side).isSome = true ∧ 1 < f.side.txNumFreeMem ∧
      ∃ a ∈ f.flights.head?, a.filled = true ∧ f.side.hw.txNextDescIndex < a.index ∧
        a.index < f.side.hw.txNextDescIndex + (virtualSegments cfg.pageSize o.pkt.chain).length))
  | .interrupt _ | .link _ | .doorbell | .clear => isFalse id

/-! ### The invariant -/

/-- The packets in flight lie one after the other from `first` on; `lead` descriptors of the oldest are
retired, and `n` descriptors are in flight, `j` of them closed.  Each packet's mbuf stands in its last
descriptor. -/
structure FlightInv (m : Mcfg) (f : FlightSide) (first lead n j : ℕ) : Prop where
  acct : RingAcct m f.side.hw n j
  first_lt : first < kNumTxDesc
  consecutive : Consecutive kNumTxDesc TxFlight.index TxFlight.n first f.flights
  size : ∀ a ∈ f.flights, 1 ≤ a.n ∧ a.n ≤ kMaxSegs
  dirty : f.side.hw.txDirtyDescIndex = slot kNumTxDesc first lead
  extent_eq : extent TxFlight.n f.flights = lead + n
  begun : ∀ a ∈ f.flights.head?, lead < a.n
  mbufs : (f.side.onRing n).map Option.isSome = (marks TxFlight.n f.flights).drop lead

variable {m : Mcfg} {f : FlightSide} {first lead n j : ℕ} {cfg : TxConfig} {a b : TxFlight}

/-- The next packet begins where those in flight end. -/
theorem FlightInv.next_eq (h : FlightInv m f first lead n j) :
    f.side.hw.txNextDescIndex = slot kNumTxDesc first (extent TxFlight.n f.flights) := by
  rw [h.acct.next_eq, h.dirty, slot_slot, h.extent_eq]

/-- The packets in flight, and where the next one goes, are about the ring only. -/
theorem FlightInv.congr {s' : TxSide} (h : FlightInv m f first lead n j) (hhw : s'.hw = f.side.hw)
    (hmbuf : s'.txMbuf = f.side.txMbuf) : FlightInv m ⟨s', f.flights⟩ first lead n j where
  acct := by
    rw [hhw]
    exact h.acct
  first_lt := h.first_lt
  consecutive := h.consecutive
  size := h.size
  dirty := by
    rw [hhw]
    exact h.dirty
  extent_eq := h.extent_eq
  begun := h.begun
  mbufs := by
    rw [TxSide.onRing, hhw, hmbuf]
    exact h.mbufs

/-- An empty ring. -/
theorem FlightInv.empty {s : TxSide} (hhw : s.hw = TxIndex.restart) :
    FlightInv m ⟨s, []⟩ 0 0 0 0 where
  acct := by
    rw [hhw]
    exact RingAcct.restart m
  first_lt := by decide
  consecutive := trivial
  size := nofun
  dirty := by
    rw [hhw]
    rfl
  extent_eq := rfl
  begun := nofun
  mbufs := rfl

/-! ### Placing a packet -/

/-- What a round of `outputStart` does to the ring: nothing, or the packet is placed. -/
theorem txStep_output_cases (cfg : TxConfig) (o : TxOffer) (s : TxSide) :
    (placed cfg o s = none ∧ (txStep cfg s (.output o)).hw = s.hw ∧
      (txStep cfg s (.output o)).txMbuf = s.txMbuf) ∨
    ∃ b s' segs cmd opts2, placed cfg o s = some b ∧ (kMaxSegs : ℤ) + 3 < s.hw.txNumFreeDesc ∧
      b.index = s.hw.txNextDescIndex ∧ segs.length = b.n ∧ segs ≠ [] ∧ b.n ≤ kMaxSegs ∧
      s'.hw = s.hw ∧ s'.txMbuf = s.txMbuf ∧
      txStep cfg s (.output o) = placePacket cmd opts2 o.pkt.id segs s' := by
  obtain ⟨hkept, hmax⟩ :=
    TxRing.txMapPacket_ringKept cfg o.pkt kMaxSegs o.result o.vector s
  simp only [txStep, placed, outputRound, outputPacket]
  by_cases hflags : (s.enabled && s.linkUp) = true
  case neg => exact Or.inl ⟨if_neg fun h => hflags h.1, by rw [if_neg hflags], by rw [if_neg hflags]⟩
  rw [if_pos hflags]
  by_cases hroom : (kMaxSegs : ℤ) + 3 < s.hw.txNumFreeDesc
  case neg => exact Or.inl ⟨if_neg fun h => hroom h.2.1, by rw [if_neg hroom], by rw [if_neg hroom]⟩
  rw [if_pos hroom]
  by_cases htso : o.pkt.tsoError = true
  case pos => exact Or.inl ⟨if_neg (by simp [htso]), by rw [if_pos htso]; rfl, by rw [if_pos htso]; rfl⟩
  rw [if_neg htso, if_pos ⟨hflags, hroom, by simpa using htso⟩]
  by_cases hzero : (txMapPacket cfg o.pkt kMaxSegs o.result o.vector s).1 = 0
  case pos =>
    rw [if_pos hzero, if_pos hzero]
    exact Or.inl ⟨rfl, hkept.hw, hkept.txMbuf⟩
  rw [if_neg hzero, if_neg hzero]
  refine Or.inr ⟨_, _, _, _, _, rfl, hroom, rfl, ?_, ?_, hmax, hkept.hw, hkept.txMbuf, rfl⟩
  · rw [List.length_map, List.length_range]
  · rw [Ne, List.map_eq_nil_iff, List.range_eq_nil]
    exact hzero

/-- **A placed packet** is the last in flight. -/
theorem FlightInv.place {s' : TxSide} {segs : List Segment} (h : FlightInv m f first lead n 0)
    (hroom : (kMaxSegs : ℤ) + 3 < f.side.hw.txNumFreeDesc) (hindex : b.index = f.side.hw.txNextDescIndex)
    (hlen : segs.length = b.n) (hsegs : segs ≠ []) (hmax : b.n ≤ kMaxSegs)
    (hhw : s'.hw = f.side.hw) (hmbuf : s'.txMbuf = f.side.txMbuf) (cmd opts2 : UInt32) (p : ℕ) :
    FlightInv m ⟨placePacket cmd opts2 p segs s', f.flights ++ [b]⟩ first lead (n + b.n) 0 := by
  have hpos : 1 ≤ b.n := by
    rw [← hlen]
    exact List.length_pos_iff.mpr hsegs
  have hfit := h.acct.fits hroom hmax
  have hframe := placePacket_frame cmd opts2 p segs s'
  have hplaced : (placePacket cmd opts2 p segs s').hw = f.side.hw.place b.n := by
    rw [hframe, hhw, hlen]
  refine ⟨?_, h.first_lt, ?_, ?_, ?_, ?_, ?_, ?_⟩
  · show RingAcct m (placePacket cmd opts2 p segs s').hw (n + b.n) 0
    rw [hplaced]
    exact h.acct.place hfit
  · exact h.consecutive.snoc h.first_lt (hindex.trans h.next_eq)
  · intro a ha
    rcases List.mem_append.mp ha with ha | ha
    · exact h.size a ha
    · rw [List.mem_singleton.mp ha]
      exact ⟨hpos, hmax⟩
  · show (placePacket cmd opts2 p segs s').hw.txDirtyDescIndex = _
    rw [hplaced]
    exact h.dirty
  · rw [extent_append, h.extent_eq, extent_cons, extent_nil]
    omega
  · intro a ha
    cases hf : f.flights with
    | nil =>
        rw [hf, List.nil_append, List.head?_cons, Option.mem_some_iff] at ha
        have hext := h.extent_eq
        rw [hf, extent_nil] at hext
        rw [← ha]
        omega
    | cons c rest =>
        rw [hf, List.cons_append, List.head?_cons] at ha
        refine h.begun a ?_
        rw [hf]
        exact ha
  · have hring : (placePacket cmd opts2 p segs s').onRing (n + b.n) =
        f.side.onRing n ++ (List.replicate (b.n - 1) none ++ [some p]) := by
      rw [TxSide.onRing, TxSide.onRing, hframe, ← hlen, hhw, h.acct.next_eq, ← hmbuf]
      exact fillDescs_window true hsegs (by omega)
    have hmarks : lead ≤ (marks TxFlight.n f.flights).length := by
      rw [marks_length fun a ha => (h.size a ha).1, h.extent_eq]
      omega
    show ((placePacket cmd opts2 p segs s').onRing (n + b.n)).map Option.isSome = _
    rw [hring, List.map_append, h.mbufs, marks_append, List.drop_append_of_le_length hmarks]
    simp [marks, markBlock]

theorem FlightInv.output (h : FlightInv cfg.mcfg f first lead n 0) (o : TxOffer) :
    ∃ n', FlightInv cfg.mcfg (flightStep cfg f (.output o)) first lead n' 0 := by
  rw [flightStep]
  rcases txStep_output_cases cfg o f.side with
    ⟨hnone, hhw, hmbuf⟩ | ⟨b, s', segs, cmd, opts2, hsome, hroom, hindex, hlen, hsegs, hmax, hhw, hmbuf, heq⟩
  · rw [hnone, Option.toList_none, List.append_nil]
    exact ⟨n, h.congr hhw hmbuf⟩
  · rw [hsome, heq]
    exact ⟨n + b.n, h.place hroom hindex hlen hsegs hmax hhw hmbuf cmd opts2 o.pkt.id⟩

/-! ### Retiring descriptors -/

/-- The oldest packet, while descriptors are in flight. -/
theorem FlightInv.oldest (h : FlightInv m f first lead (n + 1) j) :
    ∃ a rest, f.flights = a :: rest ∧ lead < a.n := by
  cases hf : f.flights with
  | nil =>
      have hext := h.extent_eq
      rw [hf, extent_nil] at hext
      omega
  | cons a rest =>
      refine ⟨a, rest, rfl, h.begun a ?_⟩
      rw [hf]
      rfl

/-- **One descriptor is retired**: the oldest packet stays in flight until it is its last. -/
theorem FlightInv.retire (h : FlightInv m f first lead (n + 1) (j + 1)) :
    ∃ first' lead', FlightInv m (retireFlight f) first' lead' n j := by
  obtain ⟨a, rest, hf, hlead⟩ := h.oldest
  have hn : n < kNumTxDesc := by
    have := h.acct.room
    omega
  have hacct : RingAcct m (retireDesc f.side).hw n j := by
    rw [retireDesc_hw]
    exact h.acct.retire
  have hdirty : (retireDesc f.side).hw.txDirtyDescIndex = slot kNumTxDesc first (lead + 1) := by
    rw [retireDesc_dirty, h.dirty, slot_slot]
  have hring := h.mbufs
  have hext := h.extent_eq
  have hcons := h.consecutive
  have hsize := h.size
  rw [retireDesc_onRing h.acct.dirty_lt hn, List.map_cons, hf] at hring
  rw [hf] at hext hcons hsize
  rw [extent_cons] at hext
  by_cases hlast : lead + 1 = a.n
  · -- the last descriptor of the packet carries its mbuf, and the next packet is the oldest
    rw [marks_drop_of_last hlast, List.cons.injEq] at hring
    have hflights : (retireFlight f).flights = rest := by
      rw [retireFlight, if_pos hring.1, hf]
      rfl
    refine ⟨slot kNumTxDesc first a.n, 0, hacct, slot_lt (by decide) _ _, ?_, ?_, ?_, ?_, ?_, ?_⟩
    · rw [hflights]
      exact hcons.2
    · rw [hflights]
      exact fun c hc => hsize c (List.mem_cons_of_mem _ hc)
    · rw [slot_slot, Nat.add_zero, ← hlast]
      exact hdirty
    · rw [hflights]
      omega
    · rw [hflights]
      intro c hc
      exact (hsize c (List.mem_cons_of_mem _ (List.mem_of_mem_head? hc))).1
    · rw [hflights]
      exact hring.2
  · rw [marks_drop_of_lt (show lead + 1 < a.n by omega), List.cons.injEq] at hring
    have hflights : (retireFlight f).flights = a :: rest := by
      rw [retireFlight, if_neg (by rw [hring.1]; decide), hf]
    refine ⟨first, lead + 1, hacct, h.first_lt, ?_, ?_, hdirty, ?_, ?_, ?_⟩
    · rw [hflights]
      exact hcons
    · rw [hflights]
      exact hsize
    · rw [hflights, extent_cons]
      omega
    · rw [hflights]
      rintro c ⟨⟩
      omega
    · rw [hflights]
      exact hring.2

/-- All the descriptors the chip has closed are retired. -/
theorem FlightInv.retireAll (h : FlightInv m f first lead n j) :
    ∃ first' lead' n', FlightInv m (retireFlight^[j] f) first' lead' n' 0 := by
  induction j generalizing f first lead n with
  | zero => exact ⟨first, lead, n, h⟩
  | succ j ih =>
      obtain _ | n := n
      · have := h.acct.lag_eq
        omega
      · obtain ⟨first', lead', h'⟩ := h.retire
        exact ih h'

theorem FlightInv.interrupt (h : FlightInv cfg.mcfg f first lead n 0) {reg : ℕ}
    (hlegal : LegalClose cfg.mcfg f.side.hw reg) :
    ∃ first' lead' n', FlightInv cfg.mcfg (flightStep cfg f (.interrupt reg)) first' lead' n' 0 := by
  have hread : FlightInv cfg.mcfg ⟨TxRing.readClose cfg reg f.side, f.flights⟩ first lead n
      (TxRing.numDone cfg reg f.side) := by
    refine ⟨?_, h.first_lt, h.consecutive, h.size, h.dirty, h.extent_eq, h.begun, h.mbufs⟩
    rw [TxRing.numDone, sub32_and_maxTxDescPtrMask]
    exact h.acct.retiring hlegal
  exact hread.retireAll

/-- **Every step keeps the packets in flight in order.** -/
theorem FlightInv.step (h : FlightInv cfg.mcfg f first lead n 0) (op : TxOp)
    (hlegal : RangeLegal cfg f op) :
    ∃ first' lead' n', FlightInv cfg.mcfg (flightStep cfg f op) first' lead' n' 0 := by
  cases op with
  | output o =>
      obtain ⟨n', h'⟩ := h.output o
      exact ⟨first, lead, n', h'⟩
  | doorbell =>
      refine ⟨first, lead, n, ?_⟩
      rw [flightStep, txStep]
      split
      · exact h.congr rfl rfl
      · exact h
  | interrupt reg => exact h.interrupt hlegal
  | clear => exact ⟨0, 0, 0, FlightInv.empty rfl⟩
  | link status => exact hlegal.elim

/-! ### Ranges -/

/-- Disjoint ranges, as an ordering of the two intervals. -/
theorem uses_disjoint_iff (ha : 1 ≤ a.n) (hb : 1 ≤ b.n) :
    (∀ i, a.Uses i → ¬ b.Uses i) ↔
      (a.filled = true → b.filled = true → a.index + a.n ≤ b.index ∨ b.index + b.n ≤ a.index) := by
  constructor
  · intro h hfa hfb
    by_contra hover
    refine h (max a.index b.index) ⟨hfa, ?_, ?_⟩ ⟨hfb, ?_, ?_⟩
    all_goals omega
  · rintro h i ⟨hfa, hai, hia⟩ ⟨hfb, hbi, hib⟩
    have := h hfa hfb
    omega

theorem FlightInv.index_lt (h : FlightInv m f first lead n j) (ha : a ∈ f.flights) :
    a.index < kNumTxDesc := by
  obtain ⟨pre, post, hf⟩ := List.append_of_mem ha
  have hcons := h.consecutive
  rw [hf] at hcons
  rw [hcons.index_eq h.first_lt]
  exact slot_lt (by decide) _ _

/-- The array is long enough for a packet that begins with the last descriptor. -/
theorem FlightInv.inside (h : FlightInv m f first lead n j) (ha : a ∈ f.flights) {i : ℕ}
    (hi : a.Uses i) : i < kNumTxRanges := by
  have hindex := h.index_lt ha
  have hsize := (h.size a ha).2
  have huse := hi.2.2
  rw [kNumTxRanges]
  omega

/-- A packet that is not the oldest is out of reach of the next one. -/
theorem FlightInv.apart_of_tail (h : FlightInv m f first lead n j) {rest : List TxFlight} {c : TxFlight}
    (hf : f.flights = c :: rest) (ha : a ∈ rest) (hindex : b.index = f.side.hw.txNextDescIndex)
    (hfit : n + b.n + 4 ≤ kNumTxDesc) : a.index + a.n ≤ b.index ∨ b.index + b.n ≤ a.index := by
  obtain ⟨pre, post, hrest⟩ := List.append_of_mem ha
  have hsplit : f.flights = (c :: pre) ++ a :: post := by rw [hf, hrest, List.cons_append]
  have hlead := h.begun c (by rw [hf]; rfl)
  have hcons := h.consecutive
  have hext := h.extent_eq
  rw [hsplit] at hcons hext
  rw [extent_append, extent_cons, extent_cons] at hext
  have ha_index := hcons.index_eq h.first_lt
  have hb_index : b.index = slot kNumTxDesc a.index (a.n + extent TxFlight.n post) := by
    rw [hindex, h.next_eq, ha_index, slot_slot, hsplit, extent_append, extent_cons (a := a)]
  rw [extent_cons] at ha_index
  rw [hb_index]
  exact apart_of_fits (h.index_lt (by rw [hsplit]; simp)) (by omega) (by omega)

/-- The oldest packet is reached exactly by one placed before it that runs into it. -/
theorem FlightInv.apart_oldest_iff (h : FlightInv m f first lead n j) {rest : List TxFlight}
    (hf : f.flights = a :: rest) (hindex : b.index = f.side.hw.txNextDescIndex)
    (hroom : (kMaxSegs : ℤ) + 3 < f.side.hw.txNumFreeDesc) :
    (a.index + a.n ≤ b.index ∨ b.index + b.n ≤ a.index) ↔
      ¬ (b.index < a.index ∧ a.index < b.index + b.n) := by
  have hlead := h.begun a (by rw [hf]; rfl)
  have hsize := (h.size a (by rw [hf]; exact List.mem_cons_self ..)).2
  have hfree := h.acct.free_eq
  have hext := h.extent_eq
  have hcons := h.consecutive
  rw [hf] at hcons
  obtain ⟨ha_index, -⟩ := hcons
  have hb_index : b.index = slot kNumTxDesc a.index (extent TxFlight.n f.flights) := by
    rw [hindex, h.next_eq, ha_index]
  rw [hb_index]
  have hle : a.n ≤ extent TxFlight.n f.flights := by
    rw [hf, extent_cons]
    omega
  exact apart_iff (by rw [ha_index]; exact h.first_lt) hle (by omega)

theorem RangesApart.sublist {l l' : List TxFlight} (h : RangesApart l) (hl : List.Sublist l' l) :
    RangesApart l' :=
  ⟨h.disjoint.sublist hl, fun a ha => h.inside a (hl.subset ha)⟩

/-- A range in use for the oldest packet and for the newest one. -/
theorem not_apart_of_shared {l : List TxFlight} (ha : l.head? = some a) (hb : l.getLast? = some b)
    (hne : a ≠ b) (i : ℕ) (hai : a.Uses i) (hbi : b.Uses i) : ¬ RangesApart l := by
  intro h
  cases l with
  | nil => cases ha
  | cons c rest =>
      obtain rfl : c = a := Option.some.inj ha
      have hmem : b ∈ rest := by
        rcases List.mem_cons.mp (List.mem_of_getLast? hb) with rfl | hmem
        · exact absurd rfl hne
        · exact hmem
      exact (List.pairwise_cons.mp h.disjoint).1 b hmem i hai hbi

/-- **A placed packet** keeps the ranges apart unless it reuses some. -/
theorem FlightInv.apart_place_iff (h : FlightInv m f first lead n 0) (hapart : RangesApart f.flights)
    (hroom : (kMaxSegs : ℤ) + 3 < f.side.hw.txNumFreeDesc) (hindex : b.index = f.side.hw.txNextDescIndex)
    (hpos : 1 ≤ b.n) (hmax : b.n ≤ kMaxSegs) :
    RangesApart (f.flights ++ [b]) ↔ ¬ ∃ a ∈ f.flights.head?,
      a.filled = true ∧ b.filled = true ∧ b.index < a.index ∧ a.index < b.index + b.n := by
  constructor
  · rintro hnext ⟨a, ha, hfa, hfb, hreach⟩
    cases hf : f.flights with
    | nil =>
        rw [hf] at ha
        cases ha
    | cons c rest =>
        rw [hf] at ha
        obtain rfl : c = a := Option.some.inj ha
        have hdisj := (List.pairwise_append.mp hnext.disjoint).2.2 c (by rw [hf]; simp) b (by simp)
        rw [uses_disjoint_iff (h.size c (by rw [hf]; simp)).1 hpos] at hdisj
        exact (h.apart_oldest_iff hf hindex hroom).mp (hdisj hfa hfb) hreach
  · intro hno
    refine ⟨List.pairwise_append.mpr ⟨hapart.disjoint, List.pairwise_singleton _ _, ?_⟩, ?_⟩
    · intro a ha b' hb'
      obtain rfl := List.mem_singleton.mp hb'
      rw [uses_disjoint_iff (h.size a ha).1 hpos]
      intro hfa hfb
      cases hf : f.flights with
      | nil =>
          rw [hf] at ha
          cases ha
      | cons c rest =>
          rw [hf] at ha
          rcases List.mem_cons.mp ha with rfl | ha
          · rw [h.apart_oldest_iff hf hindex hroom]
            exact fun hreach => hno ⟨a, by rw [hf]; rfl, hfa, hfb, hreach⟩
          · exact h.apart_of_tail hf ha hindex (h.acct.fits hroom hmax)
    · intro a ha i hi
      rcases List.mem_append.mp ha with ha | ha
      · exact hapart.inside a ha i hi
      · obtain rfl := List.mem_singleton.mp ha
        have hnext := h.acct.next_lt
        have huse := hi.2.2
        rw [kNumTxRanges]
        omega

/-- Retiring descriptors takes packets out of flight, oldest first. -/
theorem retireFlight_suffix (k : ℕ) (f : FlightSide) :
    (retireFlight^[k] f).flights <:+ f.flights := by
  induction k generalizing f with
  | zero => exact List.suffix_refl _
  | succ k ih =>
      refine (ih (retireFlight f)).trans ?_
      rw [retireFlight]
      split
      · exact List.tail_suffix _
      · exact List.suffix_refl _

/-- **Each step** keeps the ranges apart unless it reuses some. -/
theorem FlightInv.apart_iff_step (h : FlightInv cfg.mcfg f first lead n 0)
    (hapart : RangesApart f.flights) (op : TxOp) :
    RangesApart (flightStep cfg f op).flights ↔ ¬ ReusesRanges cfg f op := by
  cases op with
  | output o =>
      rw [flightStep, reusesRanges_output]
      rcases txStep_output_cases cfg o f.side with
        ⟨hnone, -, -⟩ | ⟨b, s', segs, cmd, opts2, hsome, hroom, hindex, hlen, hsegs, hmax, -, -, -⟩
      · rw [hnone]
        simpa using hapart
      · have hpos : 1 ≤ b.n := by
          rw [← hlen]
          exact List.length_pos_iff.mpr hsegs
        rw [hsome]
        simpa using h.apart_place_iff hapart hroom hindex hpos hmax
  | interrupt reg =>
      have hsub := retireFlight_suffix (TxRing.numDone cfg reg f.side)
        ⟨TxRing.readClose cfg reg f.side, f.flights⟩
      exact iff_of_true (hapart.sublist hsub.sublist) id
  | doorbell => exact iff_of_true hapart id
  | clear => exact iff_of_true (hapart.sublist (List.nil_sublist _)) id
  | link status => exact iff_of_true hapart id

/-- With no packet retired in part nothing is reused: what is free lies before the oldest packet. -/
theorem FlightInv.not_reuses_of_whole (h : FlightInv cfg.mcfg f first 0 n 0) (op : TxOp) :
    ¬ ReusesRanges cfg f op := by
  cases op with
  | output o =>
      rw [reusesRanges_output]
      rintro ⟨a, ha, b, hb, -, -, hbefore, hreach⟩
      rcases txStep_output_cases cfg o f.side with
        ⟨hnone, -, -⟩ | ⟨c, s', segs, cmd, opts2, hsome, hroom, hindex, -, -, hmax, -, -, -⟩
      · rw [hnone] at hb
        cases hb
      · obtain rfl : c = b := Option.some.inj (hsome.symm.trans hb)
        cases hf : f.flights with
        | nil =>
            rw [hf] at ha
            cases ha
        | cons d rest =>
            rw [hf] at ha
            obtain rfl : d = a := Option.some.inj ha
            have hcons := h.consecutive
            have hext := h.extent_eq
            have hle : d.n ≤ extent TxFlight.n f.flights := by
              rw [hf, extent_cons]
              omega
            rw [hf] at hcons
            have hfits := apart_of_fits h.first_lt hle (n := c.n)
              (by have := h.acct.fits hroom hmax; omega)
            rw [← h.next_eq, ← hindex, ← hcons.1] at hfits
            omega
  | interrupt reg => exact id
  | doorbell => exact id
  | clear => exact id
  | link status => exact id

/-! ### Runs -/

/-- **The ranges of packets in flight stay apart exactly when none is reused.**  In every run of
`outputStart` (round by round), `txInterrupt` with legal close pointers and `clearRxTxRings`, from an
empty ring: after every step the ranges that `txMapPacket` filled for the packets in flight are pairwise
disjoint and inside the array, if and only if no packet is placed before the oldest one in flight with
so many segments that its ranges reach that packet's. -/
theorem txRanges_apart_iff (cfg : TxConfig) (s : TxSide) (hempty : s.hw = TxIndex.restart)
    (ops : List TxOp) (hlegal : Along (flightStep cfg) (RangeLegal cfg) ⟨s, []⟩ ops) :
    Along (flightStep cfg) (fun f op => RangesApart (flightStep cfg f op).flights) ⟨s, []⟩ ops ↔
      Along (flightStep cfg) (fun f op => ¬ ReusesRanges cfg f op) ⟨s, []⟩ ops := by
  have hstart : (∃ first lead n, FlightInv cfg.mcfg ⟨s, []⟩ first lead n 0) ∧ RangesApart [] :=
    ⟨⟨0, 0, 0, FlightInv.empty hempty⟩, .nil, nofun⟩
  have hiff : ∀ (f : FlightSide) (op : TxOp),
      (∃ first lead n, FlightInv cfg.mcfg f first lead n 0) ∧ RangesApart f.flights →
      RangeLegal cfg f op →
      (RangesApart (flightStep cfg f op).flights ↔ ¬ ReusesRanges cfg f op) := by
    rintro f op ⟨⟨first, lead, n, h⟩, hapart⟩ -
    exact h.apart_iff_step hapart op
  refine along_congr_of hiff ?_ hstart hlegal
  rintro f op ⟨⟨first, lead, n, h⟩, -⟩ hop hnext
  exact ⟨h.step op hop, hnext⟩

/-- A packet of `k` short mbufs. -/
def segmentsPacket (k : ℕ) : TxOffer :=
  ⟨⟨k, List.replicate k (0x4000, 60), 60 * k, false, false, false, 0, 0, false, false, false, false,
    false, none⟩, .segs fun _ => some 0x10000, fun _ => ⟨0, 0⟩⟩

/-- The ring is filled as far as it goes, the first packet is retired, and one of 32 segments follows. -/
def wrapRun : List TxOp :=
  List.replicate 30 (.output (segmentsPacket 32)) ++
    [.output (segmentsPacket 28), .output (segmentsPacket 31), .interrupt 32, .output (segmentsPacket 32)]

/-- The last packet's descriptors wrap, its ranges do not, and all ranges are apart. -/
theorem txRanges_apart_wrapRun :
    Along (flightStep smallPages) (fun f op => RangesApart (flightStep smallPages f op).flights)
      ⟨setLinkUp TxSide.init, []⟩ wrapRun ∧
    (exec (flightStep smallPages) ⟨setLinkUp TxSide.init, []⟩ wrapRun).flights.getLast? =
      some ⟨1019, 32, true⟩ := by
  have hrun : Along (flightStep smallPages) (RangeLegal smallPages) ⟨setLinkUp TxSide.init, []⟩ wrapRun ∧
      Along (flightStep smallPages) (fun f op => ¬ ReusesRanges smallPages f op)
        ⟨setLinkUp TxSide.init, []⟩ wrapRun ∧
      (exec (flightStep smallPages) ⟨setLinkUp TxSide.init, []⟩ wrapRun).flights.getLast? =
        some ⟨1019, 32, true⟩ := by
    decide +kernel
  exact ⟨(txRanges_apart_iff smallPages _ rfl wrapRun hrun.1).mpr hrun.2.1, hrun.2.2⟩

/-- A packet of 5 segments comes and goes, the ring is filled as far as it goes, and all but the last
descriptor of the oldest packet are retired; then a packet of 32 segments follows. -/
def reuseRun : List TxOp :=
  [.output (segmentsPacket 5), .interrupt 5] ++ List.replicate 30 (.output (segmentsPacket 32)) ++
    [.output (segmentsPacket 28), .output (segmentsPacket 31), .interrupt 36, .output (segmentsPacket 32)]

/-- **Two packets in flight share ranges**: the oldest has those from 5 to 36, the last one those from 0
to 31. -/
theorem txRanges_shared :
    Along (flightStep smallPages) (RangeLegal smallPages) ⟨setLinkUp TxSide.init, []⟩ reuseRun ∧
    (exec (flightStep smallPages) ⟨setLinkUp TxSide.init, []⟩ reuseRun).flights.head? =
      some ⟨5, 32, true⟩ ∧
    (exec (flightStep smallPages) ⟨setLinkUp TxSide.init, []⟩ reuseRun).flights.getLast? =
      some ⟨0, 32, true⟩ ∧
    ¬ RangesApart (exec (flightStep smallPages) ⟨setLinkUp TxSide.init, []⟩ reuseRun).flights := by
  have hrun : Along (flightStep smallPages) (RangeLegal smallPages) ⟨setLinkUp TxSide.init, []⟩ reuseRun ∧
      (exec (flightStep smallPages) ⟨setLinkUp TxSide.init, []⟩ reuseRun).flights.head? =
        some ⟨5, 32, true⟩ ∧
      (exec (flightStep smallPages) ⟨setLinkUp TxSide.init, []⟩ reuseRun).flights.getLast? =
        some ⟨0, 32, true⟩ := by
    decide +kernel
  obtain ⟨hlegal, hhead, hlast⟩ := hrun
  refine ⟨hlegal, hhead, hlast, ?_⟩
  exact not_apart_of_shared hhead hlast (by decide) 5 ⟨rfl, by decide, by decide⟩
    ⟨rfl, by decide, by decide⟩

end Rtl812x.Kext
