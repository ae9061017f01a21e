import Mathlib.Data.List.Induction
import Rtl812x.Kext.Rx
import Rtl812x.Kext.RxReassembly
import Rtl812x.Lib.Segments

/-!
# Received buffers, and the frames they make up

A completed descriptor with the bytes the chip put in its buffer is an `RxBuf`; with it goes what
`replaceOrCopyPacket` will get when the driver comes to it.  The buffers completed so far, in order,
are a stream, cut into frames behind each `LastFrag`.

* `ChipWrites` — what the chip may complete next, given the stream so far;
* `Resyncs` — what the driver relies on: a frame whose last buffer is good is good throughout;
* `WholeFrame` — from the buffer marked `FirstFrag` to the one marked `LastFrag`;
* `Assembled cfg l asm` — the assembly is what the buffers `l` call for: it has passed on the good
  frames of `l`, and holds the buffers of the open frame as long as they are all good;
* `Assembled.handle` — **the loop body keeps it**, one buffer further.
-/

namespace Rtl812x.Kext

open RxAssembly Segments

/-- A completed receive buffer. -/
structure RxBuf where
  opts1 : UInt32
  opts2 : UInt32
  data : List UInt8
  alloc : Alloc
deriving DecidableEq, Repr

namespace RxBuf

def first (b : RxBuf) : Bool := b.opts1 &&& firstFrag != 0
def last (b : RxBuf) : Bool := b.opts1 &&& lastFrag != 0
def errored (b : RxBuf) : Bool := b.opts1 &&& rxRES != 0

/-- The descriptor without its address. -/
def desc (b : RxBuf) : RxDesc := ⟨b.opts1, b.opts2, 0⟩

/-- No receive error, and an mbuf for it. -/
def good (maxCopySize : ℕ) (b : RxBuf) : Bool := rxTakes 0x3fff maxCopySize b.desc b.alloc

end RxBuf

/-- The finished frames of a stream, and the open one. -/
def framesOf (l : List RxBuf) : List (List RxBuf) × List RxBuf := cut RxBuf.last l

/-- The first buffer and no other has `FirstFrag`, the last and no other `LastFrag`. -/
def WholeFrame (f : List RxBuf) : Prop :=
  ∀ k b, f[k]? = some b → (b.first = true ↔ k = 0) ∧ (b.last = true ↔ k + 1 = f.length)

/-- The chip may complete `b` after `before`.  An error-free buffer says how many bytes it holds,
is full unless it is the last, and a frame is no shorter than its FCS. -/
structure ChipWrites (cfg : RxConfig) (before : List RxBuf) (b : RxBuf) : Prop where
  done : b.desc.own = false
  first : b.first = true ↔ (framesOf before).2 = []
  len : b.errored = false → rxLen 0x3fff b.desc = b.data.length
  full : b.errored = false → b.last = false → b.data.length = cfg.pageSize
  fcs : b.errored = false → b.last = true →
    4 ≤ (((framesOf before).2 ++ [b]).map RxBuf.data).flatten.length

/-- If the last buffer of a frame is good, so are the ones before it. -/
def Resyncs (cfg : RxConfig) (before : List RxBuf) (b : RxBuf) : Prop :=
  b.last = true → b.good cfg.maxCopySize = true →
    ∀ x ∈ (framesOf before).2, x.good cfg.maxCopySize = true

/-! ### Frames -/

/-- The open frame has `FirstFrag` on its first buffer only, and no `LastFrag`. -/
def OpenFrame (f : List RxBuf) : Prop :=
  ∀ k b, f[k]? = some b → (b.first = true ↔ k = 0) ∧ b.last = false

theorem getElem?_snoc_cases {α : Type*} {f : List α} {a b : α} {k : ℕ} (h : (f ++ [a])[k]? = some b) :
    f[k]? = some b ∧ k < f.length ∨ b = a ∧ k = f.length := by
  rcases Nat.lt_trichotomy k f.length with hk | hk | hk
  · rw [List.getElem?_append_left hk] at h
    exact Or.inl ⟨h, hk⟩
  · rw [hk, List.getElem?_append_right (le_refl _), Nat.sub_self] at h
    exact Or.inr ⟨(Option.some.inj h).symm, hk⟩
  · rw [List.getElem?_eq_none (by simp; omega)] at h
    exact absurd h (by simp)

theorem OpenFrame.snoc {f : List RxBuf} {b : RxBuf} (hf : OpenFrame f)
    (hfirst : b.first = true ↔ f = []) (hlast : b.last = false) : OpenFrame (f ++ [b]) := by
  intro k x hx
  rcases getElem?_snoc_cases hx with ⟨hold, _⟩ | ⟨rfl, rfl⟩
  · exact hf k x hold
  · rw [hfirst, List.length_eq_zero_iff]
    exact ⟨Iff.rfl, hlast⟩

theorem OpenFrame.finish {f : List RxBuf} {b : RxBuf} (hf : OpenFrame f)
    (hfirst : b.first = true ↔ f = []) (hlast : b.last = true) : WholeFrame (f ++ [b]) := by
  intro k x hx
  rw [List.length_append, List.length_singleton]
  rcases getElem?_snoc_cases hx with ⟨hold, hk⟩ | ⟨rfl, rfl⟩
  · have hx := hf k x hold
    refine ⟨hx.1, ?_⟩
    rw [hx.2]
    constructor
    · intro h
      exact absurd h (by decide)
    · intro h
      omega
  · rw [hfirst, List.length_eq_zero_iff]
    exact ⟨Iff.rfl, fun _ => rfl, fun _ => hlast⟩

/-- **What the chip completes is whole frames**, and an open one. -/
theorem wholeFrame_of_chipWrites {cfg : RxConfig} {l : List RxBuf}
    (h : ∀ n b, l[n]? = some b → ChipWrites cfg (l.take n) b) :
    (∀ f ∈ (framesOf l).1, WholeFrame f) ∧ OpenFrame (framesOf l).2 := by
  induction l using List.reverseRecOn with
  | nil =>
      refine ⟨fun f hf => absurd hf List.not_mem_nil, fun k b hb => ?_⟩
      exact absurd hb (by simp [framesOf, cut])
  | append_singleton l b ih =>
      have hb : ChipWrites cfg l b := by
        have := h l.length b (by simp)
        rwa [List.take_left] at this
      obtain ⟨hwhole, hopen⟩ := ih fun n x hx => by
        have hn : n < l.length := (List.getElem?_eq_some_iff.mp hx).1
        have := h n x (by rw [List.getElem?_append_left hn, hx])
        rwa [List.take_append_of_le_length (Nat.le_of_lt hn)] at this
      cases hlast : b.last with
      | true =>
          rw [framesOf, cut_snoc_last l hlast]
          refine ⟨fun f hf => ?_, fun k x hx => absurd hx (by simp)⟩
          rcases List.mem_append.mp hf with hf | hf
          · exact hwhole f hf
          · rw [List.mem_singleton.mp hf]
            exact hopen.finish hb.first hlast
      | false =>
          rw [framesOf, cut_snoc_more l hlast]
          exact ⟨hwhole, hopen.snoc hb.first hlast⟩

/-! ### What the buffers call for -/

/-- Every buffer of the frame is good. -/
def allGood (maxCopySize : ℕ) (f : List RxBuf) : Bool := f.all (RxBuf.good maxCopySize)

/-- A frame as it should be passed on: its bytes without the FCS, and how many they are. -/
def frameView (f : List RxBuf) : List UInt8 × ℤ :=
  (framePayload (f.map RxBuf.data), (framePayload (f.map RxBuf.data)).length)

/-- What was passed on, seen the same way. -/
def RxAssembly.delivered (s : RxAssembly) : List (List UInt8 × ℤ) :=
  s.enqueued.map fun pkt => (pkt.bytes, pkt.pktHdrLen)

/-- The assembly is what the buffers `l` call for. -/
structure Assembled (cfg : RxConfig) (l : List RxBuf) (s : RxAssembly) : Prop where
  owned : Owned s
  long : ∀ b ∈ (framesOf l).2, b.good cfg.maxCopySize = true → 4 ≤ b.data.length
  chain : (∀ b ∈ (framesOf l).2, b.good cfg.maxCopySize = true) →
    HoldsFrame s ((framesOf l).2.map RxBuf.data)
  delivered : s.delivered = ((framesOf l).1.filter (allGood cfg.maxCopySize)).map frameView

section Handle

variable {cfg : RxConfig} {l : List RxBuf} {s : RxAssembly} {b : RxBuf} {d : RxDesc} {i : ℕ}

theorem rxTakes_desc (h1 : d.opts1 = b.opts1) :
    rxTakes 0x3fff cfg.maxCopySize d b.alloc = b.good cfg.maxCopySize := by
  rw [RxBuf.good, rxTakes, rxTakes, rxLen, rxLen, h1]
  rfl

theorem errored_of_good (h : b.good cfg.maxCopySize = true) : b.errored = false := by
  simp only [RxBuf.good, rxTakes, Bool.and_eq_true, beq_iff_eq] at h
  have hres : b.opts1 &&& rxRES = 0 := h.1.1
  simp [RxBuf.errored, hres]

theorem allGood_snoc (f : List RxBuf) (b : RxBuf) : allGood cfg.maxCopySize (f ++ [b]) = true ↔
    (∀ x ∈ f, x.good cfg.maxCopySize = true) ∧ b.good cfg.maxCopySize = true := by
  simp [allGood]

/-- A buffer that is not good: the frame it belongs to is lost. -/
theorem Assembled.handle_dropped (h : Assembled cfg l s) (hi : i < kNumRxDesc)
    (h1 : d.opts1 = b.opts1) (hbad : b.good cfg.maxCopySize = false) :
    Assembled cfg (l ++ [b]) (rxHandle 0x3fff cfg.maxCopySize i d b.alloc s).asm := by
  have hdrop := (rxHandle_dropped (by rw [rxTakes_desc h1, hbad]) i s).2
  have howned := rxHandle_owned h.owned hi 0x3fff cfg.maxCopySize d b.alloc
  have hdel : (rxHandle 0x3fff cfg.maxCopySize i d b.alloc s).asm.delivered = s.delivered := by
    rw [RxAssembly.delivered, hdrop.enqueued, RxAssembly.delivered]
  have hframe : allGood cfg.maxCopySize ((framesOf l).2 ++ [b]) = false := by
    rw [Bool.eq_false_iff, ne_eq, allGood_snoc, hbad]
    simp
  cases hlast : b.last with
  | true =>
      have hcut := cut_snoc_last l hlast
      refine ⟨howned, ?_, fun _ => ?_, ?_⟩
      · rw [framesOf, hcut]
        exact fun x hx => absurd hx List.not_mem_nil
      · rw [framesOf, hcut]
        exact HoldsFrame.nil hdrop.rxPacket hdrop.rxPacketSize
      · rw [hdel, h.delivered, framesOf, framesOf, hcut, List.filter_append,
          List.filter_cons_of_neg (by rw [← framesOf, hframe]; decide), List.filter_nil, List.append_nil]
  | false =>
      have hcut := cut_snoc_more l hlast
      refine ⟨howned, ?_, fun hall => ?_, ?_⟩
      · rw [framesOf, hcut]
        intro x hx hgood
        rcases List.mem_append.mp hx with hx | hx
        · exact h.long x hx hgood
        · rw [List.mem_singleton.mp hx, hbad] at hgood
          exact absurd hgood (by decide)
      · rw [framesOf, hcut] at hall
        have := hall b (List.mem_append_right _ (List.mem_singleton_self b))
        rw [hbad] at this
        exact absurd this (by decide)
      · rw [hdel, h.delivered, framesOf, framesOf, hcut]

/-- What a good buffer offers: the open frame is still on the chain, and the packet taken holds the
bytes of the buffer. -/
theorem Assembled.offered (h : Assembled cfg l s) (hi : i < kNumRxDesc) (h1 : d.opts1 = b.opts1)
    (hdata : b.data <+: (s.mbuf (s.bufMbuf i)).data) (hwrites : ChipWrites cfg l b)
    (hgood : b.good cfg.maxCopySize = true) :
    ∃ newPkt s', Offered s s' i b.data.length newPkt ∧
      (rxHandle 0x3fff cfg.maxCopySize i d b.alloc s).asm =
        handlePkt newPkt b.data.length b.opts1 d.opts2 s' ∧
      (s'.mbuf newPkt).data.take b.data.length = b.data ∧
      ((∀ x ∈ (framesOf l).2, x.good cfg.maxCopySize = true) →
        HoldsFrame s' ((framesOf l).2.map RxBuf.data)) := by
  have hlen : rxLen 0x3fff d = b.data.length := by
    rw [← hwrites.len (errored_of_good hgood), rxLen, h1]
    rfl
  obtain ⟨newPkt, s', hoff, hasm⟩ := rxHandle_taken (by rw [rxTakes_desc h1, hgood]) i s
  rw [hlen] at hoff hasm
  refine ⟨newPkt, s', hoff, by rw [hasm, h1], ?_, fun hall => ?_⟩
  · rw [hoff.data (h.owned.buf_lt i hi)]
    exact (List.prefix_iff_eq_take.mp hdata).symm
  · exact (h.chain hall).congr hoff.rxPacket hoff.rxPacketSize fun m hm =>
      hoff.old m (h.owned.chain_lt m hm)

/-- A good buffer with more to come. -/
theorem Assembled.handle_more (h : Assembled cfg l s) (hpage : 4 ≤ cfg.pageSize)
    (hi : i < kNumRxDesc) (h1 : d.opts1 = b.opts1)
    (hdata : b.data <+: (s.mbuf (s.bufMbuf i)).data) (hwrites : ChipWrites cfg l b)
    (hgood : b.good cfg.maxCopySize = true) (hlast : b.last = false) :
    Assembled cfg (l ++ [b]) (rxHandle 0x3fff cfg.maxCopySize i d b.alloc s).asm := by
  have howned := rxHandle_owned h.owned hi 0x3fff cfg.maxCopySize d b.alloc
  obtain ⟨newPkt, s', hoff, hasm, htake, hchain⟩ := h.offered hi h1 hdata hwrites hgood
  have hmore : b.opts1 &&& lastFrag = 0 := by simpa [RxBuf.last] using hlast
  have hlink := handlePkt_linked hmore newPkt b.data.length d.opts2 s'
  have hcut := cut_snoc_more l hlast
  refine ⟨howned, ?_, fun hall => ?_, ?_⟩
  · rw [framesOf, hcut]
    intro x hx hx'
    rcases List.mem_append.mp hx with hx | hx
    · exact h.long x hx hx'
    · rw [List.mem_singleton.mp hx, hwrites.full (errored_of_good hgood) hlast]
      exact hpage
  · rw [framesOf, hcut] at hall ⊢
    rw [hasm, List.map_append, List.map_singleton]
    exact hlink.holdsFrame (hchain fun x hx => hall x (List.mem_append_left _ hx))
      (hoff.newPkt_notMem h.owned hi) htake rfl
  · rw [framesOf, hcut, hasm, RxAssembly.delivered, hlink.enqueued, hoff.enqueued]
    exact h.delivered

/-- A good buffer that ends a good frame passes it on. -/
theorem Assembled.passes_on (h : Assembled cfg l s) (hi : i < kNumRxDesc) (h1 : d.opts1 = b.opts1)
    (hdata : b.data <+: (s.mbuf (s.bufMbuf i)).data) (hwrites : ChipWrites cfg l b)
    (hall : ∀ x ∈ (framesOf l).2, x.good cfg.maxCopySize = true)
    (hgood : b.good cfg.maxCopySize = true) (hlast : b.last = true) :
    ∃ pkt, (rxHandle 0x3fff cfg.maxCopySize i d b.alloc s).asm.enqueued = s.enqueued ++ [pkt] ∧
      pkt.Carries (framePayload (((framesOf l).2 ++ [b]).map RxBuf.data)) ∧
      HoldsFrame (rxHandle 0x3fff cfg.maxCopySize i d b.alloc s).asm [] := by
  obtain ⟨newPkt, s', hoff, hasm, htake, hchain⟩ := h.offered hi h1 hdata hwrites hgood
  have htotal : 4 ≤ ((framesOf l).2.map RxBuf.data).flatten.length + b.data.length := by
    have := hwrites.fcs (errored_of_good hgood) hlast
    rwa [List.map_append, List.map_singleton, List.flatten_append, List.flatten_singleton,
      List.length_append] at this
  have hlong : ∀ x ∈ (framesOf l).2.map RxBuf.data, 4 ≤ x.length := by
    intro x hx
    obtain ⟨y, hy, rfl⟩ := List.mem_map.mp hx
    exact h.long y hy (hall y hy)
  obtain ⟨pkt, hpass, hcarries⟩ := handlePkt_last d.opts2 (hchain hall)
    (hoff.owned h.owned hi).chain_nodup (hoff.newPkt_notMem h.owned hi)
    (show b.opts1 &&& lastFrag ≠ 0 by simpa [RxBuf.last] using hlast) htake htotal hlong
  rw [hasm, List.map_append, List.map_singleton]
  exact ⟨pkt, by rw [hpass.enqueued, hoff.enqueued], hcarries,
    HoldsFrame.nil hpass.rxPacket hpass.rxPacketSize⟩

/-- A good buffer that ends its frame: all of the frame is good, and it is passed on. -/
theorem Assembled.handle_last (h : Assembled cfg l s) (hi : i < kNumRxDesc) (h1 : d.opts1 = b.opts1)
    (hdata : b.data <+: (s.mbuf (s.bufMbuf i)).data) (hwrites : ChipWrites cfg l b)
    (hres : Resyncs cfg l b) (hgood : b.good cfg.maxCopySize = true) (hlast : b.last = true) :
    Assembled cfg (l ++ [b]) (rxHandle 0x3fff cfg.maxCopySize i d b.alloc s).asm := by
  have howned := rxHandle_owned h.owned hi 0x3fff cfg.maxCopySize d b.alloc
  have hall := hres hlast hgood
  obtain ⟨pkt, henq, hcarries, hempty⟩ := h.passes_on hi h1 hdata hwrites hall hgood hlast
  have hcut := cut_snoc_last l hlast
  refine ⟨howned, ?_, fun _ => ?_, ?_⟩
  · rw [framesOf, hcut]
    exact fun x hx => absurd hx List.not_mem_nil
  · rw [framesOf, hcut]
    exact hempty
  · have hframe : allGood cfg.maxCopySize ((cut RxBuf.last l).2 ++ [b]) = true :=
      (allGood_snoc _ b).mpr ⟨hall, hgood⟩
    have hpkt : (pkt.bytes, pkt.pktHdrLen) = frameView ((framesOf l).2 ++ [b]) := by
      rw [hcarries.bytes, hcarries.pktHdrLen, frameView]
    rw [framesOf, hcut, RxAssembly.delivered, henq, List.map_append, List.map_singleton, hpkt,
      List.filter_append, List.filter_cons_of_pos hframe, List.filter_nil, List.map_append,
      List.map_singleton]
    exact congrArg (· ++ [frameView ((framesOf l).2 ++ [b])]) h.delivered

/-- **One buffer further.** -/
theorem Assembled.handle (h : Assembled cfg l s) (hpage : 4 ≤ cfg.pageSize) (hi : i < kNumRxDesc)
    (h1 : d.opts1 = b.opts1) (hdata : b.data <+: (s.mbuf (s.bufMbuf i)).data)
    (hwrites : ChipWrites cfg l b) (hres : Resyncs cfg l b) :
    Assembled cfg (l ++ [b]) (rxHandle 0x3fff cfg.maxCopySize i d b.alloc s).asm := by
  cases hgood : b.good cfg.maxCopySize with
  | false => exact h.handle_dropped hi h1 hgood
  | true =>
      cases hlast : b.last with
      | false => exact h.handle_more hpage hi h1 hdata hwrites hgood hlast
      | true => exact h.handle_last hi h1 hdata hwrites hres hgood hlast

end Handle

end Rtl812x.Kext
