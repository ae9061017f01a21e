import Rtl812x.Kext.RxRefine
import Rtl812x.Kext.RxSound

/-!
# Every frame arrives

The chip splits each frame into full buffers of a page and a last one with the rest, which may hold no
more than a part of the FCS.  If no buffer has an error and each finds an mbuf, the calls of
`rxInterrupt`, wherever they stop, pass every frame on once and in order: its bytes without the FCS,
with that number both as the total of the mbuf lengths and in the packet header.

* `ChipSplits` — the buffers of one frame; `FramesComing` — the chip fills them in, frame after frame;
* `SplitFrames.chipWrites` — such a chip does what the ring needs;
* `Assembled.carries` — **one buffer further**, the packets passed on are the frames finished;
* `FrameInv.interrupt` — **a call handles `maxCount` frames, or all there are**;
* `rxInterrupt_complete` — in every run, what was passed on is the frames handled so far, nothing is
  left on the chain between frames, and enough calls pass on all of them.
-/

namespace Rtl812x.Kext

open Runs RxAssembly Segments

/-- The buffers the chip makes of a frame: all full but the last one, which holds at least a byte; each
says how many bytes it holds, has no error and finds an mbuf. -/
structure ChipSplits (cfg : RxConfig) (frame : List UInt8) (bs : List RxBuf) : Prop where
  bytes : (bs.map RxBuf.data).flatten = frame
  first : ∀ k b, bs[k]? = some b → (b.first = true ↔ k = 0)
  last : ∀ k b, bs[k]? = some b → (b.last = true ↔ k + 1 = bs.length)
  full : ∀ k b, bs[k]? = some b → k + 1 < bs.length → b.data.length = cfg.pageSize
  rest : ∀ k b, bs[k]? = some b → k + 1 = bs.length →
    1 ≤ b.data.length ∧ b.data.length ≤ cfg.pageSize
  len : ∀ b ∈ bs, rxLen 0x3fff b.desc = b.data.length
  done : ∀ b ∈ bs, b.desc.own = false
  good : ∀ b ∈ bs, b.good cfg.maxCopySize = true

/-- Frames the chip may receive, and the buffers it makes of them. -/
structure SplitFrames (cfg : RxConfig) (frames : List (List UInt8)) (bufs : List (List RxBuf)) : Prop where
  page : cfg.pageSize = 4096 ∨ cfg.pageSize = 16384
  size : ∀ f ∈ frames, 64 ≤ f.length ∧ f.length ≤ kMaxPacketSize
  split : List.Forall₂ (ChipSplits cfg) frames bufs

/-- The chip fills descriptors it owns, with the buffers `bufs` in order. -/
def FramesComing (cfg : RxConfig) (bufs : List (List RxBuf)) (s : RxSys) : RxOp → Prop
  | .complete b =>
    (s.side.desc s.chipNext).own = true ∧ DistinctPages cfg s.side.asm ∧
      s.stream ++ [b] <+: bufs.flatten
  | .interrupt maxCount => 0 < maxCount

/-- The frames whose buffers the driver has all handled. -/
def framesHandled (s : RxSys) : ℕ := (framesOf (s.stream.take s.side.seen)).1.length

/-- The bytes of a frame without the FCS. -/
def withoutFcs (frame : List UInt8) : List UInt8 := frame.take (frame.length - 4)

/-- The packets are these frames without their FCS, in order. -/
def Carry (pkts : List RxPacket) (frames : List (List UInt8)) : Prop :=
  List.Forall₂ RxPacket.Carries pkts (frames.map withoutFcs)

/-- Each frame handled was passed on, in order and once; between frames there is none begun; a call
handles as many as it may, or all that have arrived, and so the last one will be handled too. -/
structure CompleteDelivery (cfg : RxConfig) (frames : List (List UInt8)) (bufs : List (List RxBuf))
    (s : RxSys) : Prop where
  in_order : Carry s.side.asm.enqueued (frames.take (framesHandled s))
  idle : (framesOf (s.stream.take s.side.seen)).2 = [] →
    s.side.asm.rxPacketHead = none ∧ s.side.asm.rxPacketTail = none ∧ s.side.asm.rxPacketSize = 0
  call : ∀ maxCount, framesHandled (rxStep cfg s (.interrupt maxCount)) =
    min (framesHandled s + maxCount) (framesOf s.stream).1.length
  all : s.stream = bufs.flatten → ∀ calls : List ℕ, (∀ n ∈ calls, 0 < n) →
    frames.length ≤ framesHandled s + calls.length →
    framesHandled (exec (rxStep cfg) s (calls.map .interrupt)) = frames.length

/-! ### The buffers of a frame -/

section Splits

variable {cfg : RxConfig} {frame : List UInt8} {bs front rest : List RxBuf} {b : RxBuf}

theorem ChipSplits.ne_nil (h : ChipSplits cfg frame bs) (hlen : 64 ≤ frame.length) : bs ≠ [] := by
  rintro rfl
  rw [← h.bytes] at hlen
  exact absurd hlen (by decide)

/-- The buffers before one of a frame are not its last. -/
theorem ChipSplits.front_open (h : ChipSplits cfg frame (front ++ b :: rest)) :
    ∀ x ∈ front, x.last = false := by
  intro x hx
  obtain ⟨k, hk⟩ := List.mem_iff_getElem?.mp hx
  have hlt : k < front.length := (List.getElem?_eq_some_iff.mp hk).1
  have hlast := h.last k x (by rw [List.getElem?_append_left hlt, hk])
  rw [List.length_append, List.length_cons] at hlast
  rw [Bool.eq_false_iff, ne_eq, hlast]
  omega

/-- The buffers of a frame are one segment of the stream. -/
theorem ChipSplits.isSegment (h : ChipSplits cfg frame bs) (hlen : 64 ≤ frame.length) :
    IsSegment RxBuf.last bs := by
  obtain ⟨front, b, rfl⟩ := (List.eq_nil_or_concat' bs).resolve_left (h.ne_nil hlen)
  exact ⟨front, b, rfl, (h.last front.length b (by simp)).mpr (by simp), h.front_open⟩

/-- **What the chip completes next is what the ring needs.** -/
theorem ChipSplits.chipWrites (h : ChipSplits cfg frame (front ++ b :: rest)) (hlen : 64 ≤ frame.length)
    {before : List RxBuf} (hopen : (framesOf before).2 = front) : ChipWrites cfg before b := by
  have hb : (front ++ b :: rest)[front.length]? = some b := by simp
  have hmem : b ∈ front ++ b :: rest := by simp
  have hlast := h.last _ b hb
  rw [List.length_append, List.length_cons] at hlast
  refine ⟨h.done b hmem, ?_, fun _ => h.len b hmem, fun _ hmore => ?_, fun _ hend => ?_⟩
  · rw [h.first _ b hb, hopen, List.length_eq_zero_iff]
  · refine h.full _ b hb ?_
    rw [hmore] at hlast
    rw [List.length_append, List.length_cons]
    have hnot := mt hlast.mpr Bool.false_ne_true
    omega
  · have hrest : rest = [] := List.length_eq_zero_iff.mp (by have := hlast.mp hend; omega)
    have htotal : ((front ++ [b]).map RxBuf.data).flatten = frame := by
      rw [← h.bytes, hrest]
    rw [hopen, htotal]
    omega

end Splits

/-! ### The frames in order -/

section Frames

variable {cfg : RxConfig} {frames : List (List UInt8)} {bufs : List (List RxBuf)} {l : List RxBuf}
  {b : RxBuf}

theorem exists_of_mem_of_forall₂ {α β : Type*} {R : α → β → Prop} {as : List α} {bs : List β}
    (h : List.Forall₂ R as bs) : ∀ b ∈ bs, ∃ a ∈ as, R a b := by
  induction h with
  | nil => exact fun b hb => absurd hb List.not_mem_nil
  | cons hab _ ih =>
      intro b hb
      rcases List.mem_cons.mp hb with rfl | hb
      · exact ⟨_, List.mem_cons_self, hab⟩
      · obtain ⟨a, ha, hR⟩ := ih b hb
        exact ⟨a, List.mem_cons_of_mem _ ha, hR⟩

theorem SplitFrames.of_mem (h : SplitFrames cfg frames bufs) {bs : List RxBuf} (hbs : bs ∈ bufs) :
    ∃ frame, ChipSplits cfg frame bs ∧ 64 ≤ frame.length := by
  obtain ⟨frame, hmem, hsplit⟩ := exists_of_mem_of_forall₂ h.split bs hbs
  exact ⟨frame, hsplit, (h.size frame hmem).1⟩

theorem SplitFrames.isSegment (h : SplitFrames cfg frames bufs) :
    ∀ bs ∈ bufs, IsSegment RxBuf.last bs := by
  intro bs hbs
  obtain ⟨frame, hsplit, hlen⟩ := h.of_mem hbs
  exact hsplit.isSegment hlen

theorem SplitFrames.good (h : SplitFrames cfg frames bufs) :
    ∀ b ∈ bufs.flatten, b.good cfg.maxCopySize = true := by
  intro b hb
  obtain ⟨bs, hbs, hmem⟩ := List.mem_flatten.mp hb
  obtain ⟨frame, hsplit, -⟩ := h.of_mem hbs
  exact hsplit.good b hmem

/-- **The next buffer of the stream**, if the frames come in order. -/
theorem SplitFrames.chipWrites (h : SplitFrames cfg frames bufs) (hcoming : l ++ [b] <+: bufs.flatten) :
    ChipWrites cfg l b := by
  obtain ⟨done, f, todo, front, rest, rfl, rfl, rfl⟩ := prefix_flatten hcoming
  have hmem : front ++ b :: rest ∈ done ++ (front ++ b :: rest) :: todo := by simp
  have hdone : ∀ f ∈ done, IsSegment RxBuf.last f := fun f hf =>
    h.isSegment f (List.mem_append_left _ hf)
  obtain ⟨frame, hsplit, hlen⟩ := h.of_mem hmem
  have hcut := cut_flatten_append hdone hsplit.front_open
  exact hsplit.chipWrites hlen (congrArg Prod.snd hcut)

/-- Of what has come in, the frames finished are the first ones. -/
theorem SplitFrames.finished (h : SplitFrames cfg frames bufs) (hl : l <+: bufs.flatten) :
    (framesOf l).1 = bufs.take (framesOf l).1.length := by
  obtain ⟨rest, hrest⟩ := hl
  have hcut : cut RxBuf.last bufs.flatten = (bufs, []) := by
    have hall := cut_flatten_append h.isSegment (m := []) fun x hx => absurd hx List.not_mem_nil
    rwa [List.append_nil] at hall
  have hpre := cut_finished_append (p := RxBuf.last) l rest
  rw [hrest, hcut] at hpre
  exact List.prefix_iff_eq_take.mp hpre

/-- The bytes to be passed on for the frames finished in the buffers `l`. -/
def payloads (l : List RxBuf) : List (List UInt8) :=
  (framesOf l).1.map fun f => framePayload (f.map RxBuf.data)

theorem SplitFrames.payloads_eq (h : SplitFrames cfg frames bufs) (hl : l <+: bufs.flatten) :
    payloads l = (frames.take (framesOf l).1.length).map withoutFcs := by
  have hall : bufs.map (fun f => framePayload (f.map RxBuf.data)) = frames.map withoutFcs := by
    have hsplit := h.split
    clear hl h
    induction hsplit with
    | nil => rfl
    | cons hfirst _ ih => rw [List.map_cons, List.map_cons, ih, framePayload, hfirst.bytes, withoutFcs]
  have hfinished := h.finished hl
  set n := (framesOf l).1.length
  rw [payloads, hfinished, List.map_take, hall, List.map_take]

end Frames

/-! ### A buffer further -/

section Handle

variable {cfg : RxConfig} {l : List RxBuf} {s : RxAssembly} {b : RxBuf} {d : RxDesc} {i : ℕ}

theorem rxHandle_enqueued_more {lenMask : UInt32} {maxCopySize : ℕ} {a : Alloc}
    (htakes : rxTakes lenMask maxCopySize d a = true) (hmore : d.opts1 &&& lastFrag = 0) (i : ℕ)
    (s : RxAssembly) : (rxHandle lenMask maxCopySize i d a s).asm.enqueued = s.enqueued := by
  obtain ⟨newPkt, s', hoff, hasm⟩ := rxHandle_taken htakes i s
  rw [hasm, (handlePkt_linked hmore newPkt _ d.opts2 s').enqueued, hoff.enqueued]

/-- **The packets passed on are the frames finished**, one buffer further. -/
theorem Assembled.carries (h : Assembled cfg l s) (hi : i < kNumRxDesc) (h1 : d.opts1 = b.opts1)
    (hdata : b.data <+: (s.mbuf (s.bufMbuf i)).data) (hwrites : ChipWrites cfg l b)
    (hall : ∀ x ∈ (framesOf l).2, x.good cfg.maxCopySize = true)
    (hgood : b.good cfg.maxCopySize = true)
    (hc : List.Forall₂ RxPacket.Carries s.enqueued (payloads l)) :
    List.Forall₂ RxPacket.Carries (rxHandle 0x3fff cfg.maxCopySize i d b.alloc s).asm.enqueued
      (payloads (l ++ [b])) := by
  cases hlast : b.last with
  | true =>
      obtain ⟨pkt, henq, hcarries, -⟩ := h.passes_on hi h1 hdata hwrites hall hgood hlast
      rw [henq, payloads, framesOf, cut_snoc_last l hlast, List.map_append]
      exact List.rel_append hc (List.Forall₂.cons hcarries List.Forall₂.nil)
  | false =>
      have hmore : d.opts1 &&& lastFrag = 0 := by
        rw [h1]
        simpa [RxBuf.last] using hlast
      rw [rxHandle_enqueued_more (by rw [rxTakes_desc h1, hgood]) hmore, payloads, framesOf,
        cut_snoc_more l hlast]
      exact hc

theorem framesOf_snoc_length (l : List RxBuf) (b : RxBuf) :
    (framesOf (l ++ [b])).1.length = (framesOf l).1.length + b.last.toNat := by
  cases hlast : b.last with
  | true =>
      rw [framesOf, cut_snoc_last l hlast, List.length_append]
      rfl
  | false =>
      rw [framesOf, cut_snoc_more l hlast]
      rfl

end Handle

/-! ### Calls -/

/-- What holds between completions and calls while the frames come in. -/
structure FrameInv (cfg : RxConfig) (bufs : List (List RxBuf)) (s : RxSys) : Prop where
  inv : RxInv cfg s
  coming : s.stream <+: bufs.flatten
  carries : List.Forall₂ RxPacket.Carries s.side.asm.enqueued (payloads (s.stream.take s.side.seen))

section Calls

variable {cfg : RxConfig} {frames : List (List UInt8)} {bufs : List (List RxBuf)} {s : RxSys}
  {c : RxCall} {maxCount : ℕ}

/-- Only frames that have arrived are handled. -/
theorem framesHandled_le (s : RxSys) : framesHandled s ≤ (framesOf s.stream).1.length := by
  have hpre := cut_finished_append (p := RxBuf.last) (s.stream.take s.side.seen)
    (s.stream.drop s.side.seen)
  rw [List.take_append_drop] at hpre
  exact hpre.length_le

/-- A call in progress that began at `s`: the packets passed on, and how many there are. -/
structure CallInv (s : RxSys) (maxCount : ℕ) (c : RxCall) : Prop where
  carries : List.Forall₂ RxPacket.Carries c.side.asm.enqueued (payloads (s.stream.take c.side.seen))
  handled : framesHandled s + c.goodPkts = (framesOf (s.stream.take c.side.seen)).1.length
  le : c.goodPkts ≤ maxCount

/-- Whatever part of the stream is open, its buffers are good. -/
theorem SplitFrames.open_good (h : SplitFrames cfg frames bufs) {l : List RxBuf}
    (hl : l <+: bufs.flatten) : ∀ x ∈ (framesOf l).2, x.good cfg.maxCopySize = true := by
  intro x hx
  have hmem : x ∈ l := by
    have hflat : (framesOf l).1.flatten ++ (framesOf l).2 = l := cut_flatten_eq l
    rw [← hflat]
    exact List.mem_append_right _ hx
  exact h.good x (hl.subset hmem)

/-- **One round** handles the next buffer, and `goodPkts` counts the frames it finishes. -/
theorem CallInv.round (hframes : SplitFrames cfg frames bufs) (hcoming : s.stream <+: bufs.flatten)
    (hinv : RxInv cfg { s with side := c.side }) (hgo : rxGoOn maxCount c = true)
    (h : CallInv s maxCount c) : CallInv s maxCount (rxInterruptStep cfg s.alloc c) := by
  obtain ⟨b, p, hp, hword, hdata⟩ := hinv.next hgo
  obtain ⟨hb, -, htake⟩ := next_of_drop hp
  have hgood : b.good cfg.maxCopySize = true :=
    hframes.good b (hcoming.subset (List.mem_of_getElem? hb))
  have hopen := hframes.open_good ((List.take_prefix c.side.seen s.stream).trans hcoming)
  have halloc := RxSys.alloc_of_drop hp
  have hdelivers : (c.handle 0x3fff cfg.maxCopySize s.alloc).good = b.last := by
    rw [RxCall.handle, halloc, rxHandle_good, rxDelivers, rxTakes_desc hword, hgood, hword]
    rfl
  have hlt : c.goodPkts < maxCount := by
    simp only [rxGoOn, Bool.and_eq_true, decide_eq_true_eq] at hgo
    exact hgo.2
  refine ⟨?_, ?_, ?_⟩
  · show List.Forall₂ RxPacket.Carries (c.handle 0x3fff cfg.maxCopySize s.alloc).asm.enqueued
      (payloads (s.stream.take (c.side.seen + 1)))
    rw [htake, RxCall.handle, halloc]
    exact hinv.assembled.carries hinv.index_lt hword hdata (hinv.writes _ b hb) hopen hgood h.carries
  · show framesHandled s + (c.goodPkts + (c.handle 0x3fff cfg.maxCopySize s.alloc).good.toNat) =
      (framesOf (s.stream.take (c.side.seen + 1))).1.length
    rw [htake, framesOf_snoc_length, hdelivers, ← h.handled, Nat.add_assoc]
  · show c.goodPkts + (c.handle 0x3fff cfg.maxCopySize s.alloc).good.toNat ≤ maxCount
    have := Bool.toNat_le (c.handle 0x3fff cfg.maxCopySize s.alloc).good
    omega

/-- A call that stops before `maxCount` frames has handled every buffer there is. -/
theorem RxInv.drained (h : RxInv cfg { s with side := c.side }) (hstop : rxGoOn maxCount c = false)
    (hlt : c.goodPkts < maxCount) : s.stream.take c.side.seen = s.stream := by
  have hown : (c.side.desc c.side.rxNextDescIndex).own = true := by
    simpa [rxGoOn, hlt] using hstop
  have hnil : s.stream.drop c.side.seen = [] := by
    by_contra hne
    obtain ⟨b, p, hp⟩ := List.exists_cons_of_ne_nil hne
    have hring : RingHolds c.side (s.stream.drop c.side.seen) := h.ring
    have hword : (rxAt c.side 0).opts1 = b.opts1 := hring.desc 0 b (by rw [hp]; rfl)
    have hdone := (h.writes _ b (next_of_drop hp).1).done
    rw [rxAt, show rxIndex c.side 0 = _ from Circular.slot_zero h.index_lt] at hword
    have hsame : (c.side.desc c.side.rxNextDescIndex).own = b.desc.own := own_of_opts1 hword
    rw [hsame, hdone] at hown
    exact absurd hown (by decide)
  rw [List.take_eq_self_iff]
  exact List.drop_eq_nil_iff.mp hnil

/-- **A call handles `maxCount` frames, or all that have arrived.** -/
theorem FrameInv.interrupt (hframes : SplitFrames cfg frames bufs) (h : FrameInv cfg bufs s)
    (maxCount : ℕ) :
    FrameInv cfg bufs (rxStep cfg s (.interrupt maxCount)) ∧
      framesHandled (rxStep cfg s (.interrupt maxCount)) =
        min (framesHandled s + maxCount) (framesOf s.stream).1.length := by
  have hpage : 4 ≤ cfg.pageSize := by
    have := hframes.page
    omega
  obtain ⟨c, hc, hstop, hinv, hcall⟩ := rxInterrupt_rounds hpage h.inv maxCount
    (P := CallInv s maxCount) ⟨h.carries, rfl, Nat.zero_le _⟩
    fun c hinv hgo hcall => hcall.round hframes h.coming hinv hgo
  rw [hc]
  refine ⟨⟨hinv, h.coming, hcall.carries⟩, ?_⟩
  have hle : (framesOf (s.stream.take c.side.seen)).1.length ≤ (framesOf s.stream).1.length :=
    framesHandled_le { s with side := c.side }
  have hhandled := hcall.handled
  show (framesOf (s.stream.take c.side.seen)).1.length = _
  rcases Nat.lt_or_eq_of_le hcall.le with hlt | heq
  · rw [hinv.drained hstop hlt] at hhandled ⊢
    omega
  · omega

theorem FrameInv.complete (hframes : SplitFrames cfg frames bufs) (h : FrameInv cfg bufs s) {b : RxBuf}
    (hop : FramesComing cfg bufs s (.complete b)) : FrameInv cfg bufs (chipComplete cfg b s) := by
  obtain ⟨hown, hpages, hcoming⟩ := hop
  have hgood := hframes.open_good ((List.prefix_append _ _).trans hcoming)
  have hinv := rxInv_complete h.inv hown hpages (hframes.chipWrites hcoming) fun _ _ => hgood
  refine ⟨hinv, hcoming, ?_⟩
  show List.Forall₂ RxPacket.Carries s.side.asm.enqueued (payloads ((s.stream ++ [b]).take s.side.seen))
  rw [List.take_append_of_le_length h.inv.seen_le]
  exact h.carries

theorem FrameInv.step (hframes : SplitFrames cfg frames bufs) (s : RxSys) (op : RxOp)
    (h : FrameInv cfg bufs s) (hop : FramesComing cfg bufs s op) : FrameInv cfg bufs (rxStep cfg s op) := by
  cases op with
  | complete b => exact h.complete hframes hop
  | interrupt maxCount => exact (h.interrupt hframes maxCount).1

/-- One call for each frame is enough. -/
theorem FrameInv.all (hframes : SplitFrames cfg frames bufs) (h : FrameInv cfg bufs s)
    (hdone : s.stream = bufs.flatten) (calls : List ℕ) (hpos : ∀ n ∈ calls, 0 < n)
    (henough : frames.length ≤ framesHandled s + calls.length) :
    framesHandled (exec (rxStep cfg) s (calls.map .interrupt)) = frames.length := by
  have hreceived : (framesOf s.stream).1.length = frames.length := by
    have hcut := cut_flatten_append hframes.isSegment (m := []) fun x hx => absurd hx List.not_mem_nil
    rw [List.append_nil] at hcut
    rw [hdone, framesOf, hcut]
    exact hframes.split.length_eq.symm
  induction calls generalizing s with
  | nil =>
      exact le_antisymm (hreceived ▸ framesHandled_le s) henough
  | cons n calls ih =>
      obtain ⟨hnext, hhandled⟩ := h.interrupt hframes n
      have hstream := rxStep_interrupt_stream cfg s n
      rw [List.map_cons, exec]
      refine ih hnext (hstream.trans hdone) (fun m hm => hpos m (List.mem_cons_of_mem _ hm)) ?_ ?_
      · rw [hhandled, hreceived]
        have := hpos n List.mem_cons_self
        rw [List.length_cons] at henough
        omega
      · rw [hstream, hreceived]

/-- Between frames nothing is on the chain. -/
theorem FrameInv.idle (h : FrameInv cfg bufs s)
    (hopen : (framesOf (s.stream.take s.side.seen)).2 = []) :
    s.side.asm.rxPacketHead = none ∧ s.side.asm.rxPacketTail = none ∧ s.side.asm.rxPacketSize = 0 := by
  have hholds : HoldsFrame s.side.asm [] := by
    have hchain := h.inv.assembled.chain
    rw [hopen] at hchain
    exact hchain fun b hb => absurd hb List.not_mem_nil
  have hnil : s.side.asm.rxPacket = [] := List.map_eq_nil_iff.mp hholds.bytes
  rw [rxPacketHead, rxPacketTail, hnil]
  exact ⟨rfl, rfl, hholds.size⟩

end Calls

/-- **Kext receive completeness.**  In every run in which the chip fills in the buffers of the frames in
order, and the driver calls `rxInterrupt` whenever it likes, every frame handled was passed on once and in
order without its FCS, between frames there is none begun, and calls enough pass on all of them. -/
theorem rxInterrupt_complete (cfg : RxConfig) (frames : List (List UInt8)) (bufs : List (List RxBuf))
    (hframes : SplitFrames cfg frames bufs) (ops : List RxOp)
    (hrun : Along (rxStep cfg) (FramesComing cfg bufs) (rxSetup cfg) ops) :
    CompleteDelivery cfg frames bufs (exec (rxStep cfg) (rxSetup cfg) ops) := by
  have hinit : FrameInv cfg bufs (rxSetup cfg) :=
    ⟨rxSetup_inv cfg, List.nil_prefix, List.Forall₂.nil⟩
  have h := invariant_along (FrameInv.step hframes) hinit hrun
  refine ⟨?_, h.idle, fun maxCount => (h.interrupt hframes maxCount).2, h.all hframes⟩
  rw [Carry, framesHandled, ← hframes.payloads_eq ((List.take_prefix _ _).trans h.coming)]
  exact h.carries

/-- A frame of 4098 bytes: half of its FCS is in a buffer of its own. -/
def straddlingFrame : List UInt8 := List.replicate 4096 0x11 ++ [0x22, 0x33]

def fcsTail : RxBuf := ⟨lastFrag ||| 2, 0, [0x22, 0x33], .single⟩

theorem straddlingFrame_splits : ChipSplits page4k straddlingFrame [firstHalf .single, fcsTail] := by
  have hcases : ∀ {P : ℕ → RxBuf → Prop}, P 0 (firstHalf .single) → P 1 fcsTail →
      ∀ k b, [firstHalf .single, fcsTail][k]? = some b → P k b := by
    intro P h0 h1 k b hb
    match k with
    | 0 => exact Option.some.inj hb ▸ h0
    | 1 => exact Option.some.inj hb ▸ h1
    | k + 2 => cases hb
  have hmem : ∀ {P : RxBuf → Prop}, P (firstHalf .single) → P fcsTail →
      ∀ b ∈ [firstHalf .single, fcsTail], P b := by
    intro P h0 h1 b hb
    rcases List.mem_pair.mp hb with rfl | rfl
    · exact h0
    · exact h1
  refine ⟨rfl, hcases ?_ ?_, hcases ?_ ?_, hcases ?_ ?_, hcases ?_ ?_, hmem ?_ ?_, hmem ?_ ?_, hmem ?_ ?_⟩
  all_goals decide +kernel

theorem rxInterrupt_complete_straddlingFrame :
    CompleteDelivery page4k [straddlingFrame] [[firstHalf .single, fcsTail]]
      (exec (rxStep page4k) (rxSetup page4k)
        [.complete (firstHalf .single), .interrupt 1, .complete fcsTail, .interrupt 1]) ∧
    (exec (rxStep page4k) (rxSetup page4k) [.complete (firstHalf .single), .interrupt 1,
      .complete fcsTail, .interrupt 1]).side.asm.enqueued.map RxPacket.lens = [[4094]] := by
  have hframes : SplitFrames page4k [straddlingFrame] [[firstHalf .single, fcsTail]] := by
    refine ⟨Or.inl rfl, fun f hf => ?_, List.Forall₂.cons straddlingFrame_splits List.Forall₂.nil⟩
    rw [List.mem_singleton.mp hf]
    decide +kernel
  refine ⟨rxInterrupt_complete page4k _ _ hframes _
    ⟨⟨?_, page4k_distinctPages _, [fcsTail], rfl⟩, Nat.one_pos, ⟨?_, page4k_distinctPages _, ?_⟩,
      Nat.one_pos, trivial⟩, ?_⟩
  · decide +kernel
  · decide +kernel
  · rw [rxStep_interrupt_stream]
    exact List.prefix_rfl
  · decide +kernel

end Rtl812x.Kext
