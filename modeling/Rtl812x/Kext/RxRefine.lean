import Mathlib.Data.List.Infix
import Rtl812x.Kext.RxHandle
import Rtl812x.Kext.RxLoop

/-!
# The mapped receive path against the plain one

`rxInterruptVTD` is meant to do what `rxInterrupt` does.  The two bodies differ in the length mask
(`0x1fff` against `0x3fff`), and the mapped loop does not stop after a lap.  As long as neither
matters the two loops carry the same assembly through the same rounds (`asmAfter_eq`).

* `ChipRing` — a ring as the chip can fill it: frames of at most `kMaxPacketSize` bytes in buffers
  of a page;
* `rxReach` — how many descriptors the plain loop handles;
* `rxInterruptVTD_refines_iff` — the mapped path hands up the same packets, returns the same count
  and leaves the same state **exactly when** no frame of 8192 bytes or more is taken from one buffer
  and the ring is not one whole lap with too few packets;
* `jumbo_frame_cut_short` — a 9018-byte frame in a 16 KB buffer comes out 822 bytes long.
-/

namespace Rtl812x.Kext

open Circular Loop RxAssembly

def kMaxPacketSize : ℕ := 9000 + 14 + 4 + 4

/-- A receive side whose completed descriptors are the chip's: an error-free buffer holds at most a
frame, and is full unless it is the last of its frame. -/
structure ChipRing (cfg : RxConfig) where
  side : RxSide
  index_lt : side.rxNextDescIndex < kNumRxDesc
  page : cfg.pageSize = 4096 ∨ cfg.pageSize = 16384
  fits : ∀ i < kNumRxDesc, (side.desc i).own = false → (side.desc i).opts1 &&& rxRES = 0 →
    rxLen 0x3fff (side.desc i) ≤ kMaxPacketSize
  full : ∀ i < kNumRxDesc, (side.desc i).own = false → (side.desc i).opts1 &&& rxRES = 0 →
    (side.desc i).opts1 &&& lastFrag = 0 → rxLen 0x3fff (side.desc i) = cfg.pageSize

/-! ### The two ways to read a length -/

theorem rxLen_3fff (d : RxDesc) : rxLen 0x3fff d = d.opts1.toNat % 2 ^ 14 := by
  rw [rxLen, UInt32.toNat_and]
  exact Nat.and_two_pow_sub_one_eq_mod _ 14

theorem rxLen_1fff (d : RxDesc) : rxLen 0x1fff d = rxLen 0x3fff d % 2 ^ 13 := by
  rw [rxLen_3fff, rxLen, UInt32.toNat_and, Nat.mod_mod_of_dvd _ (by decide)]
  exact Nat.and_two_pow_sub_one_eq_mod _ 13

theorem rxLen_1fff_of_lt {d : RxDesc} (h : rxLen 0x3fff d < 8192) :
    rxLen 0x1fff d = rxLen 0x3fff d := by
  rw [rxLen_1fff]
  exact Nat.mod_eq_of_lt h

/-- The shorter mask takes a packet wherever the longer one does. -/
theorem rxTakes_1fff_of_3fff {maxCopySize : ℕ} {d : RxDesc} {a : Alloc}
    (h : rxTakes 0x3fff maxCopySize d a = true) : rxTakes 0x1fff maxCopySize d a = true := by
  have hle : rxLen 0x1fff d ≤ rxLen 0x3fff d := by
    rw [rxLen_1fff]
    exact Nat.mod_le _ _
  simp only [rxTakes, Bool.and_eq_true, beq_iff_eq, bne_iff_ne, Bool.not_eq_true',
    Bool.and_eq_false_iff, decide_eq_false_iff_not] at h ⊢
  exact ⟨h.1, h.2.imp (fun hlen => by omega) id⟩

theorem rxDelivers_1fff_of_3fff {maxCopySize : ℕ} {d : RxDesc} {a : Alloc}
    (h : rxDelivers 0x3fff maxCopySize d a = true) : rxDelivers 0x1fff maxCopySize d a = true := by
  simp only [rxDelivers, Bool.and_eq_true] at h ⊢
  exact ⟨rxTakes_1fff_of_3fff h.1, h.2⟩

/-- **The bodies agree** on a short buffer, and on one that is not taken. -/
theorem rxHandle_agree {maxCopySize : ℕ} {d : RxDesc} {a : Alloc}
    (h : rxLen 0x3fff d < 8192 ∨ rxTakes 0x1fff maxCopySize d a = false) (i : ℕ) (s : RxAssembly) :
    (rxHandle 0x1fff maxCopySize i d a s).asm = (rxHandle 0x3fff maxCopySize i d a s).asm ∧
    rxDelivers 0x1fff maxCopySize d a = rxDelivers 0x3fff maxCopySize d a := by
  rcases h with hlen | h13
  · have heq := rxLen_1fff_of_lt hlen
    exact ⟨by rw [rxHandle, rxHandle, heq], by rw [rxDelivers, rxDelivers, rxTakes, rxTakes, heq]⟩
  · have h14 : rxTakes 0x3fff maxCopySize d a = false := by
      by_contra h14
      rw [rxTakes_1fff_of_3fff (by simpa using h14)] at h13
      exact absurd h13 (by decide)
    refine ⟨?_, by rw [rxDelivers, rxDelivers, h13, h14]⟩
    rw [(rxHandle_dropped h13 i s).1, (rxHandle_dropped h14 i s).1]

/-! ### What is handed up -/

section Enqueued

variable {lenMask : UInt32} {maxCopySize : ℕ} {d : RxDesc} {a : Alloc}

theorem rxHandle_delivers (h : rxDelivers lenMask maxCopySize d a = true) (i : ℕ) (s : RxAssembly) :
    ∃ pkt, (rxHandle lenMask maxCopySize i d a s).asm.enqueued = s.enqueued ++ [pkt] ∧
      pkt.pktHdrLen = sizeSoFar s + (rxLen lenMask d - kIOEthernetCRCSize) := by
  simp only [rxDelivers, Bool.and_eq_true, bne_iff_ne] at h
  obtain ⟨newPkt, s', hoff, hasm⟩ := rxHandle_taken h.1 i s
  obtain ⟨pkt, hpass, hlen⟩ := handlePkt_passedOn h.2 newPkt (rxLen lenMask d) d.opts2 s'
  have hsize : sizeSoFar s' = sizeSoFar s := by
    rw [sizeSoFar, sizeSoFar, hoff.rxPacket, hoff.rxPacketSize]
  exact ⟨pkt, by rw [hasm, hpass.enqueued, hoff.enqueued], by rw [hlen, hsize]⟩

/-- The body adds to what was handed up. -/
theorem rxHandle_enqueued (lenMask : UInt32) (maxCopySize i : ℕ) (d : RxDesc) (a : Alloc)
    (s : RxAssembly) : s.enqueued <+: (rxHandle lenMask maxCopySize i d a s).asm.enqueued := by
  cases htakes : rxTakes lenMask maxCopySize d a with
  | false => rw [(rxHandle_dropped htakes i s).2.enqueued]
  | true =>
      by_cases hlast : d.opts1 &&& lastFrag = 0
      · obtain ⟨newPkt, s', hoff, hasm⟩ := rxHandle_taken htakes i s
        rw [hasm, (handlePkt_linked hlast newPkt _ _ s').enqueued, hoff.enqueued]
      · have hdel : rxDelivers lenMask maxCopySize d a = true := by
          rw [rxDelivers, htakes]
          simpa using hlast
        obtain ⟨pkt, henq, _⟩ := rxHandle_delivers hdel i s
        rw [henq]
        exact List.prefix_append _ _

end Enqueued

/-! ### The rounds of the two loops -/

section Rounds

variable (cfg : RxConfig) (alloc : ℕ → Alloc) (maxCount : ℕ) (s : RxSide)

/-- How many descriptors the plain loop handles: up to one the chip owns, to `maxCount` packets, or
to the end of the lap. -/
def rxReach : ℕ :=
  runLength (fun k => !(rxAt s k).own && decide (goodAfter 0x3fff cfg.maxCopySize alloc s k < maxCount))
    kNumRxDesc

/-- At place `k` the bodies agree: the buffer is short, or not taken. -/
def Agrees (k : ℕ) : Prop :=
  rxLen 0x3fff (rxAt s k) < 8192 ∨
    rxTakes 0x1fff cfg.maxCopySize (rxAt s k) (alloc (s.seen + k)) = false

variable {cfg alloc maxCount s}

theorem rxReach_le (cfg : RxConfig) (alloc : ℕ → Alloc) (maxCount : ℕ) (s : RxSide) :
    rxReach cfg alloc maxCount s ≤ kNumRxDesc := runLength_le _ _

theorem goOn_of_lt_rxReach {k : ℕ} (hk : k < rxReach cfg alloc maxCount s) :
    (rxAt s k).own = false ∧ goodAfter 0x3fff cfg.maxCopySize alloc s k < maxCount := by
  simpa using runLength_holds
    (p := fun k => !(rxAt s k).own && decide (goodAfter 0x3fff cfg.maxCopySize alloc s k < maxCount)) hk

theorem stop_at_rxReach (h : rxReach cfg alloc maxCount s < kNumRxDesc) :
    (!(rxAt s (rxReach cfg alloc maxCount s)).own && decide
      (goodAfter 0x3fff cfg.maxCopySize alloc s (rxReach cfg alloc maxCount s) < maxCount)) = false :=
  runLength_ends
    (p := fun k => !(rxAt s k).own && decide (goodAfter 0x3fff cfg.maxCopySize alloc s k < maxCount)) h

theorem rxInterrupt_stopsAt_rxReach (hs : s.rxNextDescIndex < kNumRxDesc) :
    StopsAt (rxGoOn maxCount) (rxInterruptStep cfg alloc) (.start s) (rxReach cfg alloc maxCount s) := by
  refine ⟨fun j hj => ?_, ?_⟩
  · rw [rxGoOn_plain cfg alloc hs maxCount (hj.trans_le (rxReach_le cfg alloc maxCount s))]
    simpa using goOn_of_lt_rxReach hj
  · rcases Nat.lt_or_eq_of_le (rxReach_le cfg alloc maxCount s) with hlt | heq
    · rw [rxGoOn_plain cfg alloc hs maxCount hlt]
      exact stop_at_rxReach hlt
    · rw [heq]
      exact rxGoOn_plain_lap cfg alloc hs maxCount

/-- **While the bodies agree the two loops carry the same assembly and the same count.** -/
theorem asmAfter_eq {k : ℕ} (h : ∀ j < k, Agrees cfg alloc s j) :
    asmAfter 0x1fff cfg.maxCopySize alloc s k = asmAfter 0x3fff cfg.maxCopySize alloc s k ∧
    goodAfter 0x1fff cfg.maxCopySize alloc s k = goodAfter 0x3fff cfg.maxCopySize alloc s k := by
  induction k with
  | zero => exact ⟨rfl, rfl⟩
  | succ k ih =>
      obtain ⟨hasm, hgood⟩ := ih fun j hj => h j (by omega)
      have hbody := rxHandle_agree (h k (by omega)) (rxIndex s k)
        (asmAfter 0x3fff cfg.maxCopySize alloc s k)
      exact ⟨by rw [asmAfter, asmAfter, hasm, hbody.1], by rw [goodAfter, goodAfter, hgood, hbody.2]⟩

/-- At one descriptor the mapped loop delivers what the plain one delivers. -/
theorem delivered_le (k : ℕ) :
    (rxDelivers 0x3fff cfg.maxCopySize (rxAt s k) (alloc (s.seen + k))).toNat ≤
      (rxDelivers 0x1fff cfg.maxCopySize (rxAt s k) (alloc (s.seen + k))).toNat := by
  cases h : rxDelivers 0x3fff cfg.maxCopySize (rxAt s k) (alloc (s.seen + k)) with
  | false => exact Nat.zero_le _
  | true => rw [rxDelivers_1fff_of_3fff h]

/-- The mapped loop counts at least what the plain one counts. -/
theorem goodAfter_le (k : ℕ) : goodAfter 0x3fff cfg.maxCopySize alloc s k ≤
    goodAfter 0x1fff cfg.maxCopySize alloc s k := by
  induction k with
  | zero => exact le_refl 0
  | succ k ih =>
      rw [goodAfter, goodAfter]
      exact Nat.add_le_add ih (delivered_le k)

/-- A packet only the mapped loop delivers keeps it ahead. -/
theorem goodAfter_lt {j k : ℕ} (hj : j < k)
    (h13 : rxDelivers 0x1fff cfg.maxCopySize (rxAt s j) (alloc (s.seen + j)) = true)
    (h14 : rxDelivers 0x3fff cfg.maxCopySize (rxAt s j) (alloc (s.seen + j)) = false) :
    goodAfter 0x3fff cfg.maxCopySize alloc s k < goodAfter 0x1fff cfg.maxCopySize alloc s k := by
  induction k with
  | zero => exact absurd hj (Nat.not_lt_zero j)
  | succ k ih =>
      rw [goodAfter, goodAfter]
      rcases Nat.lt_succ_iff_lt_or_eq.mp hj with hlt | rfl
      · exact Nat.add_lt_add_of_lt_of_le (ih hlt) (delivered_le k)
      · rw [h13, h14]
        exact Nat.add_lt_add_of_le_of_lt (goodAfter_le j) (by decide)

theorem enqueued_mono (cfg : RxConfig) (alloc : ℕ → Alloc) (s : RxSide) (lenMask : UInt32) {j k : ℕ}
    (h : j ≤ k) : (asmAfter lenMask cfg.maxCopySize alloc s j).enqueued <+:
      (asmAfter lenMask cfg.maxCopySize alloc s k).enqueued := by
  induction k with
  | zero => rw [Nat.le_zero.mp h]
  | succ k ih =>
      rcases Nat.lt_or_eq_of_le h with hlt | rfl
      · exact (ih (by omega)).trans (rxHandle_enqueued _ _ _ _ _ _)
      · exact List.prefix_rfl

/-- What a descriptor delivered stays at its place in what was handed up. -/
theorem asmAfter_delivers {lenMask : UInt32} {j k : ℕ} (hjk : j < k)
    (h : rxDelivers lenMask cfg.maxCopySize (rxAt s j) (alloc (s.seen + j)) = true) :
    ∃ pkt, (asmAfter lenMask cfg.maxCopySize alloc s k).enqueued[
        (asmAfter lenMask cfg.maxCopySize alloc s j).enqueued.length]? = some pkt ∧
      pkt.pktHdrLen = sizeSoFar (asmAfter lenMask cfg.maxCopySize alloc s j) +
        (rxLen lenMask (rxAt s j) - kIOEthernetCRCSize) := by
  obtain ⟨pkt, henq, hlen⟩ := rxHandle_delivers h (rxIndex s j)
    (asmAfter lenMask cfg.maxCopySize alloc s j)
  obtain ⟨rest, hrest⟩ := enqueued_mono cfg alloc s lenMask hjk
  refine ⟨pkt, ?_, hlen⟩
  rw [← hrest, asmAfter, henq, List.append_assoc, List.getElem?_append_right (le_refl _), Nat.sub_self]
  rfl

end Rounds

/-! ### When the outcomes are the same -/

/-- What the stack sees of a packet: lengths, bytes and the VLAN tag. -/
def RxPacket.contents (p : RxPacket) : List ℤ × ℤ × List UInt8 × Option UInt16 :=
  (p.lens, p.pktHdrLen, p.bytes, p.vlanTag)

/-- Both calls handed up the same packets, returned the same count and left the same place in the
ring and the same unfinished frame. -/
structure SameOutcome (p v : RxCall) : Prop where
  packets : v.side.asm.enqueued.map RxPacket.contents = p.side.asm.enqueued.map RxPacket.contents
  count : v.goodPkts = p.goodPkts
  next : v.side.rxNextDescIndex = p.side.rxNextDescIndex
  head : v.side.asm.rxPacketHead = p.side.asm.rxPacketHead
  tail : v.side.asm.rxPacketTail = p.side.asm.rxPacketTail
  size : v.side.asm.rxPacketSize = p.side.asm.rxPacketSize

section Outcome

variable (cfg : RxConfig) (alloc : ℕ → Alloc) (maps : ℕ → MapResult) (maxCount : ℕ) (r : ChipRing cfg)

/-- With enough fuel both calls return, with the same outcome. -/
def Refines : Prop :=
  ∃ fuel p v, rxInterrupt cfg alloc maxCount fuel r.side = some p ∧
    rxInterruptVTD cfg alloc maps maxCount fuel r.side = some v ∧ SameOutcome p v

/-- `Refines` in terms of the rounds of the loops. -/
structure SameRounds (k : ℕ) : Prop where
  stops : StopsAt (rxGoOn maxCount) (rxInterruptVTDStep cfg alloc) (.start r.side) k
  packets : (asmAfter 0x1fff cfg.maxCopySize alloc r.side k).enqueued.map RxPacket.contents =
    (asmAfter 0x3fff cfg.maxCopySize alloc r.side
      (rxReach cfg alloc maxCount r.side)).enqueued.map RxPacket.contents
  count : goodAfter 0x1fff cfg.maxCopySize alloc r.side k =
    goodAfter 0x3fff cfg.maxCopySize alloc r.side (rxReach cfg alloc maxCount r.side)
  next : rxIndex r.side k = rxIndex r.side (rxReach cfg alloc maxCount r.side)

variable {cfg alloc maps maxCount r}

theorem Refines.sameRounds (h : Refines cfg alloc maps maxCount r) :
    ∃ k, SameRounds cfg alloc maxCount r k := by
  obtain ⟨fuel, p, v, hp, hv, hsame⟩ := h
  obtain ⟨n, _, hstopP, rfl⟩ := whileFuel_eq_some_iff.mp hp
  rw [hstopP.unique (rxInterrupt_stopsAt_rxReach r.index_lt)] at hsame
  obtain ⟨c, hloop, rfl⟩ := Option.map_eq_some_iff.mp hv
  obtain ⟨k, _, hstopV, rfl⟩ := whileFuel_eq_some_iff.mp hloop
  have hP := (rxInterruptStep_iterate cfg alloc r.index_lt
    (rxReach_le cfg alloc maxCount r.side)).1
  have hV := (rxInterruptVTDStep_iterate cfg alloc r.index_lt k).1
  obtain ⟨hasm, hnext, hgood, _⟩ := rxRemap_frame cfg maps
    ((rxInterruptVTDStep cfg alloc)^[k] (.start r.side))
  refine ⟨k, hstopV, ?_, ?_, ?_⟩
  · rw [← hV.asm, ← hP.asm, ← hasm]
    exact hsame.packets
  · rw [← hV.good, ← hP.good, ← hgood]
    exact hsame.count
  · rw [← hV.next, ← hP.next, ← hnext]
    exact hsame.next

/-- A lap of completed descriptors with too few packets keeps the mapped loop going. -/
theorem SameRounds.lap {k : ℕ} (h : SameRounds cfg alloc maxCount r k)
    (hreach : rxReach cfg alloc maxCount r.side = kNumRxDesc) :
    maxCount ≤ goodAfter 0x3fff cfg.maxCopySize alloc r.side kNumRxDesc := by
  have hown : (rxAt r.side k).own = false := by
    have hlt : k % kNumRxDesc < rxReach cfg alloc maxCount r.side := by
      rw [hreach]
      exact Nat.mod_lt _ (by decide)
    have hidx : rxIndex r.side (k % kNumRxDesc) = rxIndex r.side k := Nat.add_mod_mod _ _ _
    rw [rxAt, ← hidx]
    exact (goOn_of_lt_rxReach hlt).1
  have htest := h.stops.2
  rw [rxGoOn_vtd cfg alloc r.index_lt, hown, h.count, hreach] at htest
  simpa using htest

/-- A long buffer the mapped loop takes is the last of its frame. -/
theorem ChipRing.last_of_long (r : ChipRing cfg) {k : ℕ} (hown : (rxAt r.side k).own = false)
    (hlong : 8192 ≤ rxLen 0x3fff (rxAt r.side k)) (hres : (rxAt r.side k).opts1 &&& rxRES = 0) :
    (rxAt r.side k).opts1 &&& lastFrag ≠ 0 := by
  intro hmore
  have hfits := r.fits _ (rxIndex_lt r.side k) hown hres
  have hfull := r.full _ (rxIndex_lt r.side k) hown hres hmore
  rw [rxAt] at hlong
  unfold kMaxPacketSize at hfits
  rcases r.page with hpage | hpage <;> omega

/-- While the bodies agree, the mapped loop goes as far as the plain one. -/
theorem SameRounds.lt_of_agrees {k : ℕ} (h : SameRounds cfg alloc maxCount r k) {j : ℕ}
    (hj : j < rxReach cfg alloc maxCount r.side) (hbefore : ∀ i < j, Agrees cfg alloc r.side i) :
    j < k := by
  by_contra hkj
  rw [Nat.not_lt] at hkj
  obtain ⟨hown, hcount⟩ := goOn_of_lt_rxReach (hkj.trans_lt hj)
  have hgood := (asmAfter_eq fun i hi => hbefore i (hi.trans_le hkj)).2
  have htest := h.stops.2
  rw [rxGoOn_vtd cfg alloc r.index_lt, hown, hgood, decide_eq_true hcount] at htest
  exact absurd htest (by decide)

/-- **The first long buffer that is taken shows**: in the packet handed up, or in the count. -/
theorem SameRounds.agrees {k : ℕ} (h : SameRounds cfg alloc maxCount r k) {j : ℕ}
    (hj : j < rxReach cfg alloc maxCount r.side) (hbefore : ∀ i < j, Agrees cfg alloc r.side i) :
    Agrees cfg alloc r.side j := by
  by_contra hnot
  obtain ⟨hlong, htakes⟩ := not_or.mp hnot
  rw [Nat.not_lt] at hlong
  rw [Bool.not_eq_false] at htakes
  have hres : (rxAt r.side j).opts1 &&& rxRES = 0 := by
    simp only [rxTakes, Bool.and_eq_true, beq_iff_eq] at htakes
    exact htakes.1.1
  have hlast := r.last_of_long (goOn_of_lt_rxReach hj).1 hlong hres
  have h13 : rxDelivers 0x1fff cfg.maxCopySize (rxAt r.side j) (alloc (r.side.seen + j)) = true := by
    rw [rxDelivers, htakes]
    simpa using hlast
  have hjk := h.lt_of_agrees hj hbefore
  cases h14 : rxDelivers 0x3fff cfg.maxCopySize (rxAt r.side j) (alloc (r.side.seen + j)) with
  | true =>
      -- both deliver: the header lengths differ by 8192
      obtain ⟨p13, henq13, hlen13⟩ := asmAfter_delivers hjk h13
      obtain ⟨p14, henq14, hlen14⟩ := asmAfter_delivers hj h14
      rw [(asmAfter_eq hbefore).1] at henq13 hlen13
      have hplace := congrArg (fun l => l[
        (asmAfter 0x3fff cfg.maxCopySize alloc r.side j).enqueued.length]?) h.packets
      simp only [List.getElem?_map, henq13, henq14, Option.map_some, Option.some.injEq,
        RxPacket.contents, Prod.mk.injEq] at hplace
      have hlen := hplace.2.1
      rw [hlen13, hlen14, rxLen_1fff] at hlen
      have := Nat.mod_lt (rxLen 0x3fff (rxAt r.side j)) (show 2 ^ 13 > 0 by decide)
      omega
  | false =>
      -- only the mapped loop delivers: it is one ahead from here on
      have hreach := rxReach_le cfg alloc maxCount r.side
      rcases Nat.lt_or_ge k (rxReach cfg alloc maxCount r.side) with hlt | hge
      · have hnext := h.next
        rcases Nat.lt_or_eq_of_le hreach with hlap | hlap
        · exact absurd (rxIndex_inj (hlt.trans hlap) hlap hnext) (by omega)
        · rw [hlap, show rxIndex r.side kNumRxDesc = rxIndex r.side 0 from Nat.add_mod_right _ _] at hnext
          exact absurd (rxIndex_inj (hlap ▸ hlt) (by decide) hnext) (by omega)
      · have hahead := goodAfter_lt hj h13 h14
        have hmono : goodAfter 0x1fff cfg.maxCopySize alloc r.side (rxReach cfg alloc maxCount r.side) ≤
            goodAfter 0x1fff cfg.maxCopySize alloc r.side k := goodAfter_mono hge
        have := h.count
        omega

/-- Where the bodies agree throughout, the mapped loop stops where the plain one stops. -/
theorem rxInterruptVTD_stopsAt_rxReach
    (hagree : ∀ k < rxReach cfg alloc maxCount r.side, Agrees cfg alloc r.side k)
    (hlap : rxReach cfg alloc maxCount r.side = kNumRxDesc →
      maxCount ≤ goodAfter 0x3fff cfg.maxCopySize alloc r.side kNumRxDesc) :
    StopsAt (rxGoOn maxCount) (rxInterruptVTDStep cfg alloc) (.start r.side)
      (rxReach cfg alloc maxCount r.side) := by
  refine ⟨fun j hj => ?_, ?_⟩
  · rw [rxGoOn_vtd cfg alloc r.index_lt, (asmAfter_eq fun i hi => hagree i (hi.trans hj)).2]
    simpa using goOn_of_lt_rxReach hj
  · rw [rxGoOn_vtd cfg alloc r.index_lt, (asmAfter_eq hagree).2]
    rcases Nat.lt_or_eq_of_le (rxReach_le cfg alloc maxCount r.side) with hlt | heq
    · exact stop_at_rxReach hlt
    · rw [heq, decide_eq_false (Nat.not_lt.mpr (hlap heq)), Bool.and_false]

/-- Where the bodies agree and the loop stops in time, the outcomes are the same. -/
theorem refines_of_agrees
    (hagree : ∀ k < rxReach cfg alloc maxCount r.side, Agrees cfg alloc r.side k)
    (hlap : rxReach cfg alloc maxCount r.side = kNumRxDesc →
      maxCount ≤ goodAfter 0x3fff cfg.maxCopySize alloc r.side kNumRxDesc) :
    Refines cfg alloc maps maxCount r := by
  set n := rxReach cfg alloc maxCount r.side
  have hstopV := rxInterruptVTD_stopsAt_rxReach hagree hlap
  have hP := (rxInterruptStep_iterate cfg alloc r.index_lt (rxReach_le cfg alloc maxCount r.side)).1
  have hV := (rxInterruptVTDStep_iterate cfg alloc r.index_lt n).1
  obtain ⟨hasm, hnext, hgood, _⟩ := rxRemap_frame cfg maps
    ((rxInterruptVTDStep cfg alloc)^[n] (.start r.side))
  obtain ⟨hsame, hsameGood⟩ := asmAfter_eq hagree
  have hasms : (rxRemap cfg maps ((rxInterruptVTDStep cfg alloc)^[n] (.start r.side))).side.asm =
      ((rxInterruptStep cfg alloc)^[n] (.start r.side)).side.asm := by
    rw [hasm, hV.asm, hP.asm, hsame]
  refine ⟨n, (rxInterruptStep cfg alloc)^[n] (.start r.side),
    rxRemap cfg maps ((rxInterruptVTDStep cfg alloc)^[n] (.start r.side)), ?_, ?_, ?_⟩
  · exact whileFuel_eq_some_iff.mpr
      ⟨n, le_refl n, rxInterrupt_stopsAt_rxReach r.index_lt, rfl⟩
  · rw [rxInterruptVTD, whileFuel_eq_some_iff.mpr ⟨n, le_refl n, hstopV, rfl⟩, Option.map_some]
  · exact ⟨by rw [hasms], by rw [hgood, hV.good, hP.good, hsameGood],
      by rw [hnext, hV.next, hP.next], by rw [hasms], by rw [hasms], by rw [hasms]⟩

end Outcome

/-- **The mapped receive path refines the plain one exactly when** none of the descriptors the plain
loop handles is a buffer of 8192 bytes or more that the mapped loop takes, and the plain loop does
not go through the whole ring with fewer than `maxCount` packets. -/
theorem rxInterruptVTD_refines_iff (cfg : RxConfig) (alloc : ℕ → Alloc) (maps : ℕ → MapResult)
    (maxCount : ℕ) (r : ChipRing cfg) :
    (∃ fuel p v, rxInterrupt cfg alloc maxCount fuel r.side = some p ∧
      rxInterruptVTD cfg alloc maps maxCount fuel r.side = some v ∧ SameOutcome p v) ↔
    (∀ k < rxReach cfg alloc maxCount r.side, 8192 ≤ rxLen 0x3fff (rxAt r.side k) →
      rxTakes 0x1fff cfg.maxCopySize (rxAt r.side k) (alloc (r.side.seen + k)) = false) ∧
    (rxReach cfg alloc maxCount r.side = kNumRxDesc →
      maxCount ≤ goodAfter 0x3fff cfg.maxCopySize alloc r.side kNumRxDesc) := by
  constructor
  · intro h
    obtain ⟨k, hrounds⟩ := Refines.sameRounds h
    refine ⟨fun j hj hlong => ?_, hrounds.lap⟩
    have hagree : ∀ i ≤ j, Agrees cfg alloc r.side i := by
      intro i
      induction i using Nat.strong_induction_on with
      | _ i ih => exact fun hi => hrounds.agrees (hi.trans_lt hj) fun m hm => ih m hm (by omega)
    exact (hagree j (le_refl j)).resolve_left (Nat.not_lt.mpr hlong)
  · rintro ⟨hshort, hlap⟩
    refine refines_of_agrees (fun k hk => ?_) hlap
    exact (Nat.lt_or_ge (rxLen 0x3fff (rxAt r.side k)) 8192).imp id (hshort k hk)

/-! ### A jumbo frame -/

/-- A 9018-byte frame in one buffer. -/
def jumboDesc : RxDesc := ⟨firstFrag ||| lastFrag ||| 9018, 0, 0⟩

/-- What holds of its descriptor holds of all the chip has written, where that is the only one. -/
theorem written_jumboDesc {P : RxDesc → Prop} (hjumbo : P jumboDesc) (i : ℕ)
    (hown : (if i = 0 then jumboDesc else armedDesc 16384 i i).own = false) :
    P (if i = 0 then jumboDesc else armedDesc 16384 i i) := by
  by_cases hi : i = 0
  · rw [if_pos hi]
    exact hjumbo
  · rw [if_neg hi, armedDesc_own] at hown
    cases hown

/-- The jumbo frame waits at index 0; the chip owns the other descriptors. -/
def jumboRing : ChipRing page16k where
  side := sideWith fun i => if i = 0 then jumboDesc else armedDesc 16384 i i
  index_lt := by decide
  page := Or.inr rfl
  fits i _ := written_jumboDesc
    (P := fun d => d.opts1 &&& rxRES = 0 → rxLen 0x3fff d ≤ kMaxPacketSize) (by decide) i
  full i _ := written_jumboDesc
    (P := fun d => d.opts1 &&& rxRES = 0 → d.opts1 &&& lastFrag = 0 → rxLen 0x3fff d = 16384) (by decide) i

theorem jumbo_frame_cut_short :
    ¬ ∃ fuel p v, rxInterrupt page16k (fun _ => .single) kNumRxDesc fuel jumboRing.side = some p ∧
      rxInterruptVTD page16k (fun _ => .single) (fun _ => .segs some) kNumRxDesc fuel jumboRing.side =
        some v ∧ SameOutcome p v := by
  intro h
  obtain ⟨k, hrounds⟩ := Refines.sameRounds h
  have hagree := hrounds.agrees (j := 0) (by decide +kernel) (fun i hi => absurd hi (Nat.not_lt_zero i))
  rcases hagree with hshort | hnot
  · exact absurd hshort (by decide)
  · exact absurd hnot (by decide)

end Rtl812x.Kext
