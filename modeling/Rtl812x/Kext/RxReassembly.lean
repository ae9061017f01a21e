import Mathlib.Algebra.BigOperators.Ring.Finset
import Mathlib.Algebra.Order.Ring.Int
import Mathlib.Data.List.Nodup
import Rtl812x.Kext.RxHandle

/-!
# Putting frames together

What the loop body keeps from one descriptor to the next, and what it makes of a whole frame.

* `Owned` — each mbuf has one owner: the mbufs of the receive buffers are distinct, and none of them
  is on the chain of the frame being put together; `rxHandle_owned` — **the loop body keeps it**;
* `HoldsFrame s ds` — the chain holds the buffers `ds`; a further buffer extends it
  (`Linked.holdsFrame`), a last buffer with no more than the FCS shortens it
  (`Shortened.holdsFrame`);
* `framePayload` — the bytes of a frame without the FCS; `handlePkt_last` — **that is what a
  completed frame is passed on with**.
-/

namespace Rtl812x.Kext

open RxAssembly

/-! ### Who owns an mbuf -/

/-- The mbufs of the receive buffers are allocated and distinct, those of the chain too, and no mbuf
is in both. -/
structure Owned (s : RxAssembly) : Prop where
  buf_lt : ∀ i < kNumRxDesc, s.bufMbuf i < s.nextMbuf
  buf_inj : ∀ i < kNumRxDesc, ∀ j < kNumRxDesc, s.bufMbuf i = s.bufMbuf j → i = j
  chain_lt : ∀ m ∈ s.rxPacket, m < s.nextMbuf
  chain_nodup : s.rxPacket.Nodup
  chain_buf : ∀ m ∈ s.rxPacket, ∀ i < kNumRxDesc, s.bufMbuf i ≠ m

section Offered

variable {s s' : RxAssembly} {i len newPkt : ℕ}

theorem Offered.newPkt_lt (h : Offered s s' i len newPkt) (hs : Owned s) (hi : i < kNumRxDesc) :
    newPkt < s'.nextMbuf := by
  have := hs.buf_lt i hi
  rw [h.nextMbuf]
  rcases h.taken with ⟨rfl, _⟩ | ⟨rfl, _⟩ <;> omega

/-- The packet taken is not on the chain. -/
theorem Offered.newPkt_notMem (h : Offered s s' i len newPkt) (hs : Owned s) (hi : i < kNumRxDesc) :
    newPkt ∉ s'.rxPacket := by
  rw [h.rxPacket]
  intro hmem
  rcases h.taken with ⟨rfl, _⟩ | ⟨rfl, _⟩
  · exact hs.chain_buf _ hmem i hi rfl
  · exact absurd (hs.chain_lt _ hmem) (Nat.lt_irrefl _)

/-- The packet taken is no longer in a receive buffer. -/
theorem Offered.buf_ne (h : Offered s s' i len newPkt) (hs : Owned s) (hi : i < kNumRxDesc) :
    ∀ j < kNumRxDesc, s'.bufMbuf j ≠ newPkt := by
  intro j hj heq
  have hilt := hs.buf_lt i hi
  have hjlt := hs.buf_lt j hj
  by_cases hji : j = i
  · subst hji
    rcases h.taken with ⟨rfl, hnew⟩ | ⟨rfl, hold⟩ <;> omega
  · rw [h.bufMbuf j hji] at heq
    rcases h.taken with ⟨rfl, _⟩ | ⟨rfl, _⟩
    · exact hji (hs.buf_inj j hj i hi heq)
    · omega

theorem Offered.buf_lt (h : Offered s s' i len newPkt) (hs : Owned s) :
    ∀ j < kNumRxDesc, s'.bufMbuf j < s'.nextMbuf := by
  intro j hj
  have hjlt := hs.buf_lt j hj
  rw [h.nextMbuf]
  by_cases hji : j = i
  · subst hji
    rcases h.taken with ⟨_, hnew⟩ | ⟨_, hold⟩ <;> omega
  · rw [h.bufMbuf j hji]
    omega

/-- The mbuf of buffer `i` is the old one or a new one, so different from that of every other. -/
theorem Offered.buf_ne_of_ne (h : Offered s s' i len newPkt) (hs : Owned s) (hi : i < kNumRxDesc)
    {j : ℕ} (hj : j < kNumRxDesc) (hji : j ≠ i) : s'.bufMbuf j ≠ s'.bufMbuf i := by
  have hjlt := hs.buf_lt j hj
  rw [h.bufMbuf j hji]
  rcases h.taken with ⟨_, hnew⟩ | ⟨_, hold⟩
  · omega
  · rw [hold]
    exact fun he => hji (hs.buf_inj j hj i hi he)

theorem Offered.owned (h : Offered s s' i len newPkt) (hs : Owned s) (hi : i < kNumRxDesc) :
    Owned s' where
  buf_lt := h.buf_lt hs
  buf_inj := by
    intro j hj k hk heq
    by_cases hji : j = i
    · by_contra hne
      subst hji
      exact h.buf_ne_of_ne hs hi hk (Ne.symm hne) heq.symm
    · by_cases hki : k = i
      · subst hki
        exact absurd heq (h.buf_ne_of_ne hs hi hj hji)
      · rw [h.bufMbuf j hji, h.bufMbuf k hki] at heq
        exact hs.buf_inj j hj k hk heq
  chain_lt := by
    intro m hm
    rw [h.rxPacket] at hm
    have := hs.chain_lt m hm
    rw [h.nextMbuf]
    omega
  chain_nodup := by
    rw [h.rxPacket]
    exact hs.chain_nodup
  chain_buf := by
    intro m hm j hj heq
    rw [h.rxPacket] at hm
    have hmlt := hs.chain_lt m hm
    by_cases hji : j = i
    · subst hji
      rcases h.taken with ⟨_, hnew⟩ | ⟨_, hold⟩
      · omega
      · exact hs.chain_buf m hm j hj (hold ▸ heq)
    · rw [h.bufMbuf j hji] at heq
      exact hs.chain_buf m hm j hj heq

end Offered

/-- What has the mbufs of `s` in the receive buffers and an empty chain is owned if `s` is. -/
theorem Owned.cleared {s t : RxAssembly} (hs : Owned s) (hbuf : t.bufMbuf = s.bufMbuf)
    (hnext : s.nextMbuf ≤ t.nextMbuf) (hchain : t.rxPacket = []) : Owned t where
  buf_lt := fun i hi => hbuf ▸ (hs.buf_lt i hi).trans_le hnext
  buf_inj := by
    rw [hbuf]
    exact hs.buf_inj
  chain_lt := fun m hm => absurd hm (by rw [hchain]; exact List.not_mem_nil)
  chain_nodup := by
    rw [hchain]
    exact List.nodup_nil
  chain_buf := fun m hm => absurd hm (by rw [hchain]; exact List.not_mem_nil)

theorem Linked.owned {s t : RxAssembly} {newPkt : ℕ} {len : ℤ} (h : Linked s t newPkt len)
    (hs : Owned s) (hlt : newPkt < s.nextMbuf) (hnew : newPkt ∉ s.rxPacket)
    (hbuf : ∀ j < kNumRxDesc, s.bufMbuf j ≠ newPkt) : Owned t where
  buf_lt := by
    rw [h.bufMbuf, h.nextMbuf]
    exact hs.buf_lt
  buf_inj := by
    rw [h.bufMbuf]
    exact hs.buf_inj
  chain_lt := by
    rw [h.rxPacket, h.nextMbuf]
    intro m hm
    rcases List.mem_append.mp hm with hm | hm
    · exact hs.chain_lt m hm
    · rwa [List.mem_singleton.mp hm]
  chain_nodup := by
    rw [h.rxPacket]
    exact hs.chain_nodup.append (List.nodup_singleton _)
      (List.disjoint_singleton.mpr hnew)
  chain_buf := by
    rw [h.rxPacket, h.bufMbuf]
    intro m hm
    rcases List.mem_append.mp hm with hm | hm
    · exact hs.chain_buf m hm
    · rw [List.mem_singleton.mp hm]
      exact hbuf

/-- **The loop body keeps one owner for each mbuf**, whatever the descriptor and the allocation. -/
theorem rxHandle_owned {s : RxAssembly} (hs : Owned s) {i : ℕ} (hi : i < kNumRxDesc) (lenMask : UInt32)
    (maxCopySize : ℕ) (d : RxDesc) (a : Alloc) :
    Owned (rxHandle lenMask maxCopySize i d a s).asm := by
  cases htakes : rxTakes lenMask maxCopySize d a with
  | false =>
      have hdrop := (rxHandle_dropped htakes i s).2
      exact hs.cleared hdrop.bufMbuf hdrop.nextMbuf hdrop.rxPacket
  | true =>
      obtain ⟨newPkt, s', hoff, hasm⟩ := rxHandle_taken htakes i s
      rw [hasm]
      by_cases hlast : d.opts1 &&& lastFrag = 0
      · exact (handlePkt_linked hlast newPkt _ _ s').owned (hoff.owned hs hi) (hoff.newPkt_lt hs hi)
          (hoff.newPkt_notMem hs hi) (hoff.buf_ne hs hi)
      · obtain ⟨pkt, hpass, _⟩ := handlePkt_passedOn hlast newPkt (rxLen lenMask d) d.opts2 s'
        exact (hoff.owned hs hi).cleared hpass.bufMbuf (le_of_eq hpass.nextMbuf.symm) hpass.rxPacket

/-- The other receive buffers keep their mbufs, and those their bytes. -/
theorem rxHandle_others {s : RxAssembly} (hs : Owned s) (i : ℕ) (lenMask : UInt32) (maxCopySize : ℕ)
    (d : RxDesc) (a : Alloc) {j : ℕ} (hj : j < kNumRxDesc) (hji : j ≠ i) :
    (rxHandle lenMask maxCopySize i d a s).asm.bufMbuf j = s.bufMbuf j ∧
    ((rxHandle lenMask maxCopySize i d a s).asm.mbuf (s.bufMbuf j)).data =
      (s.mbuf (s.bufMbuf j)).data := by
  have hjlt := hs.buf_lt j hj
  cases htakes : rxTakes lenMask maxCopySize d a with
  | false =>
      have hdrop := (rxHandle_dropped htakes i s).2
      exact ⟨by rw [hdrop.bufMbuf], by rw [hdrop.old _ hjlt]⟩
  | true =>
      obtain ⟨newPkt, s', hoff, hasm⟩ := rxHandle_taken htakes i s
      rw [hasm, ← hoff.old _ hjlt]
      by_cases hlast : d.opts1 &&& lastFrag = 0
      · have hlink := handlePkt_linked hlast newPkt (rxLen lenMask d) d.opts2 s'
        exact ⟨by rw [hlink.bufMbuf, hoff.bufMbuf j hji], hlink.data _⟩
      · obtain ⟨pkt, hpass, _⟩ := handlePkt_passedOn hlast newPkt (rxLen lenMask d) d.opts2 s'
        exact ⟨by rw [hpass.bufMbuf, hoff.bufMbuf j hji], hpass.data _⟩

/-! ### A frame on the chain -/

/-- The chain holds the buffers `ds`, each with its length, and `rxPacketSize` is their total. -/
structure HoldsFrame (s : RxAssembly) (ds : List (List UInt8)) : Prop where
  bytes : s.rxPacket.map (fun m => (s.mbuf m).bytes) = ds
  size : s.rxPacketSize = ds.flatten.length
  lens : ∀ m ∈ s.rxPacket, (s.mbuf m).len = (s.mbuf m).bytes.length

theorem HoldsFrame.nil {s : RxAssembly} (hchain : s.rxPacket = []) (hsize : s.rxPacketSize = 0) :
    HoldsFrame s [] := by
  refine ⟨by rw [hchain]; rfl, by rw [hsize]; rfl, fun m hm => ?_⟩
  rw [hchain] at hm
  exact absurd hm List.not_mem_nil

theorem HoldsFrame.sizeSoFar {s : RxAssembly} {ds : List (List UInt8)} (h : HoldsFrame s ds) :
    Kext.sizeSoFar s = ds.flatten.length := by
  rw [Kext.sizeSoFar]
  split
  case isTrue hnil => rw [← h.bytes, hnil]; rfl
  case isFalse => exact h.size

/-- A chain whose mbufs have not changed holds the same frame. -/
theorem HoldsFrame.congr {s t : RxAssembly} {ds : List (List UInt8)} (h : HoldsFrame s ds)
    (hchain : t.rxPacket = s.rxPacket) (hsize : t.rxPacketSize = s.rxPacketSize)
    (hmbuf : ∀ m ∈ s.rxPacket, t.mbuf m = s.mbuf m) : HoldsFrame t ds := by
  refine ⟨?_, by rw [hsize, h.size], fun m hm => ?_⟩
  · rw [hchain, ← h.bytes]
    exact List.map_congr_left fun m hm => by rw [hmbuf m hm]
  · rw [hchain] at hm
    rw [hmbuf m hm]
    exact h.lens m hm

theorem Mbuf.bytes_length {m : Mbuf} {d : List UInt8} {n : ℕ} (hlen : m.len = n)
    (hdata : m.data.take n = d) : m.bytes = d := by
  rw [Mbuf.bytes, hlen, Int.toNat_natCast, hdata]

/-- **A further buffer** goes behind the ones the frame has. -/
theorem Linked.holdsFrame {s t : RxAssembly} {newPkt n : ℕ} {ds : List (List UInt8)} {d : List UInt8}
    (h : Linked s t newPkt n) (hs : HoldsFrame s ds) (hnew : newPkt ∉ s.rxPacket)
    (hdata : (s.mbuf newPkt).data.take n = d) (hlen : d.length = n) : HoldsFrame t (ds ++ [d]) := by
  have hnewBytes : (t.mbuf newPkt).bytes = d :=
    Mbuf.bytes_length h.len_new (by rw [h.data, hdata])
  have hold : ∀ m ∈ s.rxPacket, (t.mbuf m).bytes = (s.mbuf m).bytes ∧
      (t.mbuf m).len = (s.mbuf m).len := by
    intro m hm
    have hne : m ≠ newPkt := fun he => hnew (he ▸ hm)
    exact ⟨by rw [Mbuf.bytes, Mbuf.bytes, h.data, h.len_old m hne], h.len_old m hne⟩
  refine ⟨?_, ?_, ?_⟩
  · rw [h.rxPacket, List.map_append, List.map_singleton, hnewBytes, ← hs.bytes]
    exact congrArg (· ++ [d]) (List.map_congr_left fun m hm => (hold m hm).1)
  · rw [h.rxPacketSize, hs.sizeSoFar, List.flatten_append, List.length_append]
    simp [hlen]
  · intro m hm
    rw [h.rxPacket] at hm
    rcases List.mem_append.mp hm with hm | hm
    · rw [(hold m hm).1, (hold m hm).2]
      exact hs.lens m hm
    · rw [List.mem_singleton.mp hm, hnewBytes, h.len_new, hlen]

/-- **The rest of the FCS goes** with the last buffer: `k` bytes at the end of the chain. -/
theorem Shortened.holdsFrame {s t : RxAssembly} {tail k : ℕ} {ds : List (List UInt8)} {x : List UInt8}
    (h : Shortened s t tail (-k)) (hs : HoldsFrame s (ds ++ [x])) (hnodup : s.rxPacket.Nodup)
    (htail : s.rxPacketTail = some tail) (hk : k ≤ x.length) :
    HoldsFrame t (ds ++ [x.take (x.length - k)]) := by
  obtain ⟨front, hfront⟩ := List.getLast?_eq_some_iff.mp htail
  have hne : ∀ m ∈ front, m ≠ tail := by
    rw [hfront] at hnodup
    intro m hm he
    exact List.disjoint_singleton.mp (List.disjoint_of_nodup_append hnodup) (he ▸ hm)
  have hbytes := hs.bytes
  rw [hfront, List.map_append, List.map_singleton] at hbytes
  obtain ⟨hds, hx⟩ := List.append_inj' hbytes rfl
  rw [List.singleton_inj] at hx
  have hlenTail : (s.mbuf tail).len = x.length := by
    rw [hs.lens tail (by rw [hfront]; exact List.mem_append_right _ (List.mem_singleton_self _)), hx]
  have htake : (s.mbuf tail).data.take x.length = x := by
    rw [← hx, Mbuf.bytes, hlenTail]
    simp
  have htailLen : (t.mbuf tail).len = ((x.length - k : ℕ) : ℤ) := by
    rw [h.len_tail, hlenTail]
    omega
  have htailBytes : (t.mbuf tail).bytes = x.take (x.length - k) := by
    refine Mbuf.bytes_length htailLen ?_
    rw [h.data, ← htake, List.take_take, htake, Nat.min_eq_left (Nat.sub_le _ _)]
  have hold : ∀ m ∈ front, (t.mbuf m).bytes = (s.mbuf m).bytes := by
    intro m hm
    rw [Mbuf.bytes, Mbuf.bytes, h.data, h.len_old m (hne m hm)]
  refine ⟨?_, ?_, ?_⟩
  · rw [h.rxPacket, hfront, List.map_append, List.map_singleton, htailBytes, ← hds]
    exact congrArg (· ++ [x.take (x.length - k)]) (List.map_congr_left hold)
  · rw [h.rxPacketSize, hs.size]
    simp only [List.flatten_append, List.flatten_singleton, List.length_append, List.length_take]
    omega
  · intro m hm
    rw [h.rxPacket, hfront] at hm
    rcases List.mem_append.mp hm with hm | hm
    · rw [hold m hm, h.len_old m (hne m hm)]
      exact hs.lens m (by rw [hfront]; exact List.mem_append_left _ hm)
    · rw [List.mem_singleton.mp hm, htailBytes, htailLen, List.length_take]
      omega

/-! ### A complete frame -/

/-- The bytes of a frame without the FCS. -/
def framePayload (ds : List (List UInt8)) : List UInt8 := ds.flatten.take (ds.flatten.length - 4)

/-- More than the FCS in the last buffer: it loses the FCS. -/
theorem framePayload_snoc {ds : List (List UInt8)} {d : List UInt8} (hd : 4 ≤ d.length) :
    (ds ++ [d.take (d.length - 4)]).flatten = framePayload (ds ++ [d]) := by
  simp only [framePayload, List.flatten_append, List.flatten_singleton, List.length_append]
  rw [Nat.add_sub_assoc hd, List.take_length_add_append]

/-- No more than the FCS in the last buffer: it goes, and the one before loses the rest. -/
theorem framePayload_snoc_snoc {ds : List (List UInt8)} {x d : List UInt8} (hd : d.length ≤ 4)
    (hx : 4 ≤ x.length) :
    (ds ++ [x.take (x.length - (4 - d.length))]).flatten = framePayload (ds ++ [x] ++ [d]) := by
  simp only [framePayload, List.flatten_append, List.flatten_singleton, List.length_append,
    List.append_assoc]
  rw [show ds.flatten.length + (x.length + d.length) - 4 =
      ds.flatten.length + (x.length - (4 - d.length)) by omega,
    List.take_length_add_append, List.take_append_of_le_length (Nat.sub_le _ _)]

/-- The lengths of a chain that holds a frame add up to its bytes. -/
theorem HoldsFrame.lens_sum {s : RxAssembly} {ds : List (List UInt8)} (h : HoldsFrame s ds) :
    (s.rxPacket.map fun m => (s.mbuf m).len).sum = ds.flatten.length := by
  have hlens : (s.rxPacket.map fun m => (s.mbuf m).len) =
      (s.rxPacket.map fun m => (s.mbuf m).bytes.length).map Nat.cast := by
    rw [List.map_map]
    exact List.map_congr_left h.lens
  rw [hlens, ← Nat.cast_list_sum, ← List.length_flatMap, List.flatMap_def, h.bytes]

/-- A packet with the bytes `bs`: its mbuf lengths add up to them, and its header says so. -/
structure RxPacket.Carries (pkt : RxPacket) (bs : List UInt8) : Prop where
  bytes : pkt.bytes = bs
  lens : pkt.lens.sum = bs.length
  pktHdrLen : pkt.pktHdrLen = bs.length

/-- A chain that holds a frame is passed on as its bytes. -/
theorem passOn_holdsFrame {s : RxAssembly} {ds : List (List UInt8)} (h : HoldsFrame s ds) (newPkt : ℕ)
    (status1 status2 : UInt32) :
    ∃ pkt, PassedOn s (passOn newPkt status1 status2 s) pkt ∧ pkt.Carries ds.flatten := by
  obtain ⟨pkt, hpass, hlens, hbytes, hlen⟩ := passOn_spec newPkt status1 status2 s
  refine ⟨pkt, hpass, ?_, ?_, ?_⟩
  · rw [hbytes, ← h.bytes, List.flatMap_def]
  · rw [hlens, h.lens_sum]
  · rw [hlen, h.size]

section Last

variable {s : RxAssembly} {ds : List (List UInt8)} {d : List UInt8} {newPkt : ℕ}
  {status1 status2 : UInt32}

/-- The last buffer holds more than the FCS, or is the only one. -/
theorem passOn_linked (hs : HoldsFrame s ds) (hnew : newPkt ∉ s.rxPacket)
    (hdata : (s.mbuf newPkt).data.take d.length = d) (hlong : 4 < d.length ∨ s.rxPacket = [])
    (hfour : 4 ≤ d.length) :
    ∃ pkt, PassedOn s (passOn newPkt status1 status2
        (addLastFragment newPkt (d.length - kIOEthernetCRCSize) s)) pkt ∧
      pkt.Carries (framePayload (ds ++ [d])) := by
  have hsub : (d.length : ℤ) - kIOEthernetCRCSize = ((d.length - 4 : ℕ) : ℤ) := by
    simp only [kIOEthernetCRCSize]
    omega
  have hcut : (s.mbuf newPkt).data.take (d.length - 4) = d.take (d.length - 4) :=
    calc (s.mbuf newPkt).data.take (d.length - 4)
        = ((s.mbuf newPkt).data.take d.length).take (d.length - 4) := by
          rw [List.take_take, Nat.min_eq_left (Nat.sub_le _ _)]
      _ = d.take (d.length - 4) := by rw [hdata]
  rw [hsub]
  have hlink := addLastFragment_linked newPkt
    (hlong.imp (fun h => show (0 : ℤ) < ((d.length - 4 : ℕ) : ℤ) by omega) id)
  have hholds := hlink.holdsFrame hs hnew hcut
    (by rw [List.length_take, Nat.min_eq_left (Nat.sub_le _ _)])
  obtain ⟨pkt, hpass, hcarries⟩ := passOn_holdsFrame hholds newPkt status1 status2
  rw [framePayload_snoc hfour] at hcarries
  exact ⟨pkt, hpass.of_added hlink.enqueued hlink.bufMbuf hlink.nextMbuf hlink.data, hcarries⟩

/-- The last buffer holds no more than the FCS, and there is one before it. -/
theorem passOn_shortened {x : List UInt8} (hs : HoldsFrame s (ds ++ [x])) (hnodup : s.rxPacket.Nodup)
    (hne : s.rxPacket ≠ []) (hshort : d.length ≤ 4) (hx : 4 ≤ x.length) :
    ∃ pkt, PassedOn s (passOn newPkt status1 status2
        (addLastFragment newPkt (d.length - kIOEthernetCRCSize) s)) pkt ∧
      pkt.Carries (framePayload (ds ++ [x] ++ [d])) := by
  obtain ⟨tail, htail⟩ := Option.ne_none_iff_exists'.mp
    (show s.rxPacketTail ≠ none from fun h => hne (List.getLast?_eq_none_iff.mp h))
  have hsub : (d.length : ℤ) - kIOEthernetCRCSize = -((4 - d.length : ℕ) : ℤ) := by
    simp only [kIOEthernetCRCSize]
    omega
  rw [hsub]
  have hcut := addLastFragment_shortened newPkt
    (show ¬ (0 : ℤ) < -((4 - d.length : ℕ) : ℤ) by omega) htail
  have hholds := hcut.holdsFrame hs hnodup htail (by omega)
  obtain ⟨pkt, hpass, hcarries⟩ := passOn_holdsFrame hholds newPkt status1 status2
  rw [framePayload_snoc_snoc hshort hx] at hcarries
  exact ⟨pkt, hpass.of_added hcut.enqueued hcut.bufMbuf hcut.nextMbuf hcut.data, hcarries⟩

/-- **A completed frame is passed on as its bytes without the FCS.** -/
theorem handlePkt_last (status2 : UInt32) (hs : HoldsFrame s ds) (hnodup : s.rxPacket.Nodup)
    (hnew : newPkt ∉ s.rxPacket) (hlast : status1 &&& lastFrag ≠ 0)
    (hdata : (s.mbuf newPkt).data.take d.length = d) (htotal : 4 ≤ ds.flatten.length + d.length)
    (hfull : ∀ x ∈ ds, 4 ≤ x.length) :
    ∃ pkt, PassedOn s (handlePkt newPkt d.length status1 status2 s) pkt ∧
      pkt.Carries (framePayload (ds ++ [d])) := by
  rw [handlePkt, if_pos (by simpa using hlast)]
  by_cases hlong : 4 < d.length ∨ s.rxPacket = []
  · have hfour : 4 ≤ d.length := by
      rcases hlong with h | h
      · omega
      · rw [← hs.bytes, h] at htotal
        simpa using htotal
    exact passOn_linked hs hnew hdata hlong hfour
  · obtain ⟨hshort, hne⟩ := not_or.mp hlong
    rcases List.eq_nil_or_concat ds with h | ⟨front, x, h⟩
    · rw [← hs.bytes, List.map_eq_nil_iff] at h
      exact absurd h hne
    · rw [List.concat_eq_append] at h
      subst h
      exact passOn_shortened hs hnodup hne (by omega)
        (hfull x (List.mem_append_right _ (List.mem_singleton_self x)))

end Last

end Rtl812x.Kext
