import Rtl812x.Kext.RxBuffers
import Rtl812x.Lib.Trace

/-!
# What the receive path writes to which mbuf

At the last buffer of a frame, `rxInterrupt` and `rxInterruptVTD` have `getChecksumResult` note the
checksum flags of the descriptor, set the VLAN tag and the length of the packet, and pass the frame on.
The tag and the length go to `rxPacketHead`; the flags go to `newPkt`.  That is the head if the frame
has one buffer.  If it has more, `newPkt` is the last buffer of the chain, or, where that buffer holds
no more than the FCS, an mbuf that was freed a few lines before.

This module follows one packet from `handle_pkt` on.

* `RxAssembly.Live` — no mbuf was written after it was freed (`noWriteAfterFree_iff`);
* `handlePkt_live` — **when the handling of a packet writes to a freed mbuf**;
* `readyToPassOn_csum`, `handlePkt_csum` — **whose flags the packet that is passed on has**.
-/

namespace Rtl812x.Kext

open RxAssembly Trace

/-! ### Writes and frees -/

/-- The mbuf an event writes to. -/
def RxEvent.written : RxEvent → List ℕ
  | .write m => [m]
  | _ => []

/-- The mbufs an event frees. -/
def RxEvent.freed : RxEvent → List ℕ
  | .free ms => ms
  | _ => []

/-- No mbuf is written after it was freed. -/
def NoWriteAfterFree (trace : List RxEvent) : Prop :=
  ∀ before m later, trace = before ++ .write m :: later → m ∉ before.flatMap RxEvent.freed

/-- The mbufs freed so far. -/
def RxAssembly.freed (s : RxAssembly) : List ℕ := s.trace.flatMap RxEvent.freed

/-- The scan of the record. -/
def RxAssembly.Live (s : RxAssembly) : Prop := LiveUses RxEvent.written RxEvent.freed [] s.trace

theorem noWriteAfterFree_iff {trace : List RxEvent} :
    NoWriteAfterFree trace ↔ LiveUses RxEvent.written RxEvent.freed [] trace := by
  rw [liveUses_iff]
  constructor
  · intro h before e later htrace x hx
    rw [List.nil_append]
    cases e with
    | write m =>
        rw [List.mem_singleton.mp hx]
        exact h before m later htrace
    | free ms => cases hx
    | enqueue chain pkt => cases hx
  · intro h before m later htrace
    exact h before (.write m) later htrace m (List.mem_singleton_self m)

instance (trace : List RxEvent) : Decidable (NoWriteAfterFree trace) :=
  decidable_of_iff _ noWriteAfterFree_iff.symm

section Live

variable (m newPkt tail : ℕ) (ms : List ℕ) (pktSize : ℤ) (status1 status2 : UInt32) {s : RxAssembly}

theorem live_of_trace {t : RxAssembly} (e : RxEvent) (h : t.trace = s.trace ++ [e]) :
    (t.Live ↔ s.Live ∧ ∀ x ∈ e.written, x ∉ s.freed) ∧ t.freed = s.freed ++ e.freed := by
  constructor
  · rw [Live, h, liveUses_snoc]
    rfl
  · rw [freed, h, List.flatMap_append, List.flatMap_singleton]
    rfl

@[simp] theorem write_live (f : Mbuf → Mbuf) : (write m f s).Live ↔ s.Live ∧ m ∉ s.freed := by
  rw [(live_of_trace (s := s) (.write m) rfl).1]
  simp [RxEvent.written]

@[simp] theorem write_freed (f : Mbuf → Mbuf) : (write m f s).freed = s.freed := by
  rw [(live_of_trace (s := s) (.write m) rfl).2]
  exact List.append_nil _

@[simp] theorem mbufFree_live : (mbufFree ms s).Live ↔ s.Live := by
  rw [(live_of_trace (s := s) (.free ms) rfl).1]
  simp [RxEvent.written]

@[simp] theorem mbufFree_freed : (mbufFree ms s).freed = s.freed ++ ms :=
  (live_of_trace (s := s) (.free ms) rfl).2

@[simp] theorem discardPacketFragment_live : (discardPacketFragment s).Live ↔ s.Live := by
  by_cases h : s.rxPacket = []
  · have htrace : (discardPacketFragment s).trace = s.trace := if_pos h
    rw [Live, htrace, Live]
  · have htrace : (discardPacketFragment s).trace = s.trace ++ [.free s.rxPacket] := if_neg h
    rw [(live_of_trace _ htrace).1]
    simp [RxEvent.written]

theorem freed_sub_gone (s : RxAssembly) {m : ℕ} (h : m ∈ s.freed) : m ∈ s.gone := by
  obtain ⟨e, he, hm⟩ := List.mem_flatMap.mp h
  refine List.mem_flatMap.mpr ⟨e, he, ?_⟩
  cases e with
  | free ms => exact hm
  | write m => cases hm
  | enqueue chain pkt => cases hm

/-! ### A buffer more, and the end of a frame -/

theorem linkFragment_live (hnew : newPkt ∉ s.freed) (htail : tail ∉ s.freed) :
    ((linkFragment tail newPkt pktSize s).Live ↔ s.Live) ∧
      (linkFragment tail newPkt pktSize s).freed = s.freed := by
  show ((write tail id (mbufClearPktHdr newPkt (mbufSetLen newPkt pktSize s))).Live ↔ s.Live) ∧
    (write tail id (mbufClearPktHdr newPkt (mbufSetLen newPkt pktSize s))).freed = s.freed
  simp [mbufClearPktHdr, mbufSetLen, hnew, htail]

theorem startPacket_live (hnew : newPkt ∉ s.freed) :
    ((startPacket newPkt pktSize s).Live ↔ s.Live) ∧
      (startPacket newPkt pktSize s).freed = s.freed := by
  show ((mbufSetLen newPkt pktSize s).Live ↔ s.Live) ∧ (mbufSetLen newPkt pktSize s).freed = s.freed
  simp [mbufSetLen, hnew]

/-- `newPkt` was taken off its receive buffer: it is not on the chain, and neither it nor the mbufs of
the chain were freed. -/
structure Apart (newPkt : ℕ) (s : RxAssembly) : Prop where
  newPkt_freed : newPkt ∉ s.freed
  chain_freed : ∀ m ∈ s.rxPacket, m ∉ s.freed
  chain_ne : ∀ m ∈ s.rxPacket, m ≠ newPkt

variable {newPkt}

theorem addFragment_live (h : Apart newPkt s) : (addFragment newPkt pktSize s).Live ↔ s.Live := by
  unfold addFragment
  split
  case h_1 tail htail =>
    exact (linkFragment_live newPkt tail pktSize h.newPkt_freed
      (h.chain_freed tail (List.mem_of_getLast? htail))).1
  case h_2 => exact (startPacket_live newPkt pktSize h.newPkt_freed).1

/-- A last buffer is freed if there is a frame and it holds nothing but (a part of) the FCS. -/
theorem addLastFragment_live (h : Apart newPkt s) :
    ((addLastFragment newPkt pktSize s).Live ↔ s.Live) ∧
    (addLastFragment newPkt pktSize s).freed =
      s.freed ++ if s.rxPacket ≠ [] ∧ pktSize ≤ 0 then [newPkt] else [] := by
  unfold addLastFragment
  split
  case h_1 tail htail =>
    have hmem : tail ∈ s.rxPacket := List.mem_of_getLast? htail
    have hne : s.rxPacket ≠ [] := List.ne_nil_of_mem hmem
    by_cases hsize : 0 < pktSize
    · rw [if_pos hsize, if_neg (fun hc => absurd hc.2 (not_le.mpr hsize)), List.append_nil]
      exact linkFragment_live newPkt tail pktSize h.newPkt_freed (h.chain_freed tail hmem)
    · rw [if_neg hsize, if_pos ⟨hne, not_lt.mp hsize⟩]
      have hlive : tail ∉ s.freed ++ [newPkt] := by
        simp [h.chain_freed tail hmem, h.chain_ne tail hmem]
      show ((mbufAdjustLen tail pktSize (mbufFree [newPkt] s)).Live ↔ s.Live) ∧
        (mbufAdjustLen tail pktSize (mbufFree [newPkt] s)).freed = s.freed ++ [newPkt]
      rw [mbufAdjustLen, write_live, write_freed, mbufFree_live, mbufFree_freed]
      exact ⟨and_iff_left hlive, rfl⟩
  case h_2 htail =>
    have hnil : s.rxPacket = [] := List.getLast?_eq_none_iff.mp htail
    rw [if_neg (fun hc => hc.1 hnil), List.append_nil]
    exact startPacket_live newPkt pktSize h.newPkt_freed

/-- The flags `getChecksumResult` works out; without any it writes nothing. -/
def HasFlags (status1 status2 : UInt32) : Prop := (csumPerformed status1 status2).1 ≠ 0

instance (status1 status2 : UInt32) : Decidable (HasFlags status1 status2) :=
  inferInstanceAs (Decidable (_ ≠ _))

theorem getChecksumResult_eq (s : RxAssembly) : getChecksumResult newPkt status1 status2 s =
    if HasFlags status1 status2 then
      write newPkt (fun b => { b with csum := csumPerformed status1 status2 }) s
    else s := by
  unfold getChecksumResult
  by_cases h : HasFlags status1 status2
  · rw [if_pos h, if_pos (by simpa [HasFlags] using h)]
    rfl
  · rw [if_neg h, if_neg (by simpa [HasFlags] using h)]

theorem passOn_live (hhead : s.rxPacket.headD 0 ∉ s.freed) :
    (passOn newPkt status1 status2 s).Live ↔
      s.Live ∧ (HasFlags status1 status2 → newPkt ∉ s.freed) := by
  set t := getChecksumResult newPkt status1 status2 s with ht
  have hflags : (t.Live ↔ s.Live ∧ (HasFlags status1 status2 → newPkt ∉ s.freed)) ∧ t.freed = s.freed := by
    rw [ht, getChecksumResult_eq]
    by_cases h : HasFlags status1 status2
    · simp [h]
    · simp [h]
  have hchain : t.rxPacket = s.rxPacket := (getChecksumResult_sameChain _ _ _ _).rxPacket
  have htag : ((noteVlanTag status2 t).Live ↔ t.Live) ∧ (noteVlanTag status2 t).freed = t.freed := by
    unfold noteVlanTag
    split
    · rw [setVlanTag, write_live, write_freed, hchain, hflags.2]
      exact ⟨and_iff_left hhead, rfl⟩
    · exact ⟨Iff.rfl, rfl⟩
  have hready : (readyToPassOn newPkt status1 status2 s).Live ↔ t.Live := by
    rw [readyToPassOn, ← ht, mbufPktHdrSetLen, write_live, htag.1, htag.2,
      (noteVlanTag_sameChain status2 t).rxPacket, hchain, hflags.2]
    exact and_iff_left hhead
  have hpass : (passOn newPkt status1 status2 s).Live ↔ (readyToPassOn newPkt status1 status2 s).Live := by
    rw [(live_of_trace (s := readyToPassOn newPkt status1 status2 s)
      (t := passOn newPkt status1 status2 s) (.enqueue _ _) rfl).1]
    simp [RxEvent.written]
  rw [hpass, hready, hflags.1]

/-- The head of a frame is its first buffer. -/
theorem addLastFragment_head (s : RxAssembly) :
    (addLastFragment newPkt pktSize s).rxPacket.headD 0 =
      if s.rxPacket = [] then newPkt else s.rxPacket.headD 0 := by
  have hchain : (addLastFragment newPkt pktSize s).rxPacket = s.rxPacket ++ [newPkt] ∨
      s.rxPacket ≠ [] ∧ (addLastFragment newPkt pktSize s).rxPacket = s.rxPacket := by
    by_cases h : 0 < pktSize ∨ s.rxPacket = []
    · exact Or.inl (addLastFragment_linked newPkt h).rxPacket
    · obtain ⟨hsize, hne⟩ := not_or.mp h
      obtain ⟨tail, htail⟩ := Option.ne_none_iff_exists'.mp
        (show s.rxPacketTail ≠ none from fun h => hne (List.getLast?_eq_none_iff.mp h))
      exact Or.inr ⟨hne, (addLastFragment_shortened newPkt hsize htail).rxPacket⟩
  rcases hchain with hchain | ⟨hne, hchain⟩
  · rw [hchain]
    cases s.rxPacket <;> rfl
  · rw [hchain, if_neg hne]

theorem headD_mem {l : List ℕ} (h : l ≠ []) (d : ℕ) : l.headD d ∈ l := by
  cases l with
  | nil => exact absurd rfl h
  | cons a l => exact List.mem_cons_self

/-- **Handling a packet writes to a freed mbuf** in one case: it ends a frame begun before, holds
nothing but the FCS, and its descriptor has flags. -/
theorem handlePkt_live (h : Apart newPkt s) :
    (handlePkt newPkt pktSize status1 status2 s).Live ↔
      s.Live ∧ ¬ (status1 &&& lastFrag ≠ 0 ∧ HasFlags status1 status2 ∧ s.rxPacket ≠ [] ∧ pktSize ≤ 4) := by
  unfold handlePkt
  by_cases hlast : status1 &&& lastFrag = 0
  · rw [if_neg (by simp [hlast]), addFragment_live pktSize h]
    simp [hlast]
  · rw [if_pos (by simpa using hlast)]
    obtain ⟨hlive, hfreed⟩ := addLastFragment_live (pktSize - kIOEthernetCRCSize) h
    have hsize : pktSize - kIOEthernetCRCSize ≤ 0 ↔ pktSize ≤ 4 := sub_nonpos
    have hhead : (addLastFragment newPkt (pktSize - kIOEthernetCRCSize) s).rxPacket.headD 0 ∉
        (addLastFragment newPkt (pktSize - kIOEthernetCRCSize) s).freed := by
      rw [addLastFragment_head, hfreed]
      by_cases hnil : s.rxPacket = []
      · simp [hnil, h.newPkt_freed]
      · have hmem := headD_mem hnil 0
        rw [if_neg hnil, List.mem_append, not_or]
        refine ⟨h.chain_freed _ hmem, fun hin => h.chain_ne _ hmem ?_⟩
        split at hin
        · exact List.mem_singleton.mp hin
        · cases hin
    have hnew : newPkt ∉ (addLastFragment newPkt (pktSize - kIOEthernetCRCSize) s).freed ↔
        ¬ (s.rxPacket ≠ [] ∧ pktSize ≤ 4) := by
      rw [hfreed, ← hsize, List.mem_append]
      by_cases hfcs : s.rxPacket ≠ [] ∧ pktSize - kIOEthernetCRCSize ≤ 0
      · exact iff_of_false (by simp [hfcs]) (not_not.mpr hfcs)
      · rw [if_neg hfcs]
        exact iff_of_true (by simp [h.newPkt_freed]) hfcs
    rw [passOn_live status1 status2 hhead, hlive, hnew]
    simp only [ne_eq, hlast, not_false_iff, true_and, not_and]

end Live

/-! ### Whose flags a packet has -/

section Csum

variable (newPkt m : ℕ) (pktSize : ℤ) (status1 status2 : UInt32) (s : RxAssembly)

theorem mbufSetLen_csum : ((mbufSetLen newPkt pktSize s).mbuf m).csum = (s.mbuf m).csum :=
  write_keeps Mbuf.csum (fun b => { b with len := pktSize }) (fun _ => rfl) newPkt m s

theorem mbufClearPktHdr_csum : ((mbufClearPktHdr newPkt s).mbuf m).csum = (s.mbuf m).csum :=
  write_keeps Mbuf.csum (fun b => { b with pktHdr := false }) (fun _ => rfl) newPkt m s

theorem mbufPktHdrSetLen_csum :
    ((mbufPktHdrSetLen newPkt pktSize s).mbuf m).csum = (s.mbuf m).csum :=
  write_keeps Mbuf.csum (fun b => { b with pktHdrLen := pktSize }) (fun _ => rfl) newPkt m s

theorem linkFragment_csum (tail : ℕ) :
    ((linkFragment tail newPkt pktSize s).mbuf m).csum = (s.mbuf m).csum := by
  show ((write tail id (mbufClearPktHdr newPkt (mbufSetLen newPkt pktSize s))).mbuf m).csum = _
  rw [write_keeps Mbuf.csum id (fun _ => rfl), mbufClearPktHdr_csum, mbufSetLen_csum]

theorem startPacket_csum : ((startPacket newPkt pktSize s).mbuf m).csum = (s.mbuf m).csum :=
  mbufSetLen_csum newPkt m pktSize s

theorem addFragment_csum : ((addFragment newPkt pktSize s).mbuf m).csum = (s.mbuf m).csum := by
  unfold addFragment
  split
  · exact linkFragment_csum newPkt m pktSize s _
  · exact startPacket_csum newPkt m pktSize s

theorem addLastFragment_csum :
    ((addLastFragment newPkt pktSize s).mbuf m).csum = (s.mbuf m).csum := by
  unfold addLastFragment
  split
  case h_1 tail _ =>
    split
    · exact linkFragment_csum newPkt m pktSize s tail
    · exact write_keeps Mbuf.csum (fun b => { b with len := b.len + pktSize }) (fun _ => rfl) tail m
        (mbufFree [newPkt] s)
  case h_2 => exact startPacket_csum newPkt m pktSize s

/-- **The flags go to `newPkt`**, whichever mbuf of the frame that is. -/
theorem readyToPassOn_csum :
    ((readyToPassOn newPkt status1 status2 s).mbuf m).csum =
      if HasFlags status1 status2 ∧ m = newPkt then csumPerformed status1 status2
      else (s.mbuf m).csum := by
  have htag : ∀ t : RxAssembly, ((noteVlanTag status2 t).mbuf m).csum = (t.mbuf m).csum := by
    intro t
    unfold noteVlanTag
    split
    · exact write_keeps Mbuf.csum (fun b => { b with vlanTag := some _ }) (fun _ => rfl) _ m t
    · rfl
  rw [readyToPassOn, mbufPktHdrSetLen_csum, htag, getChecksumResult_eq]
  by_cases h : HasFlags status1 status2
  · by_cases hm : m = newPkt
    · rw [if_pos h, if_pos ⟨h, hm⟩, hm, write_mbuf_self]
    · rw [if_pos h, if_neg (fun hc => hm hc.2), write_mbuf_of_ne hm]
  · rw [if_neg h, if_neg (fun hc => h hc.1)]

/-- The packet passed on has the flags of its first mbuf. -/
theorem passOn_enqueued :
    (passOn newPkt status1 status2 s).enqueued = s.enqueued ++
      [packetOf (readyToPassOn newPkt status1 status2 s).mbuf s.rxPacket] := by
  set t := readyToPassOn newPkt status1 status2 s
  have hsame : SameChain s t := readyToPassOn_sameChain newPkt status1 status2 s
  rw [enqueued_of_trace (s := t) [.enqueue t.rxPacket (packetOf t.mbuf t.rxPacket)] rfl,
    hsame.enqueued, hsame.rxPacket]
  rfl

theorem csumPerformed_of_not_hasFlags {status1 status2 : UInt32} (h : ¬ HasFlags status1 status2) :
    csumPerformed status1 status2 = (0, 0) := by
  have hzero : (csumPerformed status1 status2).1 = 0 := not_not.mp h
  unfold csumPerformed at hzero ⊢
  dsimp only at hzero ⊢
  split at hzero
  · split at hzero <;> exact absurd hzero (by decide)
  · rw [if_neg (by assumption)]
    exact Prod.ext hzero rfl

/-- **A delivered packet has the flags of its last descriptor** unless there are some and the frame
has more than one buffer. -/
theorem handlePkt_csum {newPkt : ℕ} {status1 : UInt32} (hlast : status1 &&& lastFrag ≠ 0)
    (hchain : ∀ m ∈ s.rxPacket, m ≠ newPkt ∧ (s.mbuf m).csum = (0, 0))
    (hnew : (s.mbuf newPkt).csum = (0, 0)) :
    ∃ pkt, (handlePkt newPkt pktSize status1 status2 s).enqueued = s.enqueued ++ [pkt] ∧
      (pkt.csum = csumPerformed status1 status2 ↔ ¬ (HasFlags status1 status2 ∧ s.rxPacket ≠ [])) := by
  set t := addLastFragment newPkt (pktSize - kIOEthernetCRCSize) s with ht
  have henq : t.enqueued = s.enqueued := (addLastFragment_size newPkt (pktSize - kIOEthernetCRCSize) s).2.1
  have hpass : handlePkt newPkt pktSize status1 status2 s = passOn newPkt status1 status2 t :=
    if_pos (by simpa using hlast)
  refine ⟨packetOf (readyToPassOn newPkt status1 status2 t).mbuf t.rxPacket, ?_, ?_⟩
  · rw [hpass, passOn_enqueued, henq]
  · show ((readyToPassOn newPkt status1 status2 t).mbuf (t.rxPacket.headD 0)).csum = _ ↔ _
    rw [readyToPassOn_csum, ht, addLastFragment_csum, addLastFragment_head]
    by_cases hflags : HasFlags status1 status2
    · by_cases hnil : s.rxPacket = []
      · simp [hflags, hnil]
      · obtain ⟨hne, hzero⟩ := hchain _ (headD_mem hnil 0)
        rw [if_neg hnil, if_neg (fun hc => hne hc.2), hzero]
        refine iff_of_false (fun he => hflags ?_) (not_not.mpr ⟨hflags, hnil⟩)
        rw [← he]
    · rw [if_neg (fun hc => hflags hc.1), csumPerformed_of_not_hasFlags hflags]
      refine iff_of_true ?_ (fun hc => hflags hc.1)
      by_cases hnil : s.rxPacket = []
      · rw [if_pos hnil, hnew]
      · rw [if_neg hnil]
        exact (hchain _ (headD_mem hnil 0)).2

end Csum

end Rtl812x.Kext
