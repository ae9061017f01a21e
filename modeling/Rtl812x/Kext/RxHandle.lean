import Rtl812x.Kext.RxFrame

/-!
# What the receive loop body does to mbufs and frames

One descriptor either adds its buffer to the frame being put together (and passes the frame on, if
it is the last one) or drops the whole frame.

* `Offered` — what `replaceOrCopyPacket` leaves for a packet that is kept: whether it was copied or
  its mbuf replaced, the packet holds the bytes of the receive buffer and is no longer part of it;
* `rxHandle_taken`, `rxHandle_dropped` — **the two outcomes of the loop body**;
* `Linked`, `Shortened` — a buffer goes on the chain, or takes bytes off its end;
* `handlePkt_linked`, `handlePkt_passedOn` — a kept buffer extends the chain, or completes a packet.
-/

namespace Rtl812x.Kext

open RxAssembly

/-! ### Events -/

theorem enqueued_of_trace {s t : RxAssembly} (es : List RxEvent) (h : t.trace = s.trace ++ es) :
    t.enqueued = s.enqueued ++ es.filterMap fun
      | .enqueue _ pkt => some pkt
      | _ => none := by
  rw [enqueued, h, List.filterMap_append]
  rfl

theorem write_enqueued (m : ℕ) (f : Mbuf → Mbuf) (s : RxAssembly) :
    (write m f s).enqueued = s.enqueued := by
  rw [enqueued_of_trace [.write m] rfl]
  simp

theorem mbufFree_enqueued (ms : List ℕ) (s : RxAssembly) : (mbufFree ms s).enqueued = s.enqueued := by
  rw [enqueued_of_trace [.free ms] rfl]
  simp

theorem discardPacketFragment_enqueued (s : RxAssembly) :
    (discardPacketFragment s).enqueued = s.enqueued := by
  by_cases h : s.rxPacket = []
  · have htrace : (discardPacketFragment s).trace = s.trace ++ [] := by
      simp [discardPacketFragment, h]
    rw [enqueued_of_trace [] htrace]
    simp
  · have htrace : (discardPacketFragment s).trace = s.trace ++ [.free s.rxPacket] := by
      simp [discardPacketFragment, h]
    rw [enqueued_of_trace [.free s.rxPacket] htrace]
    simp

/-! ### A write changes one mbuf -/

theorem write_mbuf_of_ne {m n : ℕ} (h : n ≠ m) (f : Mbuf → Mbuf) (s : RxAssembly) :
    (write m f s).mbuf n = s.mbuf n := Function.update_of_ne h _ _

theorem write_mbuf_self (m : ℕ) (f : Mbuf → Mbuf) (s : RxAssembly) :
    (write m f s).mbuf m = f (s.mbuf m) := Function.update_self _ _ _

/-- A write that keeps a field of the mbuf keeps it of every mbuf. -/
theorem write_keeps {β : Type*} (g : Mbuf → β) (f : Mbuf → Mbuf) (hf : ∀ b, g (f b) = g b)
    (m n : ℕ) (s : RxAssembly) : g ((write m f s).mbuf n) = g (s.mbuf n) := by
  by_cases h : n = m
  · rw [h, write_mbuf_self, hf]
  · rw [write_mbuf_of_ne h]

/-! ### Taking the packet off the descriptor -/

/-- `s'` is `s` once `newPkt` has been taken out of receive buffer `i`. -/
structure Offered (s s' : RxAssembly) (i len newPkt : ℕ) : Prop where
  rxPacket : s'.rxPacket = s.rxPacket
  rxPacketSize : s'.rxPacketSize = s.rxPacketSize
  enqueued : s'.enqueued = s.enqueued
  nextMbuf : s'.nextMbuf = s.nextMbuf + 1
  old : ∀ m < s.nextMbuf, s'.mbuf m = s.mbuf m
  bufMbuf : ∀ j, j ≠ i → s'.bufMbuf j = s.bufMbuf j
  taken : newPkt = s.bufMbuf i ∧ s'.bufMbuf i = s.nextMbuf ∨
    newPkt = s.nextMbuf ∧ s'.bufMbuf i = s.bufMbuf i
  data : s.bufMbuf i < s.nextMbuf →
    (s'.mbuf newPkt).data.take len = (s.mbuf (s.bufMbuf i)).data.take len

/-- The assembly after `getPacket` gave out a new mbuf. -/
def withNewMbuf (s : RxAssembly) : RxAssembly :=
  { s with mbuf := Function.update s.mbuf s.nextMbuf newMbuf, nextMbuf := s.nextMbuf + 1 }

theorem withNewMbuf_mbuf {s : RxAssembly} {m : ℕ} (h : m < s.nextMbuf) :
    (withNewMbuf s).mbuf m = s.mbuf m := Function.update_of_ne (Nat.ne_of_lt h) _ _

theorem getPacket_of_ne {a : Alloc} (ha : a ≠ .failed) (s : RxAssembly) :
    getPacket a s = (some s.nextMbuf, withNewMbuf s) := if_neg ha

section Replace

variable {maxCopySize len : ℕ} {a : Alloc}

theorem replaceOrCopyPacket_failed (maxCopySize bufPkt len : ℕ) (s : RxAssembly) :
    replaceOrCopyPacket maxCopySize bufPkt len .failed s =
      ⟨none, bufPkt, decide (maxCopySize < len), s⟩ := by
  by_cases hlen : maxCopySize < len <;> simp [replaceOrCopyPacket, getPacket, hlen]

theorem replaceOrCopyPacket_replaced (ha : a ≠ .failed) (hlen : maxCopySize < len) (bufPkt : ℕ)
    (s : RxAssembly) : replaceOrCopyPacket maxCopySize bufPkt len a s =
      ⟨some bufPkt, s.nextMbuf, true, withNewMbuf s⟩ := by
  simp only [replaceOrCopyPacket, getPacket_of_ne ha, if_pos hlen]

theorem replaceOrCopyPacket_copied (ha : a ≠ .failed) (hlen : ¬ maxCopySize < len) (bufPkt : ℕ)
    (s : RxAssembly) : replaceOrCopyPacket maxCopySize bufPkt len a s =
      ⟨some s.nextMbuf, bufPkt, false, mbufCopy s.nextMbuf bufPkt len (withNewMbuf s)⟩ := by
  simp only [replaceOrCopyPacket, getPacket_of_ne ha, if_neg hlen]

end Replace

/-- The mbuf of the receive buffer is handed on and a new one put in its place. -/
theorem offered_replaced (s : RxAssembly) (i len : ℕ) :
    Offered s { withNewMbuf s with bufMbuf := Function.update s.bufMbuf i s.nextMbuf } i len
      (s.bufMbuf i) where
  rxPacket := rfl
  rxPacketSize := rfl
  enqueued := rfl
  nextMbuf := rfl
  old := fun _ hm => withNewMbuf_mbuf hm
  bufMbuf := fun _ hj => Function.update_of_ne hj _ _
  taken := Or.inl ⟨rfl, Function.update_self _ _ _⟩
  data := fun hi => by
    show ((withNewMbuf s).mbuf (s.bufMbuf i)).data.take len = _
    rw [withNewMbuf_mbuf hi]

/-- The bytes of the receive buffer are copied to a new mbuf. -/
theorem offered_copied (s : RxAssembly) (i len : ℕ) :
    Offered s (mbufCopy s.nextMbuf (s.bufMbuf i) len (withNewMbuf s)) i len s.nextMbuf where
  rxPacket := rfl
  rxPacketSize := rfl
  enqueued := write_enqueued _ _ _
  nextMbuf := rfl
  old := fun m hm => by rw [mbufCopy, write_mbuf_of_ne (Nat.ne_of_lt hm), withNewMbuf_mbuf hm]
  bufMbuf := fun _ _ => rfl
  taken := Or.inr ⟨rfl, rfl⟩
  data := fun hi => by
    rw [mbufCopy, write_mbuf_self, withNewMbuf_mbuf hi]
    show List.take len ((s.mbuf (s.bufMbuf i)).data.take len ++
      ((withNewMbuf s).mbuf s.nextMbuf).data.drop len) = _
    have hnew : (withNewMbuf s).mbuf s.nextMbuf = newMbuf := Function.update_self _ _ _
    rw [hnew, newMbuf, List.drop_nil, List.append_nil, List.take_take, Nat.min_self]

section Handle

variable {lenMask : UInt32} {maxCopySize : ℕ} {d : RxDesc} {a : Alloc}

/-- A packet that is taken: its mbuf is replaced in the receive buffer, or copied. -/
theorem rxHandle_taken_cases (h : rxTakes lenMask maxCopySize d a = true) (i : ℕ) (s : RxAssembly) :
    (rxHandle lenMask maxCopySize i d a s).asm =
      handlePkt (s.bufMbuf i) (rxLen lenMask d) d.opts1 d.opts2
        { withNewMbuf s with bufMbuf := Function.update s.bufMbuf i s.nextMbuf } ∨
    (rxHandle lenMask maxCopySize i d a s).asm =
      handlePkt s.nextMbuf (rxLen lenMask d) d.opts1 d.opts2
        (mbufCopy s.nextMbuf (s.bufMbuf i) (rxLen lenMask d) (withNewMbuf s)) := by
  simp only [rxTakes, Bool.and_eq_true, beq_iff_eq, bne_iff_ne, Bool.not_eq_true',
    Bool.and_eq_false_iff, decide_eq_false_iff_not] at h
  obtain ⟨⟨hres, hfail⟩, hchain⟩ := h
  rw [rxHandle, if_neg (by simp [hres])]
  by_cases hlen : maxCopySize < rxLen lenMask d
  · have hne : a ≠ .chained := by
      rcases hchain with h | h
      · exact absurd hlen h
      · simpa using h
    refine Or.inl ?_
    simp only [rxReceive, replaceOrCopyPacket_replaced hfail hlen, if_true, if_neg hne]
    rfl
  · refine Or.inr ?_
    simp only [rxReceive, replaceOrCopyPacket_copied hfail hlen, if_false, Bool.false_eq_true]

/-- **A packet that is taken** is handled from `handle_pkt` on. -/
theorem rxHandle_taken (h : rxTakes lenMask maxCopySize d a = true) (i : ℕ) (s : RxAssembly) :
    ∃ newPkt s', Offered s s' i (rxLen lenMask d) newPkt ∧
      (rxHandle lenMask maxCopySize i d a s).asm =
        handlePkt newPkt (rxLen lenMask d) d.opts1 d.opts2 s' := by
  rcases rxHandle_taken_cases h i s with hasm | hasm
  · exact ⟨_, _, offered_replaced s i _, hasm⟩
  · exact ⟨_, _, offered_copied s i _, hasm⟩

/-- What a dropped buffer leaves: no frame, and everything else as it was. -/
structure Dropped (s s' : RxAssembly) : Prop where
  rxPacket : s'.rxPacket = []
  rxPacketSize : s'.rxPacketSize = 0
  enqueued : s'.enqueued = s.enqueued
  bufMbuf : s'.bufMbuf = s.bufMbuf
  nextMbuf : s.nextMbuf ≤ s'.nextMbuf
  old : ∀ m < s.nextMbuf, s'.mbuf m = s.mbuf m

theorem dropped_noted (s : RxAssembly) (stats : RxStats) :
    Dropped s (discardPacketFragment { s with stats := stats }) :=
  ⟨rfl, rfl, discardPacketFragment_enqueued _, rfl, le_refl _, fun _ _ => rfl⟩

/-- The buffer that should have replaced the old one is a chain: it goes back. -/
theorem dropped_chained (s : RxAssembly) (stats : RxStats) :
    Dropped s (mbufFree [s.nextMbuf]
      (discardPacketFragment { withNewMbuf s with stats := stats })) := by
  refine ⟨rfl, rfl, ?_, rfl, Nat.le_succ _, fun m hm => withNewMbuf_mbuf hm⟩
  rw [mbufFree_enqueued, discardPacketFragment_enqueued]
  rfl

/-- **A packet that is not taken** costs the frame it belongs to, whatever length was read. -/
theorem rxHandle_dropped (h : rxTakes lenMask maxCopySize d a = false) (i : ℕ) (s : RxAssembly) :
    (rxHandle lenMask maxCopySize i d a s).asm =
      (if d.opts1 &&& rxRES != 0 then discardPacketFragment (noteRxError d.opts1 s)
      else if a = .failed then discardPacketFragment (noteResourceError s)
      else mbufFree [s.nextMbuf] (discardPacketFragment (noteResourceError (withNewMbuf s)))) ∧
    Dropped s (rxHandle lenMask maxCopySize i d a s).asm := by
  have hasm : (rxHandle lenMask maxCopySize i d a s).asm =
      (if d.opts1 &&& rxRES != 0 then discardPacketFragment (noteRxError d.opts1 s)
      else if a = .failed then discardPacketFragment (noteResourceError s)
      else mbufFree [s.nextMbuf] (discardPacketFragment (noteResourceError (withNewMbuf s)))) := by
    rw [rxHandle]
    split
    case isTrue => rfl
    case isFalse hres =>
      by_cases hfail : a = .failed
      · rw [hfail, rxReceive, replaceOrCopyPacket_failed]
        rfl
      · have hchain : maxCopySize < rxLen lenMask d ∧ a = .chained := by
          simpa [rxTakes, hfail, show d.opts1 &&& rxRES = 0 by simpa using hres] using h
        rw [if_neg hfail]
        simp only [rxReceive, replaceOrCopyPacket_replaced hfail hchain.1, if_true, if_pos hchain.2]
  refine ⟨hasm, ?_⟩
  rw [hasm]
  split
  · exact dropped_noted s _
  · split
    · exact dropped_noted s _
    · exact dropped_chained s _

end Handle

/-! ### Packet headers -/

/-- `s'` differs from `s` at most in packet headers. -/
structure SameChain (s s' : RxAssembly) : Prop where
  rxPacket : s'.rxPacket = s.rxPacket
  rxPacketSize : s'.rxPacketSize = s.rxPacketSize
  enqueued : s'.enqueued = s.enqueued
  bufMbuf : s'.bufMbuf = s.bufMbuf
  nextMbuf : s'.nextMbuf = s.nextMbuf
  data : ∀ m, (s'.mbuf m).data = (s.mbuf m).data
  len : ∀ m, (s'.mbuf m).len = (s.mbuf m).len

theorem SameChain.refl (s : RxAssembly) : SameChain s s :=
  ⟨rfl, rfl, rfl, rfl, rfl, fun _ => rfl, fun _ => rfl⟩

theorem SameChain.trans {s t u : RxAssembly} (h : SameChain s t) (h' : SameChain t u) :
    SameChain s u where
  rxPacket := h'.rxPacket.trans h.rxPacket
  rxPacketSize := h'.rxPacketSize.trans h.rxPacketSize
  enqueued := h'.enqueued.trans h.enqueued
  bufMbuf := h'.bufMbuf.trans h.bufMbuf
  nextMbuf := h'.nextMbuf.trans h.nextMbuf
  data := fun m => (h'.data m).trans (h.data m)
  len := fun m => (h'.len m).trans (h.len m)

theorem SameChain.write (m : ℕ) (f : Mbuf → Mbuf) (hdata : ∀ b, (f b).data = b.data)
    (hlen : ∀ b, (f b).len = b.len) (s : RxAssembly) : SameChain s (write m f s) where
  rxPacket := rfl
  rxPacketSize := rfl
  enqueued := write_enqueued m f s
  bufMbuf := rfl
  nextMbuf := rfl
  data := fun n => write_keeps Mbuf.data f hdata m n s
  len := fun n => write_keeps Mbuf.len f hlen m n s

theorem getChecksumResult_sameChain (m : ℕ) (status1 status2 : UInt32) (s : RxAssembly) :
    SameChain s (getChecksumResult m status1 status2 s) := by
  unfold getChecksumResult
  split
  · exact SameChain.write m (fun b => { b with csum := csumPerformed status1 status2 })
      (fun _ => rfl) (fun _ => rfl) s
  · exact SameChain.refl s

theorem noteVlanTag_sameChain (status2 : UInt32) (s : RxAssembly) :
    SameChain s (noteVlanTag status2 s) := by
  unfold noteVlanTag
  split
  · exact SameChain.write _ (fun b => { b with vlanTag := some _ }) (fun _ => rfl) (fun _ => rfl) s
  · exact SameChain.refl s

/-- The assembly right before `enqueueInputPacket`. -/
def readyToPassOn (newPkt : ℕ) (status1 status2 : UInt32) (s : RxAssembly) : RxAssembly :=
  mbufPktHdrSetLen ((noteVlanTag status2 (getChecksumResult newPkt status1 status2 s)).rxPacket.headD 0)
    (noteVlanTag status2 (getChecksumResult newPkt status1 status2 s)).rxPacketSize
    (noteVlanTag status2 (getChecksumResult newPkt status1 status2 s))

theorem readyToPassOn_sameChain (newPkt : ℕ) (status1 status2 : UInt32) (s : RxAssembly) :
    SameChain s (readyToPassOn newPkt status1 status2 s) :=
  ((getChecksumResult_sameChain newPkt status1 status2 s).trans (noteVlanTag_sameChain status2 _)).trans
    (SameChain.write _ (fun b => { b with
        pktHdrLen := (noteVlanTag status2 (getChecksumResult newPkt status1 status2 s)).rxPacketSize })
      (fun _ => rfl) (fun _ => rfl) _)

/-- What a frame that is passed on leaves. -/
structure PassedOn (s s' : RxAssembly) (pkt : RxPacket) : Prop where
  enqueued : s'.enqueued = s.enqueued ++ [pkt]
  rxPacket : s'.rxPacket = []
  rxPacketSize : s'.rxPacketSize = 0
  bufMbuf : s'.bufMbuf = s.bufMbuf
  nextMbuf : s'.nextMbuf = s.nextMbuf
  data : ∀ m, (s'.mbuf m).data = (s.mbuf m).data

/-- **The packet passed on** is the chain, with the size added up as its length. -/
theorem passOn_spec (newPkt : ℕ) (status1 status2 : UInt32) (s : RxAssembly) :
    ∃ pkt, PassedOn s (passOn newPkt status1 status2 s) pkt ∧
      pkt.lens = s.rxPacket.map (fun m => (s.mbuf m).len) ∧
      pkt.bytes = s.rxPacket.flatMap (fun m => (s.mbuf m).bytes) ∧
      pkt.pktHdrLen = s.rxPacketSize := by
  set t := readyToPassOn newPkt status1 status2 s with ht
  have hsame : SameChain s t := readyToPassOn_sameChain newPkt status1 status2 s
  have hpass : passOn newPkt status1 status2 s =
      { enqueueInputPacket t with rxPacket := [], rxPacketSize := 0 } := rfl
  refine ⟨packetOf t.mbuf t.rxPacket, ⟨?_, rfl, rfl, hsame.bufMbuf, hsame.nextMbuf, hsame.data⟩,
    ?_, ?_, ?_⟩
  · rw [enqueued_of_trace [.enqueue t.rxPacket (packetOf t.mbuf t.rxPacket)]
      (show (passOn newPkt status1 status2 s).trace = t.trace ++ _ from rfl), hsame.enqueued]
    rfl
  · show t.rxPacket.map (fun m => (t.mbuf m).len) = _
    rw [hsame.rxPacket, funext hsame.len]
  · show t.rxPacket.flatMap (fun m => (t.mbuf m).bytes) = _
    have hbytes : (fun m => (t.mbuf m).bytes) = fun m => (s.mbuf m).bytes := by
      funext m
      rw [Mbuf.bytes, Mbuf.bytes, hsame.data, hsame.len]
    rw [hsame.rxPacket, hbytes]
  · have hsize : (noteVlanTag status2 (getChecksumResult newPkt status1 status2 s)).rxPacketSize =
        s.rxPacketSize :=
      ((getChecksumResult_sameChain newPkt status1 status2 s).trans
        (noteVlanTag_sameChain status2 _)).rxPacketSize
    show (t.mbuf (t.rxPacket.headD 0)).pktHdrLen = s.rxPacketSize
    rw [← hsize, ht, readyToPassOn, mbufPktHdrSetLen]
    exact congrArg Mbuf.pktHdrLen (write_mbuf_self _ _ _)

/-! ### A buffer more -/

theorem mbufSetLen_len_self (m : ℕ) (len : ℤ) (s : RxAssembly) :
    ((mbufSetLen m len s).mbuf m).len = len := by
  rw [mbufSetLen, write_mbuf_self]

theorem mbufSetLen_len_of_ne {m n : ℕ} (h : n ≠ m) (len : ℤ) (s : RxAssembly) :
    ((mbufSetLen m len s).mbuf n).len = (s.mbuf n).len := by
  rw [mbufSetLen, write_mbuf_of_ne h]

/-- The size of the frame so far; `rxPacketSize` counts only while there is one. -/
def sizeSoFar (s : RxAssembly) : ℤ := if s.rxPacket = [] then 0 else s.rxPacketSize

/-- `s'` is `s` with the buffer `newPkt` of `len` bytes at the end of the chain. -/
structure Linked (s s' : RxAssembly) (newPkt : ℕ) (len : ℤ) : Prop where
  rxPacket : s'.rxPacket = s.rxPacket ++ [newPkt]
  rxPacketSize : s'.rxPacketSize = sizeSoFar s + len
  enqueued : s'.enqueued = s.enqueued
  bufMbuf : s'.bufMbuf = s.bufMbuf
  nextMbuf : s'.nextMbuf = s.nextMbuf
  data : ∀ m, (s'.mbuf m).data = (s.mbuf m).data
  len_new : (s'.mbuf newPkt).len = len
  len_old : ∀ m, m ≠ newPkt → (s'.mbuf m).len = (s.mbuf m).len

theorem startPacket_linked (newPkt : ℕ) (len : ℤ) {s : RxAssembly} (h : s.rxPacket = []) :
    Linked s (startPacket newPkt len s) newPkt len where
  rxPacket := by rw [h]; rfl
  rxPacketSize := by rw [sizeSoFar, if_pos h, zero_add]; rfl
  enqueued := write_enqueued newPkt (fun b => { b with len := len }) s
  bufMbuf := rfl
  nextMbuf := rfl
  data := fun m => write_keeps Mbuf.data (fun b => { b with len := len }) (fun _ => rfl) newPkt m s
  len_new := mbufSetLen_len_self newPkt len s
  len_old := fun _ hm => mbufSetLen_len_of_ne hm len s

theorem linkFragment_linked (tail newPkt : ℕ) (len : ℤ) {s : RxAssembly} (h : s.rxPacket ≠ []) :
    Linked s (linkFragment tail newPkt len s) newPkt len := by
  set t := mbufSetLen newPkt len s
  have hhdr : SameChain t (write tail id (mbufClearPktHdr newPkt t)) :=
    (SameChain.write newPkt (fun b => { b with pktHdr := false }) (fun _ => rfl) (fun _ => rfl) t).trans
      (SameChain.write tail id (fun _ => rfl) (fun _ => rfl) _)
  refine ⟨rfl, ?_, ?_, rfl, rfl, fun m => ?_, ?_, fun m hm => ?_⟩
  · rw [sizeSoFar, if_neg h]
    rfl
  · exact hhdr.enqueued.trans (write_enqueued newPkt (fun b => { b with len := len }) s)
  · exact (hhdr.data m).trans
      (write_keeps Mbuf.data (fun b => { b with len := len }) (fun _ => rfl) newPkt m s)
  · exact (hhdr.len newPkt).trans (mbufSetLen_len_self newPkt len s)
  · exact (hhdr.len m).trans (mbufSetLen_len_of_ne hm len s)

/-- A buffer that is not the last goes on the chain. -/
theorem addFragment_linked (newPkt : ℕ) (len : ℤ) (s : RxAssembly) :
    Linked s (addFragment newPkt len s) newPkt len := by
  unfold addFragment
  split
  case h_1 tail htail =>
    exact linkFragment_linked tail newPkt len (List.ne_nil_of_mem (List.mem_of_getLast? htail))
  case h_2 htail => exact startPacket_linked newPkt len (List.getLast?_eq_none_iff.mp htail)

theorem addLastFragment_linked (newPkt : ℕ) {len : ℤ} {s : RxAssembly}
    (h : 0 < len ∨ s.rxPacket = []) : Linked s (addLastFragment newPkt len s) newPkt len := by
  unfold addLastFragment
  split
  case h_1 tail htail =>
    have hne : s.rxPacket ≠ [] := List.ne_nil_of_mem (List.mem_of_getLast? htail)
    rw [if_pos (h.resolve_right hne)]
    exact linkFragment_linked tail newPkt len hne
  case h_2 htail => exact startPacket_linked newPkt len (List.getLast?_eq_none_iff.mp htail)

/-- `s'` is `s` with `len` taken off the last buffer of the chain (`len` is not positive). -/
structure Shortened (s s' : RxAssembly) (tail : ℕ) (len : ℤ) : Prop where
  rxPacket : s'.rxPacket = s.rxPacket
  rxPacketSize : s'.rxPacketSize = s.rxPacketSize + len
  enqueued : s'.enqueued = s.enqueued
  bufMbuf : s'.bufMbuf = s.bufMbuf
  nextMbuf : s'.nextMbuf = s.nextMbuf
  data : ∀ m, (s'.mbuf m).data = (s.mbuf m).data
  len_tail : (s'.mbuf tail).len = (s.mbuf tail).len + len
  len_old : ∀ m, m ≠ tail → (s'.mbuf m).len = (s.mbuf m).len

/-- A last buffer with no more than the FCS goes, and takes the rest of the FCS along. -/
theorem addLastFragment_shortened (newPkt : ℕ) {tail : ℕ} {len : ℤ} {s : RxAssembly} (hlen : ¬ 0 < len)
    (htail : s.rxPacketTail = some tail) : Shortened s (addLastFragment newPkt len s) tail len := by
  have hadd : addLastFragment newPkt len s = { mbufAdjustLen tail len (mbufFree [newPkt] s) with
      rxPacketSize := s.rxPacketSize + len } := by
    simp only [addLastFragment, htail, if_neg hlen]
  rw [hadd]
  set f : Mbuf → Mbuf := fun b => { b with len := b.len + len }
  refine ⟨rfl, rfl, ?_, rfl, rfl, fun m => ?_, ?_, fun m hm => ?_⟩
  · exact (write_enqueued tail f _).trans (mbufFree_enqueued _ s)
  · exact write_keeps Mbuf.data f (fun _ => rfl) tail m (mbufFree [newPkt] s)
  · exact congrArg Mbuf.len (write_mbuf_self tail f (mbufFree [newPkt] s))
  · exact congrArg Mbuf.len (write_mbuf_of_ne hm f (mbufFree [newPkt] s))

/-- Either way the size grows by the length without the FCS. -/
theorem addLastFragment_size (newPkt : ℕ) (len : ℤ) (s : RxAssembly) :
    (addLastFragment newPkt len s).rxPacketSize = sizeSoFar s + len ∧
    (addLastFragment newPkt len s).enqueued = s.enqueued ∧
    (addLastFragment newPkt len s).bufMbuf = s.bufMbuf ∧
    (addLastFragment newPkt len s).nextMbuf = s.nextMbuf ∧
    ∀ m, ((addLastFragment newPkt len s).mbuf m).data = (s.mbuf m).data := by
  by_cases h : 0 < len ∨ s.rxPacket = []
  · have hlink := addLastFragment_linked newPkt h
    exact ⟨hlink.rxPacketSize, hlink.enqueued, hlink.bufMbuf, hlink.nextMbuf, hlink.data⟩
  · obtain ⟨hlen, hne⟩ := not_or.mp h
    obtain ⟨tail, htail⟩ := Option.ne_none_iff_exists'.mp
      (show s.rxPacketTail ≠ none from fun h => hne (List.getLast?_eq_none_iff.mp h))
    have hshort := addLastFragment_shortened newPkt hlen htail
    exact ⟨by rw [hshort.rxPacketSize, sizeSoFar, if_neg hne], hshort.enqueued, hshort.bufMbuf,
      hshort.nextMbuf, hshort.data⟩

theorem PassedOn.of_added {s t u : RxAssembly} {pkt : RxPacket} (h : PassedOn t u pkt)
    (henq : t.enqueued = s.enqueued) (hbuf : t.bufMbuf = s.bufMbuf) (hnext : t.nextMbuf = s.nextMbuf)
    (hdata : ∀ m, (t.mbuf m).data = (s.mbuf m).data) : PassedOn s u pkt where
  enqueued := by rw [h.enqueued, henq]
  rxPacket := h.rxPacket
  rxPacketSize := h.rxPacketSize
  bufMbuf := h.bufMbuf.trans hbuf
  nextMbuf := h.nextMbuf.trans hnext
  data := fun m => (h.data m).trans (hdata m)

/-- **A last buffer passes the frame on**, with its size as the header length. -/
theorem handlePkt_passedOn {status1 : UInt32} (h : status1 &&& lastFrag ≠ 0) (newPkt : ℕ)
    (pktSize : ℤ) (status2 : UInt32) (s : RxAssembly) :
    ∃ pkt, PassedOn s (handlePkt newPkt pktSize status1 status2 s) pkt ∧
      pkt.pktHdrLen = sizeSoFar s + (pktSize - kIOEthernetCRCSize) := by
  rw [handlePkt, if_pos (by simpa using h)]
  obtain ⟨hsize, henq, hbuf, hnext, hdata⟩ :=
    addLastFragment_size newPkt (pktSize - kIOEthernetCRCSize) s
  obtain ⟨pkt, hpass, _, _, hlen⟩ := passOn_spec newPkt status1 status2
    (addLastFragment newPkt (pktSize - kIOEthernetCRCSize) s)
  exact ⟨pkt, hpass.of_added henq hbuf hnext hdata, by rw [hlen, hsize]⟩

/-- **Any other buffer goes on the chain.** -/
theorem handlePkt_linked {status1 : UInt32} (h : status1 &&& lastFrag = 0) (newPkt : ℕ)
    (pktSize : ℤ) (status2 : UInt32) (s : RxAssembly) :
    Linked s (handlePkt newPkt pktSize status1 status2 s) newPkt pktSize := by
  rw [handlePkt, if_neg (by simp [h])]
  exact addFragment_linked newPkt pktSize s

end Rtl812x.Kext
