import Rtl812x.Kext.RxLoop
import Rtl812x.Kext.RxStream
import Rtl812x.Lib.Runs

/-!
# What `rxInterrupt` passes on

The chip completes one buffer after the other, in ring order, as long as it owns the next
descriptor; the driver calls `rxInterrupt` now and then.  A run is any sequence of the two.

* `RxSys`, `rxStep`, `RxOp` — the receive ring between the chip and `rxInterrupt`;
* `RingHolds` — the descriptors ahead of the driver are the buffers it has not handled yet;
* `rxInv_step` — **the invariant is kept** by every completion and every call;
* `rxInterrupt_delivers_frames` — as long as no frame arrives whose last buffer is good and an
  earlier one is not, what is passed on is received frames, whole, in order and each once;
* `failed_first_buffer_delivers_rest` — a failed allocation on the first of two buffers, and the
  second one goes up as a packet of its own.
-/

namespace Rtl812x.Kext

open Circular Loop Runs RxAssembly Segments

/-- The receive side, the descriptor the chip fills next, and the buffers it has completed. -/
structure RxSys where
  side : RxSide
  chipNext : ℕ
  stream : List RxBuf

inductive RxOp where
  | complete (b : RxBuf)
  | interrupt (maxCount : ℕ)

/-- The bytes at the start of an mbuf's data are overwritten. -/
def Mbuf.fill (bytes : List UInt8) (m : Mbuf) : Mbuf :=
  { m with data := bytes ++ m.data.drop bytes.length }

/-- The chip writes to an address: to the data of every mbuf that is there. -/
def dmaWrite (cfg : RxConfig) (addr : ℕ) (bytes : List UInt8) (mbuf : ℕ → Mbuf) (m : ℕ) : Mbuf :=
  if cfg.phys m = addr then (mbuf m).fill bytes else mbuf m

/-- The chip completes the next descriptor: its status words, and the bytes at the address it finds
there. -/
def chipComplete (cfg : RxConfig) (b : RxBuf) (s : RxSys) : RxSys where
  side := { s.side with
    desc := Function.update s.side.desc s.chipNext
      ⟨b.opts1, b.opts2, (s.side.desc s.chipNext).addr⟩
    asm := { s.side.asm with
      mbuf := dmaWrite cfg (s.side.desc s.chipNext).addr b.data s.side.asm.mbuf } }
  chipNext := (s.chipNext + 1) % kNumRxDesc
  stream := s.stream ++ [b]

/-- The `n`th buffer brings its allocation outcome along. -/
def RxSys.alloc (s : RxSys) (n : ℕ) : Alloc := ((s.stream[n]?).map RxBuf.alloc).getD .failed

def rxStep (cfg : RxConfig) (s : RxSys) : RxOp → RxSys
  | .complete b => chipComplete cfg b s
  | .interrupt maxCount =>
      match rxInterrupt cfg s.alloc maxCount kNumRxDesc s.side with
      | some c => { s with side := c.side }
      | none => s

/-- The mbuf is in a receive buffer or on the chain of the frame being put together. -/
def RxAssembly.InUse (s : RxAssembly) (m : ℕ) : Prop :=
  (∃ i < kNumRxDesc, s.bufMbuf i = m) ∨ m ∈ s.rxPacket

/-- No two mbufs in use at one time are at one address.  A page may well come back once the network
stack has freed its mbuf. -/
def DistinctPages (cfg : RxConfig) (s : RxAssembly) : Prop :=
  ∀ m m', s.InUse m → s.InUse m' → cfg.phys m = cfg.phys m' → m = m'

/-- The chip fills only descriptors it owns, and fills them as it does. -/
def ChipOk (cfg : RxConfig) (s : RxSys) : RxOp → Prop
  | .complete b =>
    (s.side.desc s.chipNext).own = true ∧ DistinctPages cfg s.side.asm ∧ ChipWrites cfg s.stream b
  | .interrupt _ => True

/-- No frame arrives whose last buffer is good and an earlier one is not. -/
def ResyncOk (cfg : RxConfig) (s : RxSys) : RxOp → Prop
  | .complete b => Resyncs cfg s.stream b
  | .interrupt _ => True

/-- The ring after `setupRxResources`: every descriptor is armed, with an mbuf of its own. -/
def rxSetup (cfg : RxConfig) : RxSys where
  side := { sideWith (fun i => armedDesc cfg.pageSize i (cfg.phys i)) with bufPhyAddr := cfg.phys }
  chipNext := 0
  stream := []

/-- **What is passed on** is whole frames that were received, each buffer of them good, without the
FCS and with that length; in order, and each once. -/
def SoundDelivery (cfg : RxConfig) (s : RxSys) : Prop :=
  ∃ fs : List (List RxBuf), fs.Sublist (framesOf s.stream).1 ∧
    (∀ f ∈ fs, WholeFrame f ∧ ∀ b ∈ f, b.good cfg.maxCopySize = true) ∧
    s.side.asm.delivered = fs.map frameView

/-! ### The ring between the chip and the driver -/

/-- The buffers `p` wait in the ring, from the driver's next descriptor on; the chip owns the rest. -/
structure RingHolds (r : RxSide) (p : List RxBuf) : Prop where
  length_le : p.length ≤ kNumRxDesc
  desc : ∀ k b, p[k]? = some b → (rxAt r k).opts1 = b.opts1
  data : ∀ k b, p[k]? = some b →
    b.data <+: (r.asm.mbuf (r.asm.bufMbuf (rxIndex r k))).data
  own : ∀ k, p.length ≤ k → k < kNumRxDesc → (rxAt r k).own = true

theorem own_of_opts1 {d d' : RxDesc} (h : d.opts1 = d'.opts1) : d.own = d'.own := by
  rw [RxDesc.own, RxDesc.own, h]

section Ring

variable {r : RxSide} {p : List RxBuf} {b : RxBuf}

/-- If the chip owns the descriptor behind the waiting buffers, there is room for one more. -/
theorem RingHolds.room (h : RingHolds r p) (hdone : ∀ x ∈ p, x.desc.own = false)
    (hown : (rxAt r p.length).own = true) : p.length < kNumRxDesc := by
  rcases Nat.lt_or_eq_of_le h.length_le with hlt | heq
  · exact hlt
  · obtain ⟨x, rest, rfl⟩ := List.exists_cons_of_length_pos (l := p) (by rw [heq]; decide)
    have hword : (rxAt r 0).opts1 = x.desc.opts1 := h.desc 0 x rfl
    have hfirst : (rxAt r 0).own = false := by
      rw [own_of_opts1 hword]
      exact hdone x List.mem_cons_self
    rw [heq, rxAt, show rxIndex r kNumRxDesc = rxIndex r 0 from Nat.add_mod_right _ _] at hown
    rw [rxAt, hown] at hfirst
    exact absurd hfirst (by decide)

/-- The chip's write to the address of a receive buffer reaches that buffer's mbuf. -/
theorem dmaWrite_self {cfg : RxConfig} {addr m : ℕ} (h : addr = cfg.phys m) (bytes : List UInt8)
    (mbuf : ℕ → Mbuf) : dmaWrite cfg addr bytes mbuf m = (mbuf m).fill bytes := if_pos h.symm

/-- It reaches no other mbuf in use. -/
theorem dmaWrite_of_ne {cfg : RxConfig} {s : RxAssembly} (hpages : DistinctPages cfg s) {addr m m' : ℕ}
    (h : addr = cfg.phys m) (hm : s.InUse m) (hm' : s.InUse m') (hne : m' ≠ m) (bytes : List UInt8) :
    dmaWrite cfg addr bytes s.mbuf m' = s.mbuf m' :=
  if_neg fun he => hne (hpages m' m hm' hm (he.trans h))

/-- The chip completes the descriptor behind the waiting buffers. -/
theorem RingHolds.complete {cfg : RxConfig} {s : RxSys} (h : RingHolds s.side p)
    (hroom : p.length < kNumRxDesc) (howned : Owned s.side.asm)
    (hpages : DistinctPages cfg s.side.asm) (hnext : s.chipNext = rxIndex s.side p.length)
    (haddr : (s.side.desc s.chipNext).addr = cfg.phys (s.side.asm.bufMbuf s.chipNext)) :
    RingHolds (chipComplete cfg b s).side (p ++ [b]) := by
  have hne : ∀ k < kNumRxDesc, k ≠ p.length → rxIndex s.side k ≠ s.chipNext := by
    intro k hk hkp he
    rw [hnext] at he
    exact hkp (rxIndex_inj hk hroom he)
  have hlt : s.chipNext < kNumRxDesc := hnext ▸ rxIndex_lt _ _
  have hdesc : ∀ k < kNumRxDesc, k ≠ p.length →
      rxAt (chipComplete cfg b s).side k = rxAt s.side k :=
    fun k hk hkp => Function.update_of_ne (hne k hk hkp) _ _
  refine ⟨?_, fun k x hx => ?_, fun k x hx => ?_, fun k hk hlt => ?_⟩
  · rw [List.length_append, List.length_singleton]
    exact hroom
  · rcases getElem?_snoc_cases hx with ⟨hold, hk⟩ | ⟨rfl, rfl⟩
    · rw [hdesc k (hk.trans hroom) (Nat.ne_of_lt hk)]
      exact h.desc k x hold
    · show (Function.update s.side.desc s.chipNext _ (rxIndex s.side p.length)).opts1 = _
      rw [← hnext, Function.update_self]
  · show x.data <+: (dmaWrite cfg _ b.data s.side.asm.mbuf
      (s.side.asm.bufMbuf (rxIndex s.side k))).data
    rcases getElem?_snoc_cases hx with ⟨hold, hk⟩ | ⟨rfl, rfl⟩
    · have hbuf : s.side.asm.bufMbuf (rxIndex s.side k) ≠ s.side.asm.bufMbuf s.chipNext :=
        fun he => hne k (hk.trans hroom) (Nat.ne_of_lt hk)
          (howned.buf_inj _ (rxIndex_lt _ _) _ hlt he)
      rw [dmaWrite_of_ne hpages haddr (Or.inl ⟨_, hlt, rfl⟩) (Or.inl ⟨_, rxIndex_lt _ _, rfl⟩) hbuf]
      exact h.data k x hold
    · rw [← hnext, dmaWrite_self haddr]
      exact List.prefix_append _ _
  · rw [List.length_append, List.length_singleton] at hk
    rw [hdesc k hlt (by omega)]
    exact h.own k (by omega) hlt

/-- After a round the places ahead are one further on. -/
theorem rxIndex_step (cfg : RxConfig) (alloc : ℕ → Alloc) (c : RxCall) (k : ℕ) :
    rxIndex (rxInterruptStep cfg alloc c).side k = rxIndex c.side (k + 1) := by
  show slot kNumRxDesc ((c.side.rxNextDescIndex + 1) &&& kRxDescMask) k = _
  rw [and_kRxDescMask, Nat.add_comm k 1]
  exact slot_slot kNumRxDesc c.side.rxNextDescIndex 1 k

/-- The driver handles the first of the waiting buffers and arms its descriptor again. -/
theorem RingHolds.handled {cfg : RxConfig} {alloc : ℕ → Alloc} {c : RxCall}
    (h : RingHolds c.side (b :: p)) (howned : Owned c.side.asm)
    (hlt : c.side.rxNextDescIndex < kNumRxDesc) : RingHolds (rxInterruptStep cfg alloc c).side p := by
  have hfirst : rxIndex c.side 0 = c.side.rxNextDescIndex := slot_zero hlt
  have hlen : p.length < kNumRxDesc := h.length_le
  have hne : ∀ k, k + 1 < kNumRxDesc → rxIndex c.side (k + 1) ≠ c.side.rxNextDescIndex := by
    intro k hk he
    rw [← hfirst] at he
    exact absurd (rxIndex_inj hk (by decide) he) (by omega)
  have hdesc : ∀ k, k + 1 < kNumRxDesc →
      rxAt (rxInterruptStep cfg alloc c).side k = rxAt c.side (k + 1) := by
    intro k hk
    rw [rxAt, rxIndex_step]
    exact Function.update_of_ne (hne k hk) _ _
  refine ⟨Nat.le_of_lt hlen, fun k x hx => ?_, fun k x hx => ?_, fun k hk hklt => ?_⟩
  · have hk : k < p.length := (List.getElem?_eq_some_iff.mp hx).1
    rw [hdesc k (by omega)]
    exact h.desc (k + 1) x hx
  · have hk : k < p.length := (List.getElem?_eq_some_iff.mp hx).1
    obtain ⟨hbuf, hdata⟩ := rxHandle_others howned c.side.rxNextDescIndex 0x3fff cfg.maxCopySize
      (c.side.desc c.side.rxNextDescIndex) (alloc c.side.seen) (rxIndex_lt c.side (k + 1))
      (hne k (by omega))
    rw [rxIndex_step]
    show x.data <+: ((c.handle 0x3fff cfg.maxCopySize alloc).asm.mbuf
      ((c.handle 0x3fff cfg.maxCopySize alloc).asm.bufMbuf (rxIndex c.side (k + 1)))).data
    rw [RxCall.handle, hbuf, hdata]
    exact h.data (k + 1) x hx
  · rcases Nat.lt_or_eq_of_le (Nat.succ_le_of_lt hklt) with hk' | hk'
    · rw [hdesc k hk']
      exact h.own (k + 1) (by rw [List.length_cons]; omega) hk'
    · -- the last place of the lap is the descriptor just armed
      have hlap : rxIndex (rxInterruptStep cfg alloc c).side k = c.side.rxNextDescIndex := by
        rw [rxIndex_step, show k + 1 = kNumRxDesc from hk', ← hfirst]
        exact Nat.add_mod_right _ _
      rw [rxAt, hlap]
      show (Function.update c.side.desc c.side.rxNextDescIndex _ c.side.rxNextDescIndex).own = true
      rw [Function.update_self]
      exact armedDesc_own _ _ _

end Ring

/-! ### The invariant -/

/-- What holds between completions and calls, and between the rounds of a call. -/
structure RxInv (cfg : RxConfig) (s : RxSys) : Prop where
  index_lt : s.side.rxNextDescIndex < kNumRxDesc
  seen_le : s.side.seen ≤ s.stream.length
  chip : s.chipNext = rxIndex s.side (s.stream.drop s.side.seen).length
  ring : RingHolds s.side (s.stream.drop s.side.seen)
  addressed : Addressed cfg s.side
  writes : ∀ n b, s.stream[n]? = some b → ChipWrites cfg (s.stream.take n) b
  resyncs : ∀ n b, s.stream[n]? = some b → Resyncs cfg (s.stream.take n) b
  assembled : Assembled cfg (s.stream.take s.side.seen) s.side.asm

theorem rxSetup_inv (cfg : RxConfig) : RxInv cfg (rxSetup cfg) where
  index_lt := by
    show 0 < kNumRxDesc
    decide
  seen_le := le_refl 0
  chip := rfl
  ring := by
    refine ⟨Nat.zero_le _, fun k b hb => absurd hb (by simp [rxSetup]),
      fun k b hb => absurd hb (by simp [rxSetup]), fun k _ _ => armedDesc_own _ _ _⟩
  addressed := ⟨fun _ _ => rfl, fun _ _ _ => rfl⟩
  writes := fun n b hb => absurd hb (by simp [rxSetup])
  resyncs := fun n b hb => absurd hb (by simp [rxSetup])
  assembled := by
    have howned : Owned emptyAssembly :=
      ⟨fun i hi => hi, fun i _ j _ h => h, fun m hm => absurd hm List.not_mem_nil, List.nodup_nil,
        fun m hm => absurd hm List.not_mem_nil⟩
    exact ⟨howned, fun b hb => absurd hb List.not_mem_nil, fun _ => HoldsFrame.nil rfl rfl, rfl⟩

/-- The bytes of a receive buffer are nobody's frame yet. -/
theorem Assembled.chipComplete {cfg : RxConfig} {l : List RxBuf} {s : RxSys} (b : RxBuf)
    (h : Assembled cfg l s.side.asm) (hpages : DistinctPages cfg s.side.asm)
    (hnext : s.chipNext < kNumRxDesc)
    (haddr : (s.side.desc s.chipNext).addr = cfg.phys (s.side.asm.bufMbuf s.chipNext)) :
    Assembled cfg l (Kext.chipComplete cfg b s).side.asm where
  owned := ⟨h.owned.buf_lt, h.owned.buf_inj, h.owned.chain_lt, h.owned.chain_nodup, h.owned.chain_buf⟩
  long := h.long
  chain := fun hall => (h.chain hall).congr rfl rfl fun m hm =>
    dmaWrite_of_ne hpages haddr (Or.inl ⟨_, hnext, rfl⟩) (Or.inr hm)
      (h.owned.chain_buf m hm s.chipNext hnext).symm b.data
  delivered := h.delivered

/-- A descriptor that is completed is no longer the chip's. -/
theorem Addressed.chipComplete {cfg : RxConfig} {b : RxBuf} {s : RxSys} (h : Addressed cfg s.side)
    (hdone : b.desc.own = false) : Addressed cfg (Kext.chipComplete cfg b s).side where
  phyAddr := h.phyAddr
  armed i hi := by
    show (Function.update s.side.desc s.chipNext _ i).own = true →
      (Function.update s.side.desc s.chipNext _ i).addr = _
    by_cases hcur : i = s.chipNext
    · rw [hcur, Function.update_self]
      intro hown
      have hsame : b.desc.own = true := hown
      rw [hdone] at hsame
      cases hsame
    · rw [Function.update_of_ne hcur]
      exact h.armed i hi

/-- A property of each item and what came before it, for one item more. -/
theorem forall_getElem?_snoc {α : Type*} {P : List α → α → Prop} {l : List α} {a : α}
    (h : ∀ n b, l[n]? = some b → P (l.take n) b) (ha : P l a) :
    ∀ n b, (l ++ [a])[n]? = some b → P ((l ++ [a]).take n) b := by
  intro n b hb
  rcases getElem?_snoc_cases hb with ⟨hold, hn⟩ | ⟨rfl, rfl⟩
  · rw [List.take_append_of_le_length (Nat.le_of_lt hn)]
    exact h n b hold
  · rw [List.take_left]
    exact ha

theorem rxInv_complete {cfg : RxConfig} {s : RxSys} {b : RxBuf} (h : RxInv cfg s)
    (hown : (s.side.desc s.chipNext).own = true) (hpages : DistinctPages cfg s.side.asm)
    (hwrites : ChipWrites cfg s.stream b) (hres : Resyncs cfg s.stream b) :
    RxInv cfg (chipComplete cfg b s) := by
  have hdone : ∀ x ∈ s.stream.drop s.side.seen, x.desc.own = false := by
    intro x hx
    obtain ⟨n, hn⟩ := List.mem_iff_getElem?.mp (List.mem_of_mem_drop hx)
    exact (h.writes n x hn).done
  have hroom := h.ring.room hdone (by rw [rxAt, ← h.chip]; exact hown)
  have hdrop : (s.stream ++ [b]).drop s.side.seen = s.stream.drop s.side.seen ++ [b] :=
    List.drop_append_of_le_length h.seen_le
  have hnext : s.chipNext < kNumRxDesc := h.chip ▸ rxIndex_lt _ _
  have haddr := h.addressed.armed s.chipNext hnext hown
  refine ⟨h.index_lt, ?_, ?_, ?_, h.addressed.chipComplete hwrites.done,
    forall_getElem?_snoc h.writes hwrites, forall_getElem?_snoc h.resyncs hres, ?_⟩
  · exact h.seen_le.trans (by simp [chipComplete])
  · show (s.chipNext + 1) % kNumRxDesc = rxIndex s.side ((s.stream ++ [b]).drop s.side.seen).length
    rw [hdrop, List.length_append, List.length_singleton, h.chip]
    exact slot_slot _ _ _ 1
  · show RingHolds _ ((s.stream ++ [b]).drop s.side.seen)
    rw [hdrop]
    exact h.ring.complete hroom h.assembled.owned hpages h.chip haddr
  · show Assembled cfg ((s.stream ++ [b]).take s.side.seen) _
    rw [List.take_append_of_le_length h.seen_le]
    exact h.assembled.chipComplete b hpages hnext haddr

/-- The next item of a stream of which `n` items are done. -/
theorem next_of_drop {α : Type*} {l p : List α} {n : ℕ} {b : α} (h : l.drop n = b :: p) :
    l[n]? = some b ∧ l.drop (n + 1) = p ∧ l.take (n + 1) = l.take n ++ [b] := by
  have hb : l[n]? = some b := by
    rw [← Nat.add_zero n, ← List.getElem?_drop, h]
    rfl
  refine ⟨hb, ?_, ?_⟩
  · rw [← List.tail_drop, h]
    rfl
  · rw [List.take_add_one, hb]
    rfl

/-- A call that goes on has come to the next buffer of the stream. -/
theorem RxInv.next {cfg : RxConfig} {s : RxSys} {c : RxCall} {maxCount : ℕ}
    (h : RxInv cfg { s with side := c.side }) (hgo : rxGoOn maxCount c = true) :
    ∃ b p, s.stream.drop c.side.seen = b :: p ∧
      (c.side.desc c.side.rxNextDescIndex).opts1 = b.opts1 ∧
      b.data <+: (c.side.asm.mbuf (c.side.asm.bufMbuf c.side.rxNextDescIndex)).data := by
  have hfirst : rxIndex c.side 0 = c.side.rxNextDescIndex := slot_zero h.index_lt
  have hown : (rxAt c.side 0).own = false := by
    rw [rxAt, hfirst]
    simp only [rxGoOn, Bool.and_eq_true, Bool.not_eq_true'] at hgo
    exact hgo.1
  have hring : RingHolds c.side (s.stream.drop c.side.seen) := h.ring
  cases hp : s.stream.drop c.side.seen with
  | nil =>
      rw [hp] at hring
      rw [hring.own 0 (le_refl 0) (by decide)] at hown
      exact absurd hown (by decide)
  | cons b p =>
      rw [hp] at hring
      refine ⟨b, p, rfl, ?_, ?_⟩
      · rw [← hfirst]
        exact hring.desc 0 b rfl
      · rw [← hfirst]
        exact hring.data 0 b rfl

/-- The outcome a buffer of the stream brings along. -/
theorem RxSys.alloc_of_drop {s : RxSys} {n : ℕ} {b : RxBuf} {p : List RxBuf}
    (h : s.stream.drop n = b :: p) : s.alloc n = b.alloc := by
  rw [RxSys.alloc, (next_of_drop h).1]
  rfl

/-- **One round of `rxInterrupt`** handles the next buffer of the stream. -/
theorem rxInv_round {cfg : RxConfig} (hpage : 4 ≤ cfg.pageSize) {s : RxSys} {c : RxCall} {maxCount : ℕ}
    (h : RxInv cfg { s with side := c.side }) (hgo : rxGoOn maxCount c = true) :
    RxInv cfg { s with side := (rxInterruptStep cfg s.alloc c).side } := by
  obtain ⟨b, p, hp, hword, hdata⟩ := h.next hgo
  obtain ⟨hb, htail, htake⟩ := next_of_drop hp
  have hring : RingHolds c.side (s.stream.drop c.side.seen) := h.ring
  rw [hp] at hring
  refine ⟨?_, (List.getElem?_eq_some_iff.mp hb).1, ?_, ?_, h.addressed.round s.alloc h.index_lt,
    h.writes, h.resyncs, ?_⟩
  · show (c.side.rxNextDescIndex + 1) &&& kRxDescMask < kNumRxDesc
    rw [and_kRxDescMask]
    exact Nat.mod_lt _ (by decide)
  · have hchip : s.chipNext = rxIndex c.side (s.stream.drop c.side.seen).length := h.chip
    show s.chipNext = rxIndex (rxInterruptStep cfg s.alloc c).side
      (s.stream.drop (c.side.seen + 1)).length
    rw [htail, hchip, hp, List.length_cons, rxIndex_step]
  · show RingHolds _ (s.stream.drop (c.side.seen + 1))
    rw [htail]
    exact hring.handled h.assembled.owned h.index_lt
  · show Assembled cfg (s.stream.take (c.side.seen + 1)) (c.handle 0x3fff cfg.maxCopySize s.alloc).asm
    rw [htake, RxCall.handle, RxSys.alloc_of_drop hp]
    exact Assembled.handle h.assembled hpage h.index_lt hword hdata (h.writes _ b hb)
      (h.resyncs _ b hb)

/-- **A call is its rounds**: what holds at its start and is kept by each of them holds at its end. -/
theorem rxInterrupt_rounds {cfg : RxConfig} (hpage : 4 ≤ cfg.pageSize) {s : RxSys} (h : RxInv cfg s)
    (maxCount : ℕ) {P : RxCall → Prop} (hstart : P (.start s.side))
    (hround : ∀ c, RxInv cfg { s with side := c.side } → rxGoOn maxCount c = true → P c →
      P (rxInterruptStep cfg s.alloc c)) :
    ∃ c, rxStep cfg s (.interrupt maxCount) = { s with side := c.side } ∧ rxGoOn maxCount c = false ∧
      RxInv cfg { s with side := c.side } ∧ P c := by
  obtain ⟨k, hk, hstop⟩ := rxInterrupt_stopsAt cfg s.alloc h.index_lt maxCount
  have hrun : rxInterrupt cfg s.alloc maxCount kNumRxDesc s.side =
      some ((rxInterruptStep cfg s.alloc)^[k] (.start s.side)) :=
    whileFuel_eq_some_iff.mpr ⟨k, hk, hstop, rfl⟩
  have hrounds : ∀ j ≤ k,
      RxInv cfg { s with side := ((rxInterruptStep cfg s.alloc)^[j] (.start s.side)).side } ∧
        P ((rxInterruptStep cfg s.alloc)^[j] (.start s.side)) := by
    intro j
    induction j with
    | zero => exact fun _ => ⟨h, hstart⟩
    | succ j ih =>
        intro hj
        obtain ⟨hinv, hP⟩ := ih (by omega)
        rw [Function.iterate_succ_apply']
        exact ⟨rxInv_round hpage hinv (hstop.1 j hj), hround _ hinv (hstop.1 j hj) hP⟩
  obtain ⟨hinv, hP⟩ := hrounds k (le_refl k)
  refine ⟨_, ?_, hstop.2, hinv, hP⟩
  rw [rxStep, hrun]

theorem rxInv_interrupt {cfg : RxConfig} (hpage : 4 ≤ cfg.pageSize) {s : RxSys} (h : RxInv cfg s)
    (maxCount : ℕ) : RxInv cfg (rxStep cfg s (.interrupt maxCount)) := by
  obtain ⟨c, hc, -, hinv, -⟩ := rxInterrupt_rounds hpage h maxCount (P := fun _ => True) trivial
    fun _ _ _ _ => trivial
  rw [hc]
  exact hinv

/-- **Every completion and every call keeps the invariant.** -/
theorem rxInv_step {cfg : RxConfig} (hpage : 4 ≤ cfg.pageSize) (s : RxSys) (op : RxOp) (h : RxInv cfg s)
    (hok : ChipOk cfg s op ∧ ResyncOk cfg s op) : RxInv cfg (rxStep cfg s op) := by
  cases op with
  | complete b => exact rxInv_complete h hok.1.1 hok.1.2.1 hok.1.2.2 hok.2
  | interrupt maxCount => exact rxInv_interrupt hpage h maxCount

/-- The invariant says what was passed on. -/
theorem RxInv.soundDelivery {cfg : RxConfig} {s : RxSys} (h : RxInv cfg s) : SoundDelivery cfg s := by
  have hsub : (framesOf (s.stream.take s.side.seen)).1 <+: (framesOf s.stream).1 := by
    have := cut_finished_append (p := RxBuf.last) (s.stream.take s.side.seen)
      (s.stream.drop s.side.seen)
    rwa [List.take_append_drop] at this
  refine ⟨_, List.filter_sublist.trans hsub.sublist, fun f hf => ?_, h.assembled.delivered⟩
  obtain ⟨hmem, hgood⟩ := List.mem_filter.mp hf
  exact ⟨(wholeFrame_of_chipWrites h.writes).1 f (hsub.subset hmem), by simpa [allGood] using hgood⟩

/-- **Kext receive soundness.**  In every run in which the chip fills the ring as it does, and no
frame arrives whose last buffer is good while an earlier one is not, every packet passed on is one
received frame: its bytes from `FirstFrag` to `LastFrag` without the FCS, with that length. -/
theorem rxInterrupt_delivers_frames (cfg : RxConfig)
    (hpage : cfg.pageSize = 4096 ∨ cfg.pageSize = 16384) (ops : List RxOp)
    (h : Along (rxStep cfg) (fun s op => ChipOk cfg s op ∧ ResyncOk cfg s op) (rxSetup cfg) ops) :
    SoundDelivery cfg (exec (rxStep cfg) (rxSetup cfg) ops) := by
  have hfour : 4 ≤ cfg.pageSize := by omega
  exact (invariant_along (rxInv_step hfour) (rxSetup_inv cfg) h).soundDelivery

/-! ### A frame of two buffers -/

theorem page4k_distinctPages (s : RxAssembly) : DistinctPages page4k s := fun _ _ _ _ h => h

/-- The first buffer of a 4160-byte frame, and its last. -/
def firstHalf (a : Alloc) : RxBuf := ⟨firstFrag ||| 4096, 0, List.replicate 4096 0x11, a⟩
def lastHalf : RxBuf := ⟨lastFrag ||| 64, 0, List.replicate 64 0x22, .single⟩

theorem firstHalf_last (a : Alloc) : (firstHalf a).last = false :=
  (by decide : (firstHalf .single).last = false)

theorem framesOf_firstHalf (a : Alloc) : framesOf [firstHalf a] = ([], [firstHalf a]) :=
  cut_snoc_more [] (firstHalf_last a)

theorem firstHalf_chipWrites (a : Alloc) : ChipWrites page4k [] (firstHalf a) where
  done := (by decide : (firstHalf .single).desc.own = false)
  first := ⟨fun _ => rfl, fun _ => (by decide : (firstHalf .single).first = true)⟩
  len := fun _ => (by decide : rxLen 0x3fff (firstHalf .single).desc = 4096).trans
    List.length_replicate.symm
  full := fun _ _ => List.length_replicate
  fcs := fun _ h => absurd h (by rw [firstHalf_last]; decide)

theorem lastHalf_chipWrites (a : Alloc) : ChipWrites page4k [firstHalf a] lastHalf where
  done := by decide
  first := by
    rw [framesOf_firstHalf]
    exact ⟨fun h => absurd h (by decide), fun h => absurd h (List.cons_ne_nil _ _)⟩
  len := fun _ => by decide
  full := fun _ h => absurd h (by decide)
  fcs := fun _ _ => by
    rw [framesOf_firstHalf, List.map_append, List.flatten_append, List.length_append,
      List.map_singleton, List.map_singleton, List.flatten_singleton, List.flatten_singleton,
      show lastHalf.data.length = 64 from List.length_replicate]
    omega

theorem rxInterrupt_delivers_frames_two_calls :
    SoundDelivery page4k (exec (rxStep page4k) (rxSetup page4k)
      [.complete (firstHalf .single), .interrupt 1, .complete lastHalf, .interrupt 1]) ∧
    (exec (rxStep page4k) (rxSetup page4k)
      [.complete (firstHalf .single), .interrupt 1, .complete lastHalf,
        .interrupt 1]).side.asm.delivered.map Prod.snd = [4156] := by
  refine ⟨rxInterrupt_delivers_frames page4k (Or.inl rfl) _
    ⟨⟨⟨?_, page4k_distinctPages _, firstHalf_chipWrites _⟩, ?_⟩, ⟨trivial, trivial⟩,
      ⟨⟨?_, page4k_distinctPages _, lastHalf_chipWrites _⟩, ?_⟩, ⟨trivial, trivial⟩, trivial⟩, ?_⟩
  · decide +kernel
  · exact fun h => absurd h (by decide)
  · decide +kernel
  · intro _ _ x hx
    rw [List.mem_singleton.mp hx]
    decide
  · decide +kernel

theorem rxStep_interrupt_stream (cfg : RxConfig) (s : RxSys) (maxCount : ℕ) :
    (rxStep cfg s (.interrupt maxCount)).stream = s.stream := by
  rw [rxStep]
  split <;> rfl

/-- The driver has no mbuf for the first buffer and drops it; the second one completes a packet. -/
theorem failed_first_buffer_delivers_rest :
    Along (rxStep page4k) (ChipOk page4k) (rxSetup page4k)
      [.complete (firstHalf .failed), .complete lastHalf, .interrupt kNumRxDesc] ∧
    ¬ SoundDelivery page4k (exec (rxStep page4k) (rxSetup page4k)
      [.complete (firstHalf .failed), .complete lastHalf, .interrupt kNumRxDesc]) := by
  refine ⟨⟨⟨?_, page4k_distinctPages _, firstHalf_chipWrites _⟩,
    ⟨?_, page4k_distinctPages _, lastHalf_chipWrites _⟩, trivial, trivial⟩, ?_⟩
  · decide +kernel
  · decide +kernel
  · rintro ⟨fs, hsub, hgood, hdel⟩
    have hone : fs.length = 1 := by
      rw [← fs.length_map frameView, ← hdel]
      decide +kernel
    obtain ⟨f, rfl⟩ := List.length_eq_one_iff.mp hone
    have hmem := hsub.subset (List.mem_singleton_self f)
    simp only [exec, rxStep_interrupt_stream] at hmem
    have hf : f = [firstHalf .failed, lastHalf] := List.mem_singleton.mp hmem
    have hfirst := (hgood f (List.mem_singleton_self f)).2 (firstHalf .failed) (by rw [hf]; simp)
    exact absurd hfirst (by decide)

end Rtl812x.Kext
