import Rtl812x.Lib.Runs
import Rtl812x.Dext.RxRun

/-!
# Receive descriptor ownership

`RxOwned` says that the chip writes only into buffers the driver holds for it: while the receive
engine is enabled, every descriptor of the chip has a packet in its slot and carries that packet's
address, and no packet is at two places.

The driver keeps it except after a disable.  `setInterfaceEnable(false)` gives the ring's packets
back to the pool and empties the slots, but leaves `DescOwn` set in their descriptors; a later
`setInterfaceEnable(true)` refills the ring only as far as packets can be obtained, and then starts
the engine (`disable_leaves_stale_descriptor`).

* `RxSupplied` — an enable obtains a packet for every descriptor left behind;
* `rxDescriptors_owned` — **in every run whose enables are supplied, the chip owns only
  descriptors with a packet.**
-/

namespace Rtl812x.Dext

open Runs Slots

/-! ### The property -/

/-- Every place a receive packet can be. -/
def RxSide.everyPkt (s : RxSide) : List (Option ℕ) :=
  s.ringPkts.map some ++ s.rxFreeFifo.contents ++ s.rxDoneFifo.contents ++ s.rxPool.map some ++
    s.framework.map some

/-- The chip's descriptors are backed by packets the driver holds, and packets are distinct. -/
structure RxOwned (iova : ℕ → ℕ) (d : Driver) : Prop where
  backed : d.rxOn → ∀ i < kNumRxDesc, (d.rx.rxRing i).own = true →
    ∃ p, d.rx.rxPkt i = some p ∧ (d.rx.rxRing i).addr = iova p
  distinct : d.rx.everyPkt.Nodup

/-! ### Steps -/

/-- A step of a run: the driver's functions, the chip completing a descriptor, and the framework
exchanging packets with the pool. -/
inductive RxOp where
  | enable (on : Bool) (phy phy' : UInt32)
  | service
  | refill
  | rearm
  | dequeue (packets : List ℕ)
  | enqueue (arrayCapacity : ℕ)
  | link (phy phy' : UInt32)
  | chipComplete (i : ℕ) (opts1 opts2 : UInt32)
  | frameworkAlloc (k : ℕ)
  | frameworkFree (p : ℕ)

/-- The framework takes the `k`-th packet of the pool. -/
def frameworkAlloc (k : ℕ) (s : RxSide) : RxSide :=
  match s.rxPool[k]? with
  | none => s
  | some p => { s with rxPool := s.rxPool.eraseIdx k, framework := p :: s.framework }

def frameworkFree (p : ℕ) (s : RxSide) : RxSide :=
  { s with framework := s.framework.erase p, rxPool := s.rxPool ++ [p] }

/-- One step.  A link change is handled only while the interface is enabled, as in
`InterruptOccurred`. -/
def rxStep (c : Config) (d : Driver) : RxOp → Driver
  | .enable on phy phy' => setInterfaceEnable c on phy phy' d
  | .service => { d with rx := rxRingService c.iova c.outcome d.rx }
  | .refill => { d with rx := (rxRingRefill c.iova c.outcome d.rx).2 }
  | .rearm => { d with rx := rxRingRearm c.iova c.outcome d.rx }
  | .dequeue packets => { d with rx := (rxDequeueAction packets d.rx).2 }
  | .enqueue capacity => { d with rx := (rxEnqueueAction capacity d.rx).2 }
  | .link phy phy' => if d.interfaceEnabled then updateLinkStatus c phy phy' d else d
  | .chipComplete i opts1 opts2 => { d with rx := chipComplete i opts1 opts2 d.rx }
  | .frameworkAlloc k => { d with rx := frameworkAlloc k d.rx }
  | .frameworkFree p => { d with rx := frameworkFree p d.rx }

/-- The chip completes only descriptors it owns while its engine is enabled, and clears `DescOwn`;
the framework submits and frees only packets it holds. -/
def RxPromise (d : Driver) : RxOp → Prop
  | .dequeue packets => packets.Nodup ∧ ∀ p ∈ packets, p ∈ d.rx.framework
  | .chipComplete i opts1 _ =>
    d.rxOn ∧ i < kNumRxDesc ∧ (d.rx.rxRing i).own = true ∧ opts1 &&& descOwn = 0
  | .frameworkFree p => p ∈ d.rx.framework
  | _ => True

/-- When the interface is enabled, a packet can be obtained for every descriptor that still
belongs to the chip and for every empty slot before it. -/
def RxSupplied (c : Config) (d : Driver) : RxOp → Prop
  | .enable on _ _ => on = true → ∀ i < kNumRxDesc, (d.rx.rxRing i).own = true →
      d.rx.rxPkt i = none →
      Obtainable c.outcome d.rx ((List.range (i + 1)).countP fun j => d.rx.rxPkt j = none)
  | _ => True

/-! ### The invariant -/

/-- The receive ring is in a state in which the engine may run. -/
structure RxReady (iova : ℕ → ℕ) (s : RxSide) : Prop where
  good : RxGood iova s
  next_lt : s.rxNextDescIndex < kNumRxDesc
  noStale : NoStale s

/-- What holds in every state of a supplied run. -/
structure RxInv (c : Config) (d : Driver) : Prop where
  good : RxGood c.iova d.rx
  next_lt : d.rx.rxNextDescIndex < kNumRxDesc
  noStale : d.interfaceEnabled = true → NoStale d.rx
  on_enabled : d.rxOn → d.interfaceEnabled = true

variable {c : Config} {d : Driver} {iova : ℕ → ℕ} {s : RxSide} {phy phy' : UInt32}

theorem RxInv.init (c : Config) : RxInv c Driver.init where
  good := RxGood.init c.iova
  next_lt := kNumRxDesc_pos
  noStale h := by cases h
  on_enabled h := absurd h (by decide)

/-- **The invariant is ownership.** -/
theorem RxInv.owned (h : RxInv c d) : RxOwned c.iova d where
  backed hon i hi hown := by
    obtain ⟨p, hp⟩ := Option.ne_none_iff_exists'.mp (h.noStale (h.on_enabled hon) i hi hown)
    exact ⟨p, hp, h.good.addr i p hp⟩
  distinct := by
    obtain ⟨free, done, hfree, hdone, hperm⟩ := h.good.placed
    have hevery : d.rx.everyPkt
        = (d.rx.ringPkts ++ (free ++ (done ++ (d.rx.rxPool ++ d.rx.framework)))).map some := by
      rw [RxSide.everyPkt, hfree.contents_eq, hdone.contents_eq]
      simp
    rw [hevery]
    exact ((hperm.nodup_iff).mpr List.nodup_range).map (Option.some_injective _)

theorem RxReady.restart (h : RxReady iova s) : RxReady iova { s with rxNextDescIndex := 0 } :=
  ⟨h.good.congr rfl rfl rfl rfl rfl rfl, kNumRxDesc_pos, h.noStale.congr rfl rfl⟩

theorem RxReady.rxRequestDequeue (h : RxReady iova s) : RxReady iova (rxRequestDequeue s) :=
  ⟨h.good.congr rfl rfl rfl rfl rfl rfl, h.next_lt, h.noStale.congr rfl rfl⟩

theorem RxReady.rxRingRearm (outcome : ℕ → Option ℕ) (h : RxReady iova s) :
    RxReady iova (rxRingRearm iova outcome s) := by
  refine ⟨h.good.rxRingRearm, ?_, h.noStale.rxRingRearm⟩
  rw [rxRingRearm_next]
  exact kNumRxDesc_pos

/-- A link change keeps the ring ready. -/
theorem RxReady.updateLinkStatus (h : RxReady c.iova d.rx) :
    RxReady c.iova (updateLinkStatus c phy phy' d).rx := by
  unfold Dext.updateLinkStatus
  split
  · rcases linkOn_rx c phy d with he | he
    · rw [he]
      exact h.restart
    · rw [he]
      exact h.restart.rxRequestDequeue
  · split
    · split
      · exact h
      · rw [linkOff_rx]
        exact h.rxRingRearm c.outcome
    · exact h

theorem RxInv.ready (h : RxInv c d) (hen : d.interfaceEnabled = true) : RxReady c.iova d.rx :=
  ⟨h.good, h.next_lt, h.noStale hen⟩

/-- An enabled driver with a ready ring satisfies the invariant. -/
theorem RxReady.inv (h : RxReady c.iova d.rx) (hen : d.interfaceEnabled = true) : RxInv c d :=
  ⟨h.good, h.next_lt, fun _ => h.noStale, fun _ => hen⟩

/-- A step on the receive side alone. -/
theorem RxInv.of_rx (h : RxInv c d) (hgood : RxGood c.iova s) (hnext : s.rxNextDescIndex < kNumRxDesc)
    (hstale : NoStale d.rx → NoStale s) : RxInv c { d with rx := s } :=
  ⟨hgood, hnext, fun hen => hstale (h.noStale hen), h.on_enabled⟩

/-! ### Each step keeps it -/

/-- A supplied enable makes the ring ready before it starts the engine. -/
theorem RxInv.startEngines (h : RxInv c d)
    (hsup : ∀ i < kNumRxDesc, (d.rx.rxRing i).own = true → d.rx.rxPkt i = none →
      Obtainable c.outcome d.rx ((List.range (i + 1)).countP fun j => d.rx.rxPkt j = none)) :
    RxReady c.iova (startEngines c d).rx := by
  have hgood : RxGood c.iova { d.rx with rxNextDescIndex := 0 } :=
    h.good.congr rfl rfl rfl rfl rfl rfl
  rw [startEngines_rx]
  apply RxReady.rxRequestDequeue
  refine ⟨hgood.rxRingRefill, ?_, NoStale.of_obtainable hgood hsup⟩
  rw [rxRingRefill_next]
  exact kNumRxDesc_pos

theorem RxInv.enable (h : RxInv c d) (phy phy' : UInt32)
    (hsup : ∀ i < kNumRxDesc, (d.rx.rxRing i).own = true → d.rx.rxPkt i = none →
      Obtainable c.outcome d.rx ((List.range (i + 1)).countP fun j => d.rx.rxPkt j = none)) :
    RxInv c (setInterfaceEnable c true phy phy' d) := by
  have hready : RxReady c.iova (Dext.updateLinkStatus c phy phy' (Dext.startEngines c d)).rx :=
    (h.startEngines hsup).updateLinkStatus
  refine hready.inv (d := setInterfaceEnable c true phy phy' d) ?_
  show (Dext.updateLinkStatus c phy phy' (Dext.startEngines c d)).interfaceEnabled = true
  rw [updateLinkStatus_interfaceEnabled, startEngines_interfaceEnabled]

/-- Disabling stops the engine; the descriptors it leaves behind do no harm until then. -/
theorem RxInv.disable (h : RxInv c d) (phy phy' : UInt32) :
    RxInv c (setInterfaceEnable c false phy phy' d) := by
  have hrx : (setInterfaceEnable c false phy phy' d).rx = rxRingDrop d.rx := by
    simp [setInterfaceEnable, rtl812xDisable, writeImr0]
  have hoff : (setInterfaceEnable c false phy phy' d).interfaceEnabled = false := by
    simp [setInterfaceEnable, rtl812xDisable, writeImr0]
  have hcmd : (setInterfaceEnable c false phy phy' d).chip.chipCmd = 0 := rfl
  refine ⟨?_, ?_, ?_, ?_⟩
  · rw [hrx]
    exact h.good.rxRingDrop
  · rw [hrx]
    exact h.next_lt
  · intro hen
    rw [hoff] at hen
    cases hen
  · intro hon
    rw [Driver.rxOn, hcmd] at hon
    exact absurd hon (by decide)

theorem RxGood.chipComplete {i : ℕ} {opts1 opts2 : UInt32} (h : RxGood iova s) :
    RxGood iova (chipComplete i opts1 opts2 s) := by
  obtain ⟨⟨free, done, hplaced⟩, haddr⟩ := h
  refine ⟨⟨free, done, hplaced.free_eq, hplaced.done_eq, hplaced.perm⟩, ?_⟩
  intro j p hp
  simp only [Dext.chipComplete]
  by_cases hji : j = i
  · subst hji
    rw [Function.update_self]
    exact haddr j p hp
  · rw [Function.update_of_ne hji]
    exact haddr j p hp

theorem NoStale.chipComplete {i : ℕ} {opts1 opts2 : UInt32} (h : NoStale s)
    (hown : opts1 &&& descOwn = 0) : NoStale (chipComplete i opts1 opts2 s) := by
  intro j hj hjown
  simp only [Dext.chipComplete] at hjown
  by_cases hji : j = i
  · subst hji
    rw [Function.update_self, RxDesc.own, hown] at hjown
    cases hjown
  · rw [Function.update_of_ne hji] at hjown
    exact h j hj hjown

theorem RxGood.frameworkAlloc {k : ℕ} (h : RxGood iova s) : RxGood iova (frameworkAlloc k s) := by
  obtain ⟨⟨free, done, hfree, hdone, hperm⟩, haddr⟩ := h
  unfold Dext.frameworkAlloc
  split
  · exact ⟨⟨free, done, hfree, hdone, hperm⟩, haddr⟩
  · rename_i p hk
    have hpool := perm_eraseIdx hk
    refine ⟨⟨free, done, hfree, hdone, ?_⟩, haddr⟩
    refine List.Perm.trans ?_ hperm
    rw [List.perm_iff_count] at hpool ⊢
    intro a
    have hcount := hpool a
    simp only [RxSide.ringPkts, List.count_cons, List.count_append] at hcount ⊢
    omega

theorem RxGood.frameworkFree {p : ℕ} (h : RxGood iova s) (hp : p ∈ s.framework) :
    RxGood iova (frameworkFree p s) := by
  obtain ⟨⟨free, done, hfree, hdone, hperm⟩, haddr⟩ := h
  have hfw := List.perm_cons_erase hp
  refine ⟨⟨free, done, hfree, hdone, ?_⟩, haddr⟩
  refine List.Perm.trans ?_ hperm
  rw [List.perm_iff_count] at hfw ⊢
  intro a
  have hcount := hfw a
  simp only [RxSide.ringPkts, Dext.frameworkFree, List.count_cons, List.count_append,
    List.count_nil] at hcount ⊢
  omega

/-- **Every step keeps the invariant**, enables being supplied. -/
theorem RxInv.rxStep (d : Driver) (op : RxOp) (h : RxInv c d)
    (hop : RxPromise d op ∧ RxSupplied c d op) : RxInv c (rxStep c d op) := by
  obtain ⟨hpromise, hsup⟩ := hop
  cases op with
  | enable on phy phy' =>
      cases on with
      | true => exact h.enable phy phy' (hsup rfl)
      | false => exact h.disable phy phy'
  | service =>
      exact h.of_rx (h.good.rxRingService h.next_lt) (rxRingService_next_lt _ _ h.next_lt)
        NoStale.rxRingService
  | refill =>
      refine h.of_rx h.good.rxRingRefill ?_ NoStale.rxRingRefill
      rw [rxRingRefill_next]
      exact h.next_lt
  | rearm =>
      refine h.of_rx h.good.rxRingRearm ?_ NoStale.rxRingRearm
      rw [rxRingRearm_next]
      exact kNumRxDesc_pos
  | dequeue packets =>
      refine h.of_rx (h.good.rxDequeueLoop hpromise.1 hpromise.2) ?_ NoStale.rxDequeueLoop
      rw [rxDequeueAction, rxDequeueLoop_next]
      exact h.next_lt
  | enqueue capacity =>
      refine h.of_rx h.good.rxEnqueueAction ?_ NoStale.rxEnqueueAction
      rw [rxEnqueueAction_next]
      exact h.next_lt
  | link phy phy' =>
      rw [Dext.rxStep]
      split
      · rename_i hen
        refine (h.ready hen).updateLinkStatus.inv ?_
        rw [updateLinkStatus_interfaceEnabled]
        exact hen
      · exact h
  | chipComplete i opts1 opts2 =>
      exact h.of_rx h.good.chipComplete h.next_lt fun hs => hs.chipComplete hpromise.2.2.2
  | frameworkAlloc k =>
      refine h.of_rx h.good.frameworkAlloc ?_ ?_
      · unfold Dext.frameworkAlloc
        split <;> exact h.next_lt
      · intro hs
        unfold Dext.frameworkAlloc
        split
        · exact hs
        · exact hs.congr rfl rfl
  | frameworkFree p =>
      exact h.of_rx (h.good.frameworkFree hpromise) h.next_lt fun hs => hs.congr rfl rfl

/-- **Receive descriptor ownership.**  In every run whose enables obtain a packet for each
descriptor the chip still owns, every state reached has the chip's descriptors backed by packets
the driver holds, and no packet at two places. -/
theorem rxDescriptors_owned (c : Config) (ops : List RxOp)
    (hrun : Along (rxStep c) (fun d op => RxPromise d op ∧ RxSupplied c d op) Driver.init ops) :
    RxOwned c.iova (exec (rxStep c) Driver.init ops) :=
  (invariant_along RxInv.rxStep (RxInv.init c) hrun).owned

/-- **A disable leaves a stale descriptor**: enabled again while the pool is empty, the engine
runs with descriptor 0 owned by the chip and no packet in its slot. -/
theorem disable_leaves_stale_descriptor :
    Along (rxStep shortPoolConfig) RxPromise Driver.init
        [.enable true 0 0, .enable false 0 0, .enable true 0 0] ∧
      ¬ RxOwned shortPoolConfig.iova (exec (rxStep shortPoolConfig) Driver.init
        [.enable true 0 0, .enable false 0 0, .enable true 0 0]) := by
  refine ⟨⟨trivial, trivial, trivial, trivial⟩, ?_⟩
  intro h
  obtain ⟨p, hp, -⟩ := h.backed (by decide) 0 (by decide) (by decide +kernel)
  have hnone : (exec (rxStep shortPoolConfig) Driver.init
      [.enable true 0 0, .enable false 0 0, .enable true 0 0]).rx.rxPkt 0 = none := by
    decide +kernel
  rw [hnone] at hp
  cases hp

/-- Ownership through an enable, one received frame and its service. -/
theorem rxDescriptors_owned_one_frame :
    RxOwned shortPoolConfig.iova (exec (rxStep shortPoolConfig) Driver.init
      [.enable true 0 0, .chipComplete 0 0x30000040 0, .service]) := by
  refine rxDescriptors_owned shortPoolConfig _ ⟨⟨trivial, ?_⟩, ⟨⟨by decide, by decide,
    by decide +kernel, by decide⟩, trivial⟩, ⟨trivial, trivial⟩, trivial⟩
  -- nothing belongs to the chip before the first enable
  intro _ i _ hown
  have hzero : (Driver.init.rx.rxRing i).own = (RxDesc.mk 0 0 0).own := rfl
  rw [hzero] at hown
  exact absurd hown (by decide)

end Rtl812x.Dext
