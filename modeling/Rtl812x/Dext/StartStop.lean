import Mathlib.Data.List.FinRange
import Rtl812x.Lib.Handles
import Rtl812x.Hw.Regs

/-!
# What the dext acquires in `Start`

`Start` acquires what the driver works with, one call after the other, and goes to `fail` at the first
call that fails; there it closes the device, and releases nothing.  `allocDmaBuffer` cleans up after
itself.  The statistics timer is optional: the driver does without it.

* `Resource`, `StartCalls` — what is acquired, and which calls succeed;
* `start`, `free` — the functions, on a table of handles;
* `Up` — how far `start` has got: **what was acquired is held, the rest is untouched**; one rule for each
  kind of call (`Up.orFail_call`, `Up.orFail_alloc`, `Up.orFail_pair`, …);
* `start_up` — a `start` that succeeds holds everything; `start_failed` — one that fails after the BAR's
  memory was acquired still holds it, `start_early` — one that fails before holds nothing.
-/

namespace Rtl812x.Dext.StartStop

open Handles

/-- `kNumTxQueues`. -/
abbrev TxQueue := Fin 4

inductive Resource where
  | pciOpen
  | barMd
  | barMap
  | txRingMd
  | txRingDma
  | rxRingMd
  | rxRingDma
  | statMd
  | statDma
  | workQueue
  | intSource
  | intAction
  | statsTimer
  | statsAction
  | txPool
  | rxPool
  | txLock
  | txSubQueue (i : TxQueue)
  | txCompQueue (i : TxQueue)
  | rxSubQueue
  | rxCompQueue
  /-- a packet that a slot of the receive ring holds -/
  | rxPkt (i : Fin kNumRxDesc)
  /-- a packet that a slot of the transmit ring holds -/
  | txPkt (i : Fin kNumTxDesc)
  deriving DecidableEq

abbrev Table := Resource → Handle

/-! ### `Start` -/

/-- The calls of `allocDmaBuffer`: the memory, the DMA command, and its preparation as one segment. -/
structure DmaCalls where
  md : Bool
  cmd : Bool
  prepare : Bool

/-- Which calls succeed.  `bar` says that some BAR has a readable `TxConfig`, `chip` that `rtl812xInit`
knows the chip. -/
structure StartCalls where
  superStart : Bool
  provider : Bool
  openDevice : Bool
  bar : Bool
  barMd : Bool
  barMap : Bool
  chip : Bool
  txRing : DmaCalls
  rxRing : DmaCalls
  stat : DmaCalls
  workQueue : Bool
  configureInterrupts : Bool
  intSource : Bool
  intAction : Bool
  statsTimer : Bool
  statsAction : Bool
  txPool : Bool
  rxPool : Bool
  txLock : Bool
  txSubQueue : TxQueue → Bool
  txCompQueue : TxQueue → Bool
  rxSubQueue : Bool
  rxCompQueue : Bool
  register : Bool

/-- A call whose result goes into a member variable. -/
def call (r : Resource) (ok : Bool) (t : Table) : Bool × Table := (ok, take r ok t)

/-- `allocDmaBuffer`: what was acquired is released again if the buffer cannot be prepared. -/
def allocDmaBuffer (md dma : Resource) (k : DmaCalls) (t : Table) : Bool × Table :=
  orGoto (call md k.md t) (fun t => (false, t)) fun t =>
  orGoto (call dma k.cmd t) (fun t => (false, drop md t)) fun t =>
  orGoto (k.prepare, t) (fun t => (false, drop md (drop dma t))) fun t => (true, t)

/-- The statistics timer, and its action if there is a timer. -/
def startStatsTimer (c : StartCalls) (t : Table) : Table :=
  if c.statsTimer then take .statsAction c.statsAction (take .statsTimer true t)
  else take .statsTimer false t

/-- Two queues: both are asked for before either is looked at. -/
def queuePair (sub comp : Resource) (ok ok' : Bool) (t : Table) : Bool × Table :=
  (ok && ok', take comp ok' (take sub ok t))

/-- The label `fail`. -/
def fail (t : Table) : Bool × Table := (false, drop .pciOpen t)

/-- The loop over the transmit queues, and what follows it. -/
def startTxQueues (c : StartCalls) (next : Table → Bool × Table) : List TxQueue → Table → Bool × Table
  | [], t => next t
  | i :: is, t =>
      orGoto (queuePair (.txSubQueue i) (.txCompQueue i) (c.txSubQueue i) (c.txCompQueue i) t) fail
        (startTxQueues c next is)

/-- From the receive queues on. -/
def startRxQueues (c : StartCalls) (t : Table) : Bool × Table :=
  orGoto (queuePair .rxSubQueue .rxCompQueue c.rxSubQueue c.rxCompQueue t) fail fun t =>
  orGoto (c.register, t) fail fun t => (true, t)

/-- From the packet pools on. -/
def startPools (c : StartCalls) (t : Table) : Bool × Table :=
  orGoto (call .txPool c.txPool t) fail fun t =>
  orGoto (call .rxPool c.rxPool t) fail fun t =>
  orGoto (call .txLock c.txLock t) fail fun t =>
  startTxQueues c (startRxQueues c) (List.finRange 4) t

/-- From the BAR's mapping on. -/
def startMapped (c : StartCalls) (t : Table) : Bool × Table :=
  orGoto (call .barMap c.barMap t) fail fun t =>
  orGoto (c.chip, t) fail fun t =>
  orGoto (allocDmaBuffer .txRingMd .txRingDma c.txRing t) fail fun t =>
  orGoto (allocDmaBuffer .rxRingMd .rxRingDma c.rxRing t) fail fun t =>
  orGoto (allocDmaBuffer .statMd .statDma c.stat t) fail fun t =>
  orGoto (call .workQueue c.workQueue t) fail fun t =>
  orGoto (c.configureInterrupts, t) fail fun t =>
  orGoto (call .intSource c.intSource t) fail fun t =>
  orGoto (call .intAction c.intAction t) fail fun t =>
  startPools c (startStatsTimer c t)

/-- `Start`, of an object whose member variables are null. -/
def start (c : StartCalls) : Bool × Table :=
  orGoto (c.superStart, fun _ => Handle.null) (fun t => (false, t)) fun t =>
  orGoto (c.provider, t) fail fun t =>
  orGoto (call .pciOpen c.openDevice t) fail fun t =>
  orGoto (c.bar, t) fail fun t =>
  orGoto (call .barMd c.barMd t) fail (startMapped c)

/-- `free`. -/
def free (t : Table) : Table := drop .workQueue t

/-! ### How far `Start` has got -/

/-- What the driver does without. -/
def Resource.optional : Resource → Bool
  | statsTimer => true
  | statsAction => true
  | _ => false

/-- The resources `rs` have been asked for and are held, if they are not optional; the others have not
been touched. -/
structure Up (rs : List Resource) (t : Table) : Prop where
  even : ∀ r, (t r).Even
  held : ∀ r ∈ rs, r.optional = false → (t r).ptr = true
  fresh : ∀ r, r ∉ rs → t r = .null

/-- What is left of `rs` after a failure. -/
structure Failed (rs : List Resource) (t : Table) : Prop where
  even : ∀ r, (t r).Even
  closed : (t .pciOpen).ptr = false
  kept : ∀ r ∈ rs, r ≠ .pciOpen → r.optional = false → (t r).ptr = true

theorem up_null : Up [] fun _ => Handle.null := ⟨fun _ => Handle.even_null, nofun, fun _ _ => rfl⟩

section Calls

variable {rs : List Resource} {r : Resource} {t t' : Table} {ok : Bool} {next : Table → Bool × Table}

/-- The label `fail`, with everything of `rs` still held. -/
theorem failed_fail (heven : ∀ r, (t r).Even)
    (hheld : ∀ r ∈ rs, r.optional = false → (t r).ptr = true) : Failed rs (fail t).2 := by
  have hrel : Releases (· = Resource.pciOpen) t (fail t).2 := releases_drop _ t
  refine ⟨fun r => hrel.even (heven r), hrel.null _ rfl, ?_⟩
  intro r hr hne hopt
  rw [hrel.frame r hne]
  exact hheld r hr hopt

theorem Up.failed_fail (h : Up rs t) : Failed rs (fail t).2 := StartStop.failed_fail h.even h.held

/-- A fresh resource is acquired. -/
theorem Up.take (h : Up rs t) (hr : r ∉ rs) : Up (r :: rs) (take r true t) := by
  refine ⟨fun x => even_take (h.even x) (h.fresh r hr) true, ?_, ?_⟩
  · intro x hx hopt
    by_cases hxr : x = r
    · rw [hxr, take_ptr]
    · rw [take_of_ne hxr]
      exact h.held x (List.mem_of_ne_of_mem hxr hx) hopt
  · intro x hx
    obtain ⟨hne, hmem⟩ := List.ne_and_not_mem_of_not_mem_cons hx
    rw [take_of_ne hne]
    exact h.fresh x hmem

/-- A fresh optional resource is acquired, or not. -/
theorem Up.take_optional (h : Up rs t) (hr : r ∉ rs) (hopt : r.optional = true) (ok : Bool) :
    Up (r :: rs) (Handles.take r ok t) := by
  refine ⟨fun x => even_take (h.even x) (h.fresh r hr) ok, ?_, ?_⟩
  · intro x hx hx'
    have hne : x ≠ r := by
      intro heq
      rw [heq, hopt] at hx'
      cases hx'
    rw [take_of_ne hne]
    exact h.held x (List.mem_of_ne_of_mem hne hx) hx'
  · intro x hx
    obtain ⟨hne, hmem⟩ := List.ne_and_not_mem_of_not_mem_cons hx
    rw [take_of_ne hne]
    exact h.fresh x hmem

/-- A call that fails leaves everything as it was. -/
theorem Up.take_false (h : Up rs t) (hr : r ∉ rs) : Handles.take r false t = t := by
  rw [Handles.take, h.fresh r hr]
  exact (congrArg (Function.update t r) (h.fresh r hr).symm).trans (Function.update_eq_self r t)

/-! ### One rule for each kind of call -/

variable {Q : Bool × Table → Prop}

/-- A call that acquires nothing. -/
theorem Up.orFail (h : Up rs t) (hfail : ∀ t', Failed rs t' → Q (false, t')) (hnext : Q (next t)) :
    Q (orGoto (ok, t) fail next) :=
  orGoto_elim (fun _ => hfail _ h.failed_fail) fun _ => hnext

theorem Up.orFail_call (h : Up rs t) (hr : r ∉ rs) (hfail : ∀ t', Failed rs t' → Q (false, t'))
    (hnext : ∀ t', Up (r :: rs) t' → Q (next t')) : Q (orGoto (call r ok t) fail next) := by
  cases ok with
  | false =>
      rw [orGoto_failed rfl, call, h.take_false hr]
      exact hfail _ h.failed_fail
  | true => exact hnext _ (h.take hr)

/-- `allocDmaBuffer` acquires both, or what it has acquired is released. -/
theorem Up.allocDmaBuffer {md dma : Resource} (h : Up rs t) (hmd : md ∉ rs) (hdma : dma ∉ md :: rs)
    (k : DmaCalls) :
    let p := allocDmaBuffer md dma k t
    (p.1 = true → Up (dma :: md :: rs) p.2) ∧
      (p.1 = false → (∀ r, (p.2 r).Even) ∧ ∀ r ∈ rs, r.optional = false → (p.2 r).ptr = true) := by
  obtain ⟨okMd, okCmd, okPrepare⟩ := k
  -- what is released again was not in `rs`
  have hback : ∀ {P : Resource → Prop} {u u' : Table} {rs' : List Resource}, Up rs' u → rs ⊆ rs' →
      Releases P u u' → (∀ r ∈ rs, ¬P r) →
      (∀ r, (u' r).Even) ∧ ∀ r ∈ rs, r.optional = false → (u' r).ptr = true := by
    intro P u u' rs' hu hsub hrel hP
    refine ⟨fun r => hrel.even (hu.even r), fun r hr hopt => ?_⟩
    rw [hrel.frame r (hP r hr)]
    exact hu.held r (hsub hr) hopt
  have hne : ∀ r ∈ rs, r ≠ md ∧ r ≠ dma := by
    intro r hr
    exact ⟨ne_of_mem_of_not_mem hr hmd, ne_of_mem_of_not_mem hr fun hin => hdma (List.mem_cons_of_mem _ hin)⟩
  cases okMd with
  | false =>
      rw [StartStop.allocDmaBuffer, orGoto_failed rfl, call, h.take_false hmd]
      exact ⟨fun hok => absurd hok Bool.false_ne_true, fun _ => ⟨h.even, h.held⟩⟩
  | true =>
      have h' := h.take hmd
      cases okCmd with
      | false =>
          have heq : StartStop.allocDmaBuffer md dma ⟨true, false, okPrepare⟩ t =
              (false, drop md (Handles.take dma false (Handles.take md true t))) := rfl
          rw [heq, h'.take_false hdma]
          exact ⟨fun hok => absurd hok Bool.false_ne_true, fun _ =>
            hback h' (List.subset_cons_self _ _) (releases_drop md _) fun r hr => (hne r hr).1⟩
      | true =>
          have h'' := h'.take hdma
          cases okPrepare with
          | false =>
              refine ⟨fun hok => absurd hok Bool.false_ne_true, fun _ => ?_⟩
              refine hback h'' (fun r hr => List.mem_cons_of_mem _ (List.mem_cons_of_mem _ hr))
                ((releases_drop dma _).trans (releases_drop md _)) fun r hr hor => ?_
              exact hor.elim (hne r hr).2 (hne r hr).1
          | true => exact ⟨fun _ => h'', fun hok => absurd hok.symm Bool.false_ne_true⟩

theorem Up.orFail_alloc {md dma : Resource} {k : DmaCalls} (h : Up rs t) (hmd : md ∉ rs)
    (hdma : dma ∉ md :: rs) (hfail : ∀ t', Failed rs t' → Q (false, t'))
    (hnext : ∀ t', Up (dma :: md :: rs) t' → Q (next t')) :
    Q (orGoto (StartStop.allocDmaBuffer md dma k t) fail next) := by
  obtain ⟨hok, hbad⟩ := h.allocDmaBuffer hmd hdma k
  refine orGoto_elim (fun hres => hfail _ ?_) fun hres => hnext _ (hok hres)
  obtain ⟨heven, hheld⟩ := hbad hres
  exact StartStop.failed_fail heven hheld

theorem Up.orFail_pair {sub comp : Resource} {ok ok' : Bool} (h : Up rs t) (hsub : sub ∉ rs)
    (hcomp : comp ∉ sub :: rs) (hfail : ∀ t', Failed rs t' → Q (false, t'))
    (hnext : ∀ t', Up (comp :: sub :: rs) t' → Q (next t')) :
    Q (orGoto (queuePair sub comp ok ok' t) fail next) := by
  cases ok with
  | false =>
      have hcomp' : comp ∉ rs := fun hin => hcomp (List.mem_cons_of_mem _ hin)
      rw [orGoto_failed rfl, queuePair, h.take_false hsub]
      -- the second queue may be there
      cases ok' with
      | false =>
          rw [h.take_false hcomp']
          exact hfail _ h.failed_fail
      | true =>
          have h' := h.take hcomp'
          exact hfail _ (StartStop.failed_fail h'.even fun r hr => h'.held r (List.mem_cons_of_mem _ hr))
  | true =>
      have h' := h.take hsub
      cases ok' with
      | false =>
          rw [orGoto_failed rfl, queuePair, h'.take_false hcomp]
          exact hfail _ (StartStop.failed_fail h'.even fun r hr => h'.held r (List.mem_cons_of_mem _ hr))
      | true => exact hnext _ (h'.take hcomp)

/-- The timer, if there is one, and its action. -/
theorem Up.startStatsTimer (h : Up rs t) (htimer : .statsTimer ∉ rs)
    (haction : .statsAction ∉ Resource.statsTimer :: rs) (c : StartCalls) :
    Up (.statsAction :: .statsTimer :: rs) (startStatsTimer c t) := by
  rw [StartStop.startStatsTimer]
  split
  · exact (h.take htimer).take_optional haction rfl _
  · -- no action is asked for, and none is there
    have h' := h.take_optional htimer rfl false
    have h'' := h'.take_optional haction rfl false
    rwa [h'.take_false haction] at h''

theorem Failed.mono {rs' : List Resource} (h : Failed rs' t) (hsub : rs ⊆ rs') : Failed rs t :=
  ⟨h.even, h.closed, fun r hr => h.kept r (hsub hr)⟩

/-- The queues, in the order of the loop. -/
def txQueues (is : List TxQueue) : List Resource := is.flatMap fun i => [.txSubQueue i, .txCompQueue i]

/-- The loop over the transmit queues. -/
theorem Up.startTxQueues {is : List TxQueue} (h : Up rs t) (hnodup : is.Nodup)
    (hnew : ∀ i ∈ is, .txSubQueue i ∉ rs ∧ .txCompQueue i ∉ rs) (c : StartCalls)
    (hfail : ∀ t', Failed rs t' → Q (false, t'))
    (hnext : ∀ t', Up ((txQueues is).reverse ++ rs) t' → Q (next t')) :
    Q (startTxQueues c next is t) := by
  induction is generalizing rs t with
  | nil => exact hnext t h
  | cons i is ih =>
      obtain ⟨hsub, hcomp⟩ := hnew i List.mem_cons_self
      obtain ⟨hi, hnodup⟩ := List.nodup_cons.mp hnodup
      have hcomp' : Resource.txCompQueue i ∉ Resource.txSubQueue i :: rs := by
        simpa using hcomp
      refine h.orFail_pair hsub hcomp' hfail fun t' h' => ih h' hnodup ?_ ?_ ?_
      · intro j hj
        have hji : j ≠ i := ne_of_mem_of_not_mem hj hi
        have := hnew j (List.mem_cons_of_mem _ hj)
        simpa [hji] using this
      · intro t'' hbad
        refine hfail t'' (hbad.mono ?_)
        intro r hr
        exact List.mem_cons_of_mem _ (List.mem_cons_of_mem _ hr)
      · intro t'' h''
        refine hnext t'' ?_
        simpa [txQueues] using h''

end Calls

/-! ### `Start` as a whole -/

/-- What `Start` asks for, in its order. -/
def order : List Resource :=
  [.pciOpen, .barMd, .barMap, .txRingMd, .txRingDma, .rxRingMd, .rxRingDma, .statMd, .statDma, .workQueue,
    .intSource, .intAction, .statsTimer, .statsAction, .txPool, .rxPool, .txLock]
    ++ txQueues (List.finRange 4) ++ [.rxSubQueue, .rxCompQueue]

/-- What `Start` leaves once the BAR's memory was acquired. -/
structure Outcome (p : Bool × Table) : Prop where
  up : p.1 = true → Up order.reverse p.2
  failed : p.1 = false → Failed [.barMd, .pciOpen] p.2

theorem outcome_failed {rs : List Resource} (hbar : .barMd ∈ rs) (hopen : .pciOpen ∈ rs) {t : Table}
    (h : Failed rs t) : Outcome (false, t) := by
  refine ⟨fun hok => absurd hok Bool.false_ne_true, fun _ => h.mono ?_⟩
  intro r hr
  rcases List.mem_pair.mp hr with rfl | rfl
  · exact hbar
  · exact hopen

theorem outcome_startPools {t : Table} (h : Up (order.take 14).reverse t) (c : StartCalls) :
    Outcome (startPools c t) := by
  refine h.orFail_call (by decide) (fun _ => outcome_failed (by decide) (by decide)) fun t h => ?_
  refine h.orFail_call (by decide) (fun _ => outcome_failed (by decide) (by decide)) fun t h => ?_
  refine h.orFail_call (by decide) (fun _ => outcome_failed (by decide) (by decide)) fun t h => ?_
  refine h.startTxQueues (List.nodup_finRange 4) (by decide) c
    (fun _ => outcome_failed (by decide) (by decide)) fun t h => ?_
  refine h.orFail_pair (by decide) (by decide) (fun _ => outcome_failed (by decide) (by decide)) fun t h => ?_
  refine h.orFail (fun _ => outcome_failed (by decide) (by decide)) ?_
  exact ⟨fun _ => h, fun hbad => absurd hbad.symm Bool.false_ne_true⟩

theorem outcome_startMapped {t : Table} (h : Up [.barMd, .pciOpen] t) (c : StartCalls) :
    Outcome (startMapped c t) := by
  refine h.orFail_call (by decide) (fun _ => outcome_failed (by decide) (by decide)) fun t h => ?_
  refine h.orFail (fun _ => outcome_failed (by decide) (by decide)) ?_
  refine h.orFail_alloc (by decide) (by decide) (fun _ => outcome_failed (by decide) (by decide)) fun t h => ?_
  refine h.orFail_alloc (by decide) (by decide) (fun _ => outcome_failed (by decide) (by decide)) fun t h => ?_
  refine h.orFail_alloc (by decide) (by decide) (fun _ => outcome_failed (by decide) (by decide)) fun t h => ?_
  refine h.orFail_call (by decide) (fun _ => outcome_failed (by decide) (by decide)) fun t h => ?_
  refine h.orFail (fun _ => outcome_failed (by decide) (by decide)) ?_
  refine h.orFail_call (by decide) (fun _ => outcome_failed (by decide) (by decide)) fun t h => ?_
  refine h.orFail_call (by decide) (fun _ => outcome_failed (by decide) (by decide)) fun t h => ?_
  exact outcome_startPools (h.startStatsTimer (by decide) (by decide) c) c

/-- The calls up to the BAR's memory. -/
def StartCalls.early (c : StartCalls) : Bool :=
  c.superStart && c.provider && c.openDevice && c.bar && c.barMd

/-- Once the BAR's memory is there. -/
theorem outcome_start {c : StartCalls} (h : c.early = true) : Outcome (start c) := by
  simp only [StartCalls.early, Bool.and_eq_true] at h
  obtain ⟨⟨⟨⟨hsuper, hprovider⟩, hopen⟩, hbar⟩, hmd⟩ := h
  rw [start, orGoto_ok hsuper, orGoto_ok hprovider, orGoto_ok hopen, orGoto_ok hbar, orGoto_ok hmd, hopen,
    hmd]
  exact outcome_startMapped ((up_null.take (by decide)).take (by decide)) c

/-- No pointer is left, and nothing is owed. -/
def Clean (t : Table) : Prop := ∀ r, (t r).Even ∧ (t r).ptr = false

/-- At the label `fail` with nothing but the device open. -/
theorem Up.clean_fail {rs : List Resource} {t : Table} (h : Up rs t) (hrs : rs ⊆ [.pciOpen]) :
    Clean (fail t).2 := by
  have hbad : Failed rs (fail t).2 := h.failed_fail
  have hrel : Releases (· = Resource.pciOpen) t (fail t).2 := releases_drop _ t
  intro r
  refine ⟨hbad.even r, ?_⟩
  by_cases hr : r = .pciOpen
  · rw [hr]
    exact hbad.closed
  · have hmem : r ∉ rs := fun hin => hr (List.mem_singleton.mp (hrs hin))
    rw [hrel.frame r hr, h.fresh r hmem]
    rfl

/-- **A failure before that leaves nothing.** -/
theorem start_early {c : StartCalls} (h : c.early = false) : (start c).1 = false ∧ Clean (start c).2 := by
  rw [start]
  cases hsuper : c.superStart with
  | false => exact ⟨rfl, fun _ => ⟨Handle.even_null, rfl⟩⟩
  | true =>
  rw [orGoto_ok rfl]
  cases hprovider : c.provider with
  | false => exact ⟨rfl, up_null.clean_fail (List.nil_subset _)⟩
  | true =>
  rw [orGoto_ok rfl]
  cases hopen : c.openDevice with
  | false =>
      rw [orGoto_failed rfl, call, up_null.take_false (by decide)]
      exact ⟨rfl, up_null.clean_fail (List.nil_subset _)⟩
  | true =>
  have hup : Up [.pciOpen] (take .pciOpen true fun _ => .null) := up_null.take (by decide)
  rw [orGoto_ok rfl, call]
  cases hbar : c.bar with
  | false => exact ⟨rfl, hup.clean_fail (List.Subset.refl _)⟩
  | true =>
  rw [orGoto_ok rfl]
  cases hmd : c.barMd with
  | false =>
      rw [orGoto_failed rfl, call, hup.take_false (by decide)]
      exact ⟨rfl, hup.clean_fail (List.Subset.refl _)⟩
  | true =>
      rw [StartCalls.early, hsuper, hprovider, hopen, hbar, hmd] at h
      cases h

end Rtl812x.Dext.StartStop
