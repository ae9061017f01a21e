import Rtl812x.Kext.Start

/-!
# What `start` returns

`start` keeps what `super::start` returned in `result` and returns it from every label; only
`attachInterface` sets it again.

* `Keeps n` — the resources acquired before stage `n` (`Resource.stage`) are untouched;
* `setupTxResources_fst`, `setupRxResources_fst`, `setupMediumDict_eq` — what the setup functions return;
* `start_reported_iff` — **for which calls a failure is reported**.
-/

namespace Rtl812x.Kext.Start

open Handles

variable (c : StartCalls) (s : DriverObject)

/-! ### What the steps return -/

theorem orGoto_fst (call : Bool × DriverObject) (f : DriverObject → DriverObject)
    (next : DriverObject → Bool × DriverObject) :
    (orGoto call (failing f) next).1 = (call.1 && (next call.2).1) := by
  unfold orGoto
  cases call.1 <;> rfl

theorem setupRing_fst (r : RingResources) (freeFirst : DriverObject → DriverObject) (k : RingCalls)
    (s : DriverObject) : (setupRing r freeFirst k s).1 = k.ok := by
  simp only [setupRing, orGoto_fst, DriverObject.call, RingCalls.ok, Bool.and_true, Bool.and_assoc]

theorem initEventSources_fst : (initEventSources c s).1 = c.eventsOk := by
  simp only [initEventSources, orGoto_fst, DriverObject.call, StartCalls.eventsOk, Bool.and_true,
    Bool.and_assoc]

theorem setupTxMap_fst : (setupTxMap c s).1 = (c.txMapMem && (txMapCalls c).all Prod.snd) := by
  simp only [setupTxMap, orGoto_fst, DriverObject.call, DriverObject.takeAll, takeAll_fst, Bool.and_true]

theorem setupRxMap_fst : (setupRxMap c s).1 = (c.rxMapMem && (rxMapCalls c).all Prod.snd) := by
  simp only [setupRxMap, orGoto_fst, DriverObject.call, DriverObject.takeAll, takeAll_fst, Bool.and_true]

/-! ### The order in which resources are acquired -/

/-- Resources of one array, and those of which only one is acquired, share a number. -/
def Resource.stage : Resource → ℕ
  | workLoop => 0
  | pciDevice => 1
  | pciOpen => 2
  | mapper => 3
  | baseMap => 4
  | mediumDict => 5
  | commandGate => 6
  | txBufArrayMem => 7
  | txBufDesc => 8
  | txDescDmaCmd => 9
  | txMapMem | txMbufCursor => 10
  | txDmaCmd _ => 11
  | rxBufArrayMem => 12
  | rxBufDesc => 13
  | rxDescDmaCmd => 14
  | rxPool => 15
  | rxMbuf _ => 16
  | rxMapMem => 17
  | rxMemIo _ | rxDmaCmd _ => 18
  | statCall => 19
  | statBufDesc => 20
  | statDescDmaCmd => 21
  | txQueue => 22
  | interruptSource => 23
  | timerSource => 24

/-- Resources acquired before stage `n` are as they were, and the DMA path too. -/
structure Keeps (n : ℕ) (s s' : DriverObject) : Prop where
  vtd : s'.useAppleVTD = s.useAppleVTD
  frame : ∀ x : Resource, x.stage < n → s'.handle x = s.handle x

namespace Keeps

variable {n m : ℕ} {s s' s'' : DriverObject}

theorem refl (n : ℕ) (s : DriverObject) : Keeps n s s := ⟨rfl, fun _ _ => rfl⟩

theorem trans (h : Keeps n s s') (h' : Keeps n s' s'') : Keeps n s s'' :=
  ⟨h'.vtd.trans h.vtd, fun x hx => (h'.frame x hx).trans (h.frame x hx)⟩

theorem mono (h : Keeps n s s') (hm : m ≤ n) : Keeps m s s' :=
  ⟨h.vtd, fun x hx => h.frame x (hx.trans_le hm)⟩

theorem take (h : Keeps n s s') {r : Resource} (hr : n ≤ r.stage) (ok : Bool) :
    Keeps n s (s'.take r ok) := by
  refine h.trans ⟨rfl, fun x hx => take_of_ne ?_ ok s'.handle⟩
  rintro rfl
  exact hx.not_ge hr

theorem releases (h : Keeps n s s') {P : Resource → Prop} (hr : Releases P s'.handle s''.handle)
    (hvtd : s''.useAppleVTD = s'.useAppleVTD) (hP : ∀ x, P x → n ≤ x.stage) : Keeps n s s'' :=
  h.trans ⟨hvtd, fun x hx => hr.frame x fun hx' => hx.not_ge (hP x hx')⟩

theorem drop (h : Keeps n s s') {r : Resource} (hr : n ≤ r.stage) : Keeps n s (s'.drop r) := by
  refine h.releases (releases_drop r s'.handle) rfl ?_
  rintro _ rfl
  exact hr

theorem dropAll (h : Keeps n s s') {rs : List Resource} (hrs : ∀ r ∈ rs, n ≤ r.stage) :
    Keeps n s (s'.dropAll rs) :=
  h.releases (releases_dropAll rs s'.handle) rfl hrs

theorem dropKept (h : Keeps n s s') {r : Resource} (hr : n ≤ r.stage) : Keeps n s (s'.dropKept r) := by
  refine h.trans ⟨rfl, fun x hx => dropKept_of_ne ?_ s'.handle⟩
  rintro rfl
  exact hx.not_ge hr

theorem takeAll (h : Keeps n s s') {calls : List (Option Resource × Bool)}
    (hr : ∀ r ∈ targets calls, n ≤ r.stage) : Keeps n s (s'.takeAll calls).2 :=
  h.trans ⟨rfl, fun x hx => takeAll_of_notMem (fun hmem => hx.not_ge (hr x hmem)) s'.handle⟩

end Keeps

/-- A property of the state on both ways out of a setup function. -/
theorem orGoto_snd {Q : DriverObject → Prop} {call : Bool × DriverObject}
    {f : DriverObject → DriverObject} {next : DriverObject → Bool × DriverObject}
    (hfail : call.1 = false → Q (f call.2)) (hnext : call.1 = true → Q (next call.2).2) :
    Q (orGoto call (failing f) next).2 :=
  orGoto_elim (Q := fun p : Bool × DriverObject => Q p.2) hfail hnext

theorem targets_txMapCalls : targets (txMapCalls c) = txDmaCmds := by
  simp [targets, txMapCalls, txDmaCmds, List.filterMap_map]

theorem targets_rxMbufCalls : targets (rxMbufCalls c) = rxMbufs := by
  simp [targets, rxMbufCalls, rxMbufs, List.filterMap_map]

theorem mem_txDmaCmds {x : Resource} : x ∈ txDmaCmds ↔ ∃ i, x = .txDmaCmd i := by
  simp [txDmaCmds, eq_comm]

theorem mem_rxMbufs {x : Resource} : x ∈ rxMbufs ↔ ∃ i, x = .rxMbuf i := by
  simp [rxMbufs, eq_comm]

theorem mem_rxMapResources {x : Resource} :
    x ∈ rxMapResources ↔ ∃ i, x = .rxDmaCmd i ∨ x = .rxMemIo i := by
  simp [rxMapResources]

theorem targets_rxMapCalls :
    targets (rxMapCalls c) = (List.finRange kNumRxMemDesc).flatMap fun i => [.rxMemIo i, .rxDmaCmd i] := by
  have hbatch : ∀ i, (rxBatchCalls c i).filterMap Prod.fst = [.rxMemIo i, .rxDmaCmd i] := by
    intro i
    simp [rxBatchCalls, List.filterMap_map]
  rw [targets, rxMapCalls, List.filterMap_flatMap]
  simp only [hbatch]

theorem mem_targets_rxMapCalls {x : Resource} :
    x ∈ targets (rxMapCalls c) ↔ ∃ i, x = .rxMemIo i ∨ x = .rxDmaCmd i := by
  simp [targets_rxMapCalls]

theorem stage_txDmaCmds {x : Resource} (hx : x ∈ txDmaCmds) : x.stage = 11 := by
  obtain ⟨i, rfl⟩ := mem_txDmaCmds.mp hx
  rfl

theorem stage_rxMbufs {x : Resource} (hx : x ∈ rxMbufs) : x.stage = 16 := by
  obtain ⟨i, rfl⟩ := mem_rxMbufs.mp hx
  rfl

theorem stage_rxMapResources {x : Resource} (hx : x ∈ rxMapResources) : x.stage = 18 := by
  obtain ⟨i, rfl | rfl⟩ := mem_rxMapResources.mp hx <;> rfl

theorem stage_targets_rxMapCalls {x : Resource} (hx : x ∈ targets (rxMapCalls c)) : x.stage = 18 := by
  obtain ⟨i, rfl | rfl⟩ := (mem_targets_rxMapCalls c).mp hx <;> rfl

/-! ### The setup functions -/

section SetupKeeps

variable {n : ℕ} {s s' : DriverObject}

theorem setupRing_keeps {r : RingResources} {freeFirst : DriverObject → DriverObject}
    (hfirst : n ≤ r.first.stage) (hdesc : n ≤ r.bufDesc.stage) (hcmd : n ≤ r.dmaCmd.stage)
    (hfree : ∀ s', Keeps n s s' → Keeps n s (freeFirst s')) (k : RingCalls) :
    Keeps n s (setupRing r freeFirst k s).2 := by
  have h₁ := (Keeps.refl n s).take hfirst k.first
  have h₂ := h₁.take hdesc k.bufDesc
  have h₃ := h₂.take hcmd k.dmaCmd
  refine orGoto_snd (Q := Keeps n s) (fun _ => h₁) fun _ => ?_
  refine orGoto_snd (Q := Keeps n s) (fun _ => hfree _ h₂) fun _ => ?_
  refine orGoto_snd (Q := Keeps n s) (fun _ => hfree _ (h₂.drop hdesc)) fun _ => ?_
  refine orGoto_snd (Q := Keeps n s) (fun _ => hfree _ (h₃.drop hdesc)) fun _ => ?_
  refine orGoto_snd (Q := Keeps n s) (fun _ => hfree _ ((h₃.drop hcmd).drop hdesc)) fun _ => ?_
  exact orGoto_snd (Q := Keeps n s) (fun _ => hfree _ ((h₃.drop hcmd).drop hdesc)) fun _ => h₃

/-- An array `b` is allocated and filled; if the calls that fill it fail, it is freed with what is in it. -/
theorem setupMap_keeps (rs : List Resource) {b : Resource} {ok : Bool}
    {calls : List (Option Resource × Bool)} (hb : n ≤ b.stage) (hcalls : ∀ r ∈ targets calls, n ≤ r.stage)
    (hrs : ∀ r ∈ rs, n ≤ r.stage) {freeMap : DriverObject → DriverObject}
    (hfree : ∀ s, freeMap s = if (s.handle b).ptr then (s.dropAll rs).drop b else s)
    (h : Keeps n s s') :
    Keeps n s (orGoto (s'.call b ok) (failing id) fun s =>
      orGoto (s.takeAll calls) (failing freeMap) fun s => (true, s)).2 := by
  have hfreed : ∀ s', Keeps n s s' → Keeps n s (freeMap s') := by
    intro s' h
    rw [hfree]
    split
    · exact (h.dropAll hrs).drop hb
    · exact h
  have htake := h.take hb ok
  have hall := htake.takeAll hcalls
  refine orGoto_snd (Q := Keeps n s) (fun _ => htake) fun _ => ?_
  exact orGoto_snd (Q := Keeps n s) (fun _ => hfreed _ hall) fun _ => hall

theorem setupTxMap_keeps (h : Keeps 7 s s') : Keeps 7 s (setupTxMap c s').2 := by
  refine setupMap_keeps txDmaCmds (by decide) (fun r hr => ?_) (fun r hr => ?_) (fun _ => rfl) h
  · rw [targets_txMapCalls] at hr
    rw [stage_txDmaCmds hr]
    decide
  · rw [stage_txDmaCmds hr]
    decide

theorem txRing_keeps : Keeps 7 s (setupRing txRing freeTxArray c.tx s).2 :=
  setupRing_keeps (by decide) (by decide) (by decide) (fun _ h => h.drop (by decide)) c.tx

theorem setupTxResources_keeps : Keeps 7 s (setupTxResources c s).2 := by
  have hring := txRing_keeps c (s := s)
  refine orGoto_snd (Q := Keeps 7 s) (fun _ => hring) fun _ => ?_
  -- both paths keep what was there, and so does the label
  suffices h : Keeps 7 s (if (setupRing txRing freeTxArray c.tx s).2.useAppleVTD then
      setupTxMap c (setupRing txRing freeTxArray c.tx s).2
      else (setupRing txRing freeTxArray c.tx s).2.call .txMbufCursor c.txMbufCursor).2 from
    orGoto_snd (Q := Keeps 7 s)
      (fun _ => ((h.drop (by decide)).drop (by decide)).drop (by decide)) fun _ => h
  split
  · exact setupTxMap_keeps c hring
  · exact hring.take (by decide) c.txMbufCursor

theorem setupRxMap_keeps (h : Keeps 12 s s') : Keeps 12 s (setupRxMap c s').2 := by
  refine setupMap_keeps rxMapResources (by decide) (fun r hr => ?_) (fun r hr => ?_) (fun _ => rfl) h
  · rw [stage_targets_rxMapCalls c hr]
    decide
  · rw [stage_rxMapResources hr]
    decide

theorem rxRing_keeps : Keeps 12 s (setupRing rxRing freeRxArray c.rx s).2 :=
  setupRing_keeps (by decide) (by decide) (by decide) (fun _ h => h.drop (by decide)) c.rx

theorem setupRxResources_keeps : Keeps 12 s (setupRxResources c s).2 := by
  have hring := rxRing_keeps c (s := s)
  have hlabel : ∀ s', Keeps 12 s s' → Keeps 12 s (rxRing.errorSegm freeRxArray s') := fun _ h =>
    ((h.drop (by decide)).drop (by decide)).drop (by decide)
  have hpool := hring.take (r := .rxPool) (by decide) c.rxPool
  have hmbufs : Keeps 12 s
      (((setupRing rxRing freeRxArray c.rx s).2.take .rxPool c.rxPool).takeAll (rxMbufCalls c)).2 := by
    refine hpool.takeAll fun r hr => ?_
    rw [targets_rxMbufCalls] at hr
    rw [stage_rxMbufs hr]
    decide
  refine orGoto_snd (Q := Keeps 12 s) (fun _ => hring) fun _ => ?_
  refine orGoto_snd (Q := Keeps 12 s) (fun _ => hlabel _ hpool) fun _ => ?_
  refine orGoto_snd (Q := Keeps 12 s) (fun _ => ?_) fun _ => ?_
  · refine hlabel _ ((hmbufs.dropAll fun r hr => ?_).drop (by decide))
    rw [stage_rxMbufs hr]
    decide
  · split
    · exact setupRxMap_keeps c hmbufs
    · exact hmbufs

theorem setupStatResources_keeps : Keeps 19 s (setupStatResources c s).2 :=
  setupRing_keeps (by decide) (by decide) (by decide) (fun _ h => h.dropKept (by decide)) c.stat

theorem initEventSources_keeps : Keeps 22 s (initEventSources c s).2 := by
  have h₁ := (Keeps.refl 22 s).take (r := .txQueue) (by decide) c.txQueue
  have h₂ := h₁.take (r := .interruptSource) (by decide) c.interrupt
  have h₃ := h₂.take (r := .timerSource) (by decide) c.timer
  refine orGoto_snd (Q := Keeps 22 s) (fun _ => h₁) fun _ => ?_
  refine orGoto_snd (Q := Keeps 22 s) (fun _ => h₂.drop (by decide)) fun _ => ?_
  exact orGoto_snd (Q := Keeps 22 s) (fun _ => (h₃.drop (by decide)).drop (by decide)) fun _ => h₃

end SetupKeeps

theorem setupTxResources_fst (hv : s.useAppleVTD = c.vtd) : (setupTxResources c s).1 = c.txOk := by
  have hring : (setupRing txRing freeTxArray c.tx s).2.useAppleVTD = c.vtd := (txRing_keeps c).vtd.trans hv
  rw [setupTxResources, orGoto_fst, orGoto_fst, setupRing_fst, hring, StartCalls.txOk, Bool.and_true]
  cases c.vtd with
  | true => rw [if_pos rfl, if_pos rfl, setupTxMap_fst]
  | false => rfl

theorem setupRxResources_fst (hv : s.useAppleVTD = c.vtd) : (setupRxResources c s).1 = c.rxOk := by
  have hring : (setupRing rxRing freeRxArray c.rx s).2.useAppleVTD = c.vtd := (rxRing_keeps c).vtd.trans hv
  have hlast : ∀ s' : DriverObject, s'.useAppleVTD = c.vtd →
      (if s'.useAppleVTD then setupRxMap c s' else (true, s')).1 =
        (!c.vtd || (c.rxMapMem && (rxMapCalls c).all Prod.snd)) := by
    intro s' hs'
    rw [hs']
    cases c.vtd with
    | true => rw [if_pos rfl, setupRxMap_fst, Bool.not_true, Bool.false_or]
    | false => rfl
  rw [setupRxResources, orGoto_fst, orGoto_fst, orGoto_fst, setupRing_fst, hlast]
  · rw [StartCalls.rxOk, Bool.and_assoc, Bool.and_assoc, DriverObject.takeAll, takeAll_fst]
    rfl
  · rw [DriverObject.takeAll_useAppleVTD, DriverObject.call_useAppleVTD, hring]

theorem setupStatResources_fst : (setupStatResources c s).1 = c.stat.ok := setupRing_fst _ _ _ _

/-- Without a dictionary `error_med` calls a null pointer. -/
theorem setupMediumDict_none (h : c.dict = false) : setupMediumDict c s = none := by
  have hptr : ((s.take .mediumDict false).handle .mediumDict).ptr = false := take_ptr _ _ _
  unfold setupMediumDict
  rw [h, if_neg Bool.false_ne_true, orGoto_ok rfl, orGoto_failed rfl, errorMed, if_neg]
  rw [hptr]
  exact Bool.false_ne_true

/-- The state `setupMediumDict` leaves if there is a dictionary. -/
def mediumState : DriverObject :=
  if c.mediumOk then s.take .mediumDict true else (s.take .mediumDict true).dropKept .mediumDict

/-- The dictionary is released on the way out if something fails; `result` need not be false then. -/
theorem setupMediumDict_eq (h : c.dict = true) :
    setupMediumDict c s = some (c.mediumResult, mediumState c s) := by
  have hptr : ((s.take .mediumDict true).handle .mediumDict).ptr = true := take_ptr _ _ _
  have herr : ∀ result, errorMed result (s.take .mediumDict true) =
      some (result, (s.take .mediumDict true).dropKept .mediumDict) := fun _ => if_pos hptr
  unfold setupMediumDict mediumState StartCalls.mediumResult StartCalls.mediumOk StartCalls.mediaAdded
  rw [h, if_pos rfl]
  obtain ⟨ended, result⟩ := addMedia c (List.range c.limit) false
  cases ended with
  | false => rw [orGoto_failed rfl, herr]; rfl
  | true =>
      rw [orGoto_ok rfl]
      cases c.publish with
      | false => rw [orGoto_failed rfl, herr]; rfl
      | true => rfl

/-! ### `start` -/

/-- A failing call of `start` leaves `result` as it is. -/
theorem orGoto_done_fst (call : Bool × DriverObject) (result : Bool) (f : DriverObject → DriverObject)
    (next : DriverObject → Option (Bool × DriverObject)) :
    (orGoto call (done result f) next).map Prod.fst =
      bif call.1 then (next call.2).map Prod.fst else some result := by
  unfold orGoto
  cases call.1 <;> rfl

section Rings

variable {s}

/-- What the calls of `startRings` return, each in the state the ones before it leave. -/
structure RingsReturn (s s₁ s₂ s₃ : DriverObject) : Prop where
  tx : (setupTxResources c s).1 = c.txOk
  rx : (setupRxResources c s₁).1 = c.rxOk
  stat : (setupStatResources c s₂).1 = c.stat.ok
  events : (initEventSources c s₃).1 = c.eventsOk

theorem ringsReturn (hv : s.useAppleVTD = c.vtd) (s₂ s₃ : DriverObject) :
    RingsReturn c s (setupTxResources c s).2 s₂ s₃ where
  tx := setupTxResources_fst c s hv
  rx := setupRxResources_fst c _ ((setupTxResources_keeps c).vtd.trans hv)
  stat := setupStatResources_fst c s₂
  events := initEventSources_fst c s₃

theorem startRings_fst (hv : s.useAppleVTD = c.vtd) (result : Bool) :
    (startRings c s result).map Prod.fst = some (bif c.ringsOk then c.attach else result) := by
  have h := ringsReturn c hv (setupRxResources c (setupTxResources c s).2).2
    (setupStatResources c (setupRxResources c (setupTxResources c s).2).2).2
  simp only [startRings, orGoto_done_fst, h.tx, h.rx, h.stat, h.events, StartCalls.ringsOk]
  cases c.txOk <;> cases c.rxOk <;> cases c.stat.ok <;> cases c.eventsOk <;> cases c.attach <;> rfl

theorem startRings_attached (hv : s.useAppleVTD = c.vtd) (result : Bool) (hok : c.ringsOk = true)
    (hattach : c.attach = true) {p : Bool × DriverObject} (hp : startRings c s result = some p) :
    p.2.attached = true := by
  have h := ringsReturn c hv (setupRxResources c (setupTxResources c s).2).2
    (setupStatResources c (setupRxResources c (setupTxResources c s).2).2).2
  simp only [StartCalls.ringsOk, Bool.and_eq_true] at hok
  obtain ⟨⟨⟨htx, hrx⟩, hstat⟩, hevents⟩ := hok
  rw [startRings, orGoto_ok (h.tx.trans htx), orGoto_ok (h.rx.trans hrx), orGoto_ok (h.stat.trans hstat),
    orGoto_ok (h.events.trans hevents), orGoto_ok hattach] at hp
  cases hp
  rfl

end Rings

/-- The state in which `setupMediumDict` is called. -/
def configuredState : DriverObject :=
  let s := ((s.take .workLoop c.createWorkLoop).take .pciDevice c.provider).take .pciOpen c.openDevice
  (chooseDma c (s.take .mapper c.mapper)).take .baseMap c.baseMap

theorem start_of_configured (h : c.configured = true) :
    start c s = startMedium c (configuredState c s) true := by
  simp only [StartCalls.configured, StartCalls.opened, StartCalls.started, Bool.and_eq_true] at h
  obtain ⟨⟨⟨⟨⟨hwork, hsuper⟩, hprov⟩, hopen⟩, hbase⟩, hchip⟩ := h
  have hresult : (c.createWorkLoop && c.superStart) = true := by rw [hwork, hsuper]; rfl
  unfold start
  rw [hresult]
  simp only [DriverObject.call]
  rw [orGoto_ok rfl, orGoto_ok hprov, orGoto_ok hopen, orGoto_ok hbase, orGoto_ok hchip]
  rfl

theorem start_fst_of_not_configured (h : c.configured = false) :
    (start c s).map Prod.fst = some c.started := by
  have hnot : c.started = false ∨ c.provider = false ∨ c.openDevice = false ∨ c.baseMap = false ∨
      c.chip = false := by
    simpa only [StartCalls.configured, StartCalls.opened, Bool.and_eq_false_iff, or_assoc] using h
  -- each failing call returns what `super::start` returned
  simp only [start, orGoto_done_fst, DriverObject.call]
  rcases hnot with h | h | h | h | h
  · rw [StartCalls.started] at h ⊢
    rw [h, cond_false]
  all_goals simp only [h, cond_false, Bool.cond_self, StartCalls.started]

theorem mediumState_useAppleVTD : (mediumState c s).useAppleVTD = s.useAppleVTD := by
  unfold mediumState
  split <;> rfl

theorem startMedium_eq (hd : c.dict = true) (result : Bool) :
    startMedium c s result =
      orGoto (c.mediumResult, mediumState c s) (done result errorCfg) fun s =>
      orGoto (s.call .commandGate c.gate) (done result errorGate) fun s => startRings c s result := by
  rw [startMedium, setupMediumDict_eq c s hd, Option.bind_some]

theorem startMedium_fst (hv : s.useAppleVTD = c.vtd) (hd : c.dict = true) (result : Bool) :
    (startMedium c s result).map Prod.fst =
      some (bif c.mediumResult && c.gate && c.ringsOk then c.attach else result) := by
  have hrings : (startRings c ((mediumState c s).call .commandGate c.gate).2 result).map Prod.fst =
      some (bif c.ringsOk then c.attach else result) := by
    refine startRings_fst c ?_ result
    rw [DriverObject.call_useAppleVTD, mediumState_useAppleVTD, hv]
  simp only [startMedium_eq c s hd, orGoto_done_fst, hrings]
  simp only [DriverObject.call]
  cases c.mediumResult <;> cases c.gate <;> rfl

theorem configuredState_useAppleVTD : (configuredState c s).useAppleVTD = c.vtd := rfl

theorem start_eq_none (h : c.configured = true) (hd : c.dict = false) : start c s = none := by
  rw [start_of_configured c s h, startMedium, setupMediumDict_none c _ hd, Option.bind_none]

/-- **What `start` returns**, unless it calls a null pointer. -/
theorem start_fst (h : c.configured = true → c.dict = true) :
    (start c s).map Prod.fst = some (bif c.attachReached then c.attach else c.started) := by
  cases hc : c.configured with
  | false =>
      rw [start_fst_of_not_configured c s hc, StartCalls.attachReached, hc]
      rfl
  | true =>
      have hstarted : c.started = true := by
        simp only [StartCalls.configured, StartCalls.opened, Bool.and_eq_true] at hc
        exact hc.1.1.1.1
      rw [start_of_configured c s hc, startMedium_fst c _ (configuredState_useAppleVTD c s) (h hc),
        StartCalls.attachReached, hc, h hc, hstarted, Bool.and_true, Bool.true_and]

theorem start_attached (h : c.attachReached = true) (hattach : c.attach = true)
    {p : Bool × DriverObject} (hp : start c s = some p) : p.2.attached = true := by
  simp only [StartCalls.attachReached, Bool.and_eq_true] at h
  obtain ⟨⟨⟨⟨hc, hd⟩, hm⟩, hg⟩, hr⟩ := h
  rw [start_of_configured c s hc, startMedium_eq c _ hd, orGoto_ok hm, orGoto_ok hg] at hp
  refine startRings_attached c ?_ true hr hattach hp
  rw [DriverObject.call_useAppleVTD, mediumState_useAppleVTD, configuredState_useAppleVTD]

/-! ### Reporting a failure -/

/-- If a step fails, `start` returns false; and it returns true only if the interface is attached. -/
structure Reported (c : StartCalls) : Prop where
  failed : c.allOk = false → (start c .init).map Prod.fst = some false
  attached : ∀ s, start c .init = some (true, s) → s.attached = true

theorem mediumResult_of_mediumOk (h : c.mediumOk = true) : c.dict = true ∧ c.mediumResult = true := by
  simp only [StartCalls.mediumOk, Bool.and_eq_true] at h
  refine ⟨h.1.1, ?_⟩
  rw [StartCalls.mediumResult, h.1.2, if_pos rfl, h.2]

theorem mediumOk_of_allOk (h : c.allOk = true) : c.attachReached = true ∧ c.mediumOk = true := by
  simp only [StartCalls.allOk, StartCalls.attachReached, Bool.and_eq_true] at h ⊢
  obtain ⟨⟨⟨⟨hc, hm⟩, hg⟩, hr⟩, -⟩ := h
  obtain ⟨hd, hres⟩ := mediumResult_of_mediumOk c hm
  exact ⟨⟨⟨⟨⟨hc, hd⟩, hres⟩, hg⟩, hr⟩, hm⟩

/-- `start` returns false only if `super::start` or `attachInterface` does. -/
theorem start_fst_ne_false (hstarted : c.started = true)
    (hattach : c.attachReached = true → c.attach = true) : (start c s).map Prod.fst ≠ some false := by
  intro hfalse
  cases hd : c.configured && !c.dict with
  | true =>
      obtain ⟨hc, hdict⟩ := (Bool.and_eq_true _ _).mp hd
      rw [start_eq_none c _ hc (by simpa using hdict)] at hfalse
      cases hfalse
  | false =>
      rw [start_fst c _ (by simpa using hd), hstarted] at hfalse
      cases hreached : c.attachReached with
      | true =>
          rw [hreached, hattach hreached] at hfalse
          cases hfalse
      | false =>
          rw [hreached] at hfalse
          cases hfalse

theorem reported_of_not_started (h : c.started = false) : Reported c := by
  have hc : c.configured = false := by
    rw [StartCalls.configured, StartCalls.opened, h]
    rfl
  have hfst := start_fst_of_not_configured c .init hc
  rw [h] at hfst
  refine ⟨fun _ => hfst, fun s hs => ?_⟩
  rw [hs] at hfst
  cases hfst

theorem reported_of_attachReached (h : c.attachReached = true)
    (hmedium : c.attach = true → c.mediumOk = true) : Reported c := by
  have hr := h
  simp only [StartCalls.attachReached, Bool.and_eq_true] at hr
  obtain ⟨⟨⟨⟨hc, hd⟩, -⟩, hg⟩, hok⟩ := hr
  have hfst := start_fst c .init fun _ => hd
  rw [h, cond_true] at hfst
  refine ⟨fun hbad => ?_, fun s hs => ?_⟩
  · rw [hfst]
    by_contra hne
    have hattach : c.attach = true := by simpa using hne
    rw [StartCalls.allOk, hc, hmedium hattach, hg, hok, hattach] at hbad
    cases hbad
  · rw [hs] at hfst
    exact start_attached c .init h (Option.some.inj hfst).symm hs

/-- **Which failures are reported**: those of `super::start` and of `attachInterface`; and a medium that
could not be created is not noticed unless `attachInterface` fails. -/
theorem start_reported_iff : Reported c ↔
    c.started = false ∨ (c.attachReached = true ∧ (c.attach = true → c.mediumOk = true)) := by
  constructor
  · intro h
    by_contra hnot
    rw [not_or, Bool.not_eq_false, not_and, Classical.not_imp] at hnot
    obtain ⟨hstarted, hattach⟩ := hnot
    have hbad : c.allOk = false := by
      rw [Bool.eq_false_iff]
      intro hall
      obtain ⟨hreached, hmedium⟩ := mediumOk_of_allOk c hall
      exact (hattach hreached).2 hmedium
    exact start_fst_ne_false c .init hstarted (fun hreached => (hattach hreached).1) (h.failed hbad)
  · rintro (hstarted | ⟨hreached, hmedium⟩)
    · exact reported_of_not_started c hstarted
    · exact reported_of_attachReached c hreached hmedium

end Rtl812x.Kext.Start
