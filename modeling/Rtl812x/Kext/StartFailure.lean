import Rtl812x.Kext.StartRelease

/-!
# When a failing `start` is reported and cleaned up

From wherever `start` is left, it has set up resources and then released some of them; `free` releases
the rest.  Three resources are not released exactly once:

* the mapper, which nothing releases;
* the medium dictionary, if `setupMediumDict` released it and left the pointer;
* the thread call of the statistics, if `setupStatResources` freed it and left the pointer.

* `Left E s p` — what is known of the state `p` in which `start` is left, `s` being the state in which
  the rings are set up;
* `Released` — **every resource acquired is released once**, after `free`;
* `start_released_iff` — for which calls;
* `start_failure_iff` — both results.
-/

namespace Rtl812x.Kext.Start

open Handles

variable {E : Resource → Prop} {c : StartCalls}

/-! ### From the rings on -/

structure Left (E : Resource → Prop) (s p : DriverObject) : Prop where
  sound : Sound E 25 p
  pciOpen : (p.handle .pciOpen).ptr = false
  mapper : p.handle .mapper = s.handle .mapper
  surplus : ∀ x : Resource, x.stage < 6 → (s.handle x).Over → (p.handle x).Over

section Rings

variable {s s' p : DriverObject}

theorem left_of_undoes {n : ℕ} {P : Resource → Prop} (hk : Keeps 6 s s') (hs : Sound E n s') (hn : n ≤ 25)
    (hu : Undoes P s' p) (hopen : P .pciOpen) (hmapper : ¬P .mapper)
    (hclosed : ∀ x b, Resource.box x = some b → P b → P x) : Left E s p where
  sound := (hs.undoes hu fun x b hb hP => .inl (hclosed x b hb hP)).mono hn
  pciOpen := hu.releases.null _ hopen
  mapper := (hu.releases.frame _ hmapper).trans (hk.frame _ (by decide))
  surplus x hx ho := hu.releases.over (by rwa [hk.frame x hx])

theorem left_of_undone {n k : ℕ} (hk : Keeps 6 s s') (hs : Sound E n s') (hn : n ≤ 25)
    (hu : Undoes (Undone k) s' p) (hmem : k ∈ [4, 5, 6, 11, 18, 21]) : Left E s p :=
  left_of_undoes hk hs hn hu (.inr (.inl rfl))
    (by simp [Undone, Resource.stage]) fun x b hb hP => undone_closed hmem x b hb hP

/-- What is true of `p` whenever `start` is left with `p`. -/
def LeftWith (Q : DriverObject → Prop) (o : Option (Bool × DriverObject)) : Prop :=
  ∀ q, o = some q → Q q.2

theorem leftWith_done {Q : DriverObject → Prop} {result : Bool} {f : DriverObject → DriverObject}
    (h : Q (f s)) : LeftWith Q (done result f s) := by
  rintro _ ⟨⟩
  exact h

theorem startRings_left (hs : Sound E 7 s) (hv : s.useAppleVTD = c.vtd)
    (hwork : (s.handle .workLoop).ptr = true)
    (hstat : c.txOk = true → c.rxOk = true → c.stat.first = true → c.stat.ok = false → ¬E .statCall)
    (result : Bool) : LeftWith (Left E s) (startRings c s result) := by
  have ktx := (setupTxResources_keeps c (s := s)).mono (m := 6) (by decide)
  have stx := setupTxResources_sound c hs
  have krx := ktx.trans ((setupRxResources_keeps c).mono (by decide))
  have srx := setupRxResources_sound c stx
  have kstat := krx.trans ((setupStatResources_keeps c).mono (by decide))
  have kev := kstat.trans ((initEventSources_keeps c).mono (by decide))
  refine orGoto_elim (fun _ => leftWith_done ?_) fun htx => ?_
  · exact left_of_undone ktx stx (by decide) (errorDma1_undoes _) (by decide)
  refine orGoto_elim (fun _ => leftWith_done ?_) fun hrx => ?_
  · exact left_of_undone krx srx (by decide) (errorDma2_undoes srx) (by decide)
  -- from here on the thread call may have been freed
  rw [setupTxResources_fst c s hv] at htx
  rw [setupRxResources_fst c _ (ktx.vtd.trans hv)] at hrx
  have sstat := setupStatResources_sound c srx (hstat htx hrx)
  have sev := initEventSources_sound c sstat (by rwa [kstat.frame _ (by decide)])
  refine orGoto_elim (fun _ => leftWith_done ?_) fun _ => ?_
  · exact left_of_undone kstat sstat (by decide) (errorDma3_undoes sstat) (by decide)
  refine orGoto_elim (fun _ => leftWith_done ?_) fun _ => ?_
  · exact left_of_undone kev sev (by decide) (errorSrc_undoes sev) (by decide)
  refine orGoto_elim (fun _ => leftWith_done ?_) fun _ => leftWith_done ?_
  · exact left_of_undone kev sev (by decide) (errorSrc_undoes sev) (by decide)
  · have hclose : Undoes (· = .pciOpen) (initEventSources c (setupStatResources c
        (setupRxResources c (setupTxResources c s).2).2).2).2 _ := .drop .pciOpen _
    refine left_of_undoes kev sev (by decide) ⟨hclose.vtd, hclose.releases⟩ rfl (by decide) ?_
    rintro x _ hb rfl
    cases x <;> cases hb

theorem startRings_of_stat_failed (hv : s.useAppleVTD = c.vtd) (htx : c.txOk = true) (hrx : c.rxOk = true)
    (hok : c.stat.ok = false) (result : Bool) : startRings c s result = some (result, errorDma3
      (setupStatResources c (setupRxResources c (setupTxResources c s).2).2).2) := by
  rw [startRings, orGoto_ok ((setupTxResources_fst c s hv).trans htx),
    orGoto_ok ((setupRxResources_fst c _ ((setupTxResources_keeps c).vtd.trans hv)).trans hrx),
    orGoto_failed ((setupStatResources_fst c _).trans hok)]
  rfl

end Rings

/-! ### From the medium dictionary on -/

section Medium

variable {s : DriverObject}

theorem mediumState_frame {x : Resource} (hx : x ≠ .mediumDict) :
    (mediumState c s).handle x = s.handle x := by
  unfold mediumState
  split
  · exact take_of_ne hx _ _
  · exact (dropKept_of_ne hx _).trans (take_of_ne hx _ _)

theorem mediumState_sound (hs : Sound E 5 s) (hmedium : c.mediumOk = false → ¬E .mediumDict) :
    Sound E 6 (mediumState c s) := by
  have htake := hs.take_plain (r := .mediumDict) (Nat.le_refl 5) true rfl rfl
  unfold mediumState
  split
  case isTrue => exact htake
  case isFalse h => exact htake.dropKept (by decide) (hmedium (Bool.eq_false_iff.mpr h))

/-- The dictionary has been released, and the pointer is still there. -/
theorem mediumState_over (hs : Sound E 5 s) (hmedium : c.mediumOk = false) :
    ((mediumState c s).handle .mediumDict).Over := by
  have hnull : s.handle .mediumDict = .null := hs.shaped.fresh _ (Nat.le_refl 5)
  have heven : ((s.take .mediumDict true).handle .mediumDict).Even := by
    rw [DriverObject.take_handle]
    exact even_take (by rw [hnull]; exact Handle.even_null) hnull true
  rw [mediumState, if_neg (by rw [hmedium]; exact Bool.false_ne_true)]
  exact over_dropKept heven

theorem Left.of_keeps {s' p : DriverObject} (h : Left E s' p) (hk : Keeps 6 s s') : Left E s p where
  sound := h.sound
  pciOpen := h.pciOpen
  mapper := h.mapper.trans (hk.frame _ (by decide))
  surplus x hx ho := h.surplus x hx (by rwa [hk.frame x hx])

theorem startMedium_left (hs : Sound E 5 s) (hv : s.useAppleVTD = c.vtd)
    (hwork : (s.handle .workLoop).ptr = true) (hmedium : c.mediumOk = false → ¬E .mediumDict)
    (hstat : c.gate = true → c.txOk = true → c.rxOk = true → c.stat.first = true → c.stat.ok = false →
      ¬E .statCall) (result : Bool) :
    LeftWith (Left E (mediumState c s)) (startMedium c s result) := by
  cases hd : c.dict with
  | false =>
      rw [startMedium, setupMediumDict_none c s hd]
      rintro _ ⟨⟩
  | true =>
      have hsm := mediumState_sound hs hmedium
      have hgate := hsm.take_plain (r := .commandGate) (Nat.le_refl 6) c.gate rfl rfl
      have kgate := (Keeps.refl 6 (mediumState c s)).take (r := .commandGate) (by decide) c.gate
      rw [startMedium_eq c s hd]
      refine orGoto_elim (fun _ => leftWith_done ?_) fun _ => ?_
      · exact left_of_undone (.refl 6 _) hsm (by decide) (errorCfg_undoes _) (by decide)
      refine orGoto_elim (fun _ => leftWith_done ?_) fun hg => ?_
      · exact left_of_undone kgate hgate (by decide) (errorGate_undoes _) (by decide)
      · intro q hq
        refine Left.of_keeps (startRings_left hgate ?_ ?_ (hstat hg) result q hq) kgate
        · rw [kgate.vtd, mediumState_useAppleVTD, hv]
        · rw [kgate.frame _ (by decide), mediumState_frame (by decide), hwork]

end Medium

/-! ### The whole of `start` -/

/-- The mapper's handle after `start`: a reference is taken once the device is open. -/
def StartCalls.mapperHandle (c : StartCalls) : Handle :=
  ⟨c.opened && c.mapper, (c.opened && c.mapper).toNat, 0⟩

structure Ended (c : StartCalls) (E : Resource → Prop) (p : DriverObject) : Prop where
  sound : Sound E 25 p
  pciOpen : (p.handle .pciOpen).ptr = false
  mapper : p.handle .mapper = c.mapperHandle

theorem chooseDma_sound {s : DriverObject} (hs : Sound E 4 s) : Sound E 4 (chooseDma c s) := by
  refine ⟨hs.shaped, fun x b hb hptr => ?_, hs.even⟩
  have hstage : 4 ≤ x.stage := by
    cases x <;> cases hb <;> decide
  rw [chooseDma, hs.shaped.fresh x hstage] at hptr
  cases hptr

/-- The states up to the opening of the device. -/
theorem opening_sound (E : Resource → Prop) (c : StartCalls) :
    let started := DriverObject.init.take .workLoop c.createWorkLoop
    Sound E 1 started ∧ Sound E 2 (started.take .pciDevice c.provider) ∧
      Sound E 3 ((started.take .pciDevice c.provider).take .pciOpen c.openDevice) := by
  have hinit : Sound E 0 .init := .init
  have hstarted := hinit.take_plain (r := .workLoop) (Nat.le_refl 0) c.createWorkLoop rfl rfl
  have hdevice := hstarted.take_plain (r := .pciDevice) (Nat.le_refl 1) c.provider rfl rfl
  exact ⟨hstarted, hdevice, hdevice.take_plain (r := .pciOpen) (Nat.le_refl 2) c.openDevice rfl rfl⟩

theorem configuredState_sound : Sound E 5 (configuredState c .init) := by
  have hopened := (opening_sound E c).2.2
  have hmapper := hopened.take_plain (r := .mapper) (Nat.le_refl 3) c.mapper rfl rfl
  exact (chooseDma_sound hmapper).take_plain (r := .baseMap) (Nat.le_refl 4) c.baseMap rfl rfl

theorem configuredState_workLoop (h : c.started = true) :
    ((configuredState c .init).handle .workLoop).ptr = true :=
  (Bool.and_eq_true _ _).mp h |>.1

/-- Once the device is open the mapper is as `start` found it. -/
theorem configuredState_mapper (h : c.opened = true) :
    (configuredState c .init).handle .mapper = c.mapperHandle := by
  rw [StartCalls.mapperHandle, h, Bool.true_and, ← Nat.zero_add c.mapper.toNat]
  rfl

theorem mapperHandle_null (h : c.opened = false) : c.mapperHandle = .null := by
  rw [StartCalls.mapperHandle, h]
  rfl

theorem ended_of_undoes {n : ℕ} {P : Resource → Prop} {s p : DriverObject} (hs : Sound E n s)
    (hn : n ≤ 25) (hmapper : s.handle .mapper = c.mapperHandle) (hu : Undoes P s p)
    (hopen : P .pciOpen ∨ (s.handle .pciOpen).ptr = false) (hnot : ¬P .mapper)
    (hclosed : ∀ x b, Resource.box x = some b → P b → P x) : Ended c E p where
  sound := (hs.undoes hu fun x b hb hP => .inl (hclosed x b hb hP)).mono hn
  pciOpen := by
    by_cases hP : P .pciOpen
    · exact hu.releases.null _ hP
    · rw [hu.releases.frame _ hP]
      exact hopen.resolve_left hP
  mapper := (hu.releases.frame _ hnot).trans hmapper

theorem start_ended
    (hmedium : c.configured = true → c.mediumOk = false → ¬E .mediumDict)
    (hstat : c.configured = true → c.gate = true → c.txOk = true → c.rxOk = true → c.stat.first = true →
      c.stat.ok = false → ¬E .statCall) : LeftWith (Ended c E) (start c .init) := by
  obtain ⟨h₁, h₂, h₃⟩ := opening_sound E c
  have h₅ := configuredState_sound (E := E) (c := c)
  simp only [start]
  -- nothing has been opened on the first three ways out
  refine orGoto_elim (fun hbad => leftWith_done ?_) fun hstarted => ?_
  · have hnull : c.mapperHandle = .null := mapperHandle_null (by
      rw [StartCalls.opened, show c.started = false from hbad]
      rfl)
    exact ⟨h₁.mono (by decide), rfl, hnull.symm⟩
  refine orGoto_elim (fun hbad => leftWith_done ?_) fun hprov => ?_
  · have hnull : c.mapperHandle = .null := mapperHandle_null (by
      rw [StartCalls.opened, show c.provider = false from hbad, Bool.and_false]
      rfl)
    exact ⟨h₂.mono (by decide), rfl, hnull.symm⟩
  refine orGoto_elim (fun hbad => leftWith_done ?_) fun hopen => ?_
  · have hnull : c.mapperHandle = .null := mapperHandle_null (by
      rw [StartCalls.opened, show c.openDevice = false from hbad, Bool.and_false])
    refine ended_of_undoes h₃ (by decide) hnull.symm (.drop .pciDevice _) (.inr hbad) (by decide) ?_
    rintro x _ hb rfl
    cases x <;> cases hb
  have hopened : c.opened = true := by
    rw [StartCalls.opened, show c.started = true from hstarted, show c.provider = true from hprov,
      show c.openDevice = true from hopen]
    rfl
  have hmapper := configuredState_mapper hopened
  have hcfg : Ended c E (errorCfg (configuredState c .init)) :=
    ended_of_undoes h₅ (by decide) hmapper (errorCfg_undoes _) (.inl (.inr (.inl rfl)))
      (by simp [Undone, Resource.stage]) fun x b hb hP => undone_closed (by decide) x b hb hP
  refine orGoto_elim (fun _ => leftWith_done hcfg) fun hbase => ?_
  refine orGoto_elim (fun _ => leftWith_done hcfg) fun hchip => ?_
  have hconf : c.configured = true := by
    rw [StartCalls.configured, hopened, show c.baseMap = true from hbase, show c.chip = true from hchip]
    rfl
  intro q hq
  have hleft := startMedium_left h₅ (configuredState_useAppleVTD c .init)
    (configuredState_workLoop hstarted) (hmedium hconf) (hstat hconf) _ q hq
  refine ⟨hleft.sound, hleft.pciOpen, hleft.mapper.trans ?_⟩
  rw [mediumState_frame (by decide), hmapper]

/-! ### After `free` -/

/-- What was acquired has been released, once. -/
def ReleasedOnce (s : DriverObject) : Prop :=
  ∀ x, (s.handle x).released = (s.handle x).acquired ∧ (s.handle x).acquired ≤ 1

/-- If a step fails, `start` returns, and after `free` every resource acquired has been released once. -/
def Released (c : StartCalls) : Prop :=
  c.allOk = false → ∃ q, start c .init = some q ∧ ReleasedOnce (free q.2)

/-- Every step before `setupStatResources` succeeds. -/
def StartCalls.statReached (c : StartCalls) : Bool :=
  c.configured && c.mediumOk && c.gate && c.txOk && c.rxOk

theorem Ended.releasedOnce {p : DriverObject} (h : Ended c (fun _ => True) p)
    (hmapper : (c.opened && c.mapper) = false) : ReleasedOnce (free p) := by
  have hfree := (free_undoes h.sound).releases
  intro x
  have heven := hfree.even (h.sound.even x trivial)
  refine ⟨heven.released_eq ?_, heven.once⟩
  by_cases hx : x ≠ .pciOpen ∧ x ≠ .mapper
  · exact hfree.null x hx
  · -- the device is closed, and there is no mapper
    rw [hfree.frame x hx]
    have hx' : x = .pciOpen ∨ x = .mapper := by
      by_contra hnot
      exact hx (not_or.mp hnot)
    rcases hx' with rfl | rfl
    · exact h.pciOpen
    · rw [h.mapper, StartCalls.mapperHandle, hmapper]

/-- Nothing releases the mapper. -/
theorem free_mapper (h : (c.opened && c.mapper) = true) {q : Bool × DriverObject}
    (hq : start c .init = some q) : (free q.2).handle .mapper = ⟨true, 1, 0⟩ := by
  have hended := start_ended (E := fun _ => False) (fun _ _ h => h) (fun _ _ _ _ _ _ h => h) q hq
  rw [(free_undoes hended.sound).releases.frame _ (by simp), hended.mapper, StartCalls.mapperHandle, h]
  rfl

/-- A dictionary released by `setupMediumDict` is released again. -/
theorem free_mediumDict (hc : c.configured = true) (hm : c.mediumOk = false) {q : Bool × DriverObject}
    (hq : start c .init = some q) :
    ((free q.2).handle .mediumDict).acquired < ((free q.2).handle .mediumDict).released := by
  have hs := configuredState_sound (E := fun _ => False) (c := c)
  have hstarted : c.started = true := by
    simp only [StartCalls.configured, StartCalls.opened, Bool.and_eq_true] at hc
    exact hc.1.1.1.1
  rw [start_of_configured c .init hc] at hq
  have hleft := startMedium_left hs (configuredState_useAppleVTD c .init)
    (configuredState_workLoop hstarted) (fun _ h => h) (fun _ _ _ _ _ h => h) true q hq
  have hover := hleft.surplus .mediumDict (by decide) (mediumState_over hs hm)
  have hfree := (free_undoes hleft.sound).releases
  exact (hfree.over hover).lt_released (hfree.null _ (by simp))

/-- A thread call freed by `setupStatResources` is freed again. -/
theorem free_statCall (hr : c.statReached = true) (hfirst : c.stat.first = true) (hok : c.stat.ok = false)
    {q : Bool × DriverObject} (hq : start c .init = some q) :
    ((free q.2).handle .statCall).acquired < ((free q.2).handle .statCall).released := by
  simp only [StartCalls.statReached, Bool.and_eq_true] at hr
  obtain ⟨⟨⟨⟨hc, hm⟩, hg⟩, htx⟩, hrx⟩ := hr
  obtain ⟨hd, hres⟩ := mediumResult_of_mediumOk c hm
  have hended := start_ended (E := fun _ => False) (fun _ _ h => h) (fun _ _ _ _ _ _ h => h) q hq
  -- up to `setupStatResources` the thread call is untouched
  have hbefore := mediumState_sound (E := (· = .statCall)) (c := c)
    (configuredState_sound (c := c)) fun _ => by decide
  have hstate := hbefore.take_plain (r := .commandGate) (Nat.le_refl 6) c.gate rfl rfl
  have hrings := setupRxResources_sound c (setupTxResources_sound c hstate)
  have hover := setupStatResources_over c hrings rfl hfirst hok
  have hsound : Sound (fun _ => False) 22 _ := setupStatResources_sound c
    ⟨hrings.shaped, hrings.path, fun _ h => h.elim⟩ fun _ _ h => h
  have hv : ((mediumState c (configuredState c .init)).take .commandGate c.gate).useAppleVTD = c.vtd :=
    (mediumState_useAppleVTD c _).trans (configuredState_useAppleVTD c .init)
  rw [start_of_configured c .init hc, startMedium_eq c _ hd, orGoto_ok hres, orGoto_ok hg] at hq
  have hleft := Option.some.inj (hq.symm.trans (startRings_of_stat_failed hv htx hrx hok true))
  rw [hleft] at hended ⊢
  have hdma := (errorDma3_undoes hsound).releases.over hover
  have hfree := (free_undoes hended.sound).releases
  exact (hfree.over hdma).lt_released (hfree.null _ (by simp))

/-- `start` returns unless a dictionary that is not there is released. -/
theorem start_returns (hdict : c.configured = true → c.dict = true) :
    ∃ q, start c .init = some q ∧ q.1 = bif c.attachReached then c.attach else c.started := by
  have hfst := start_fst c .init hdict
  cases hstart : start c .init with
  | none =>
      rw [hstart] at hfst
      cases hfst
  | some q =>
      rw [hstart] at hfst
      exact ⟨q, rfl, Option.some.inj hfst⟩

/-- **Which failures are cleaned up**: not those after the mapper has been found, those of
`setupMediumDict` and those of `setupStatResources` after its first call. -/
theorem start_released_iff : Released c ↔ c.allOk = true ∨
    ((c.opened && c.mapper) = false ∧ (c.configured = true → c.mediumOk = true) ∧
      (c.statReached = true → c.stat.first = true → c.stat.ok = true)) := by
  constructor
  · intro h
    by_cases hall : c.allOk = true
    · exact .inl hall
    obtain ⟨q, hq, honce⟩ := h (Bool.eq_false_iff.mpr hall)
    refine .inr ⟨?_, fun hc => ?_, fun hr hfirst => ?_⟩
    · by_contra hnot
      have := (honce .mapper).1
      rw [free_mapper (Bool.not_eq_false _ ▸ hnot) hq] at this
      cases this
    · by_contra hnot
      have := free_mediumDict hc (Bool.eq_false_iff.mpr hnot) hq
      exact this.ne' (honce .mediumDict).1
    · by_contra hnot
      have := free_statCall hr hfirst (Bool.eq_false_iff.mpr hnot) hq
      exact this.ne' (honce .statCall).1
  · rintro (hall | ⟨hmapper, hmedium, hstat⟩) hbad
    · rw [hall] at hbad
      cases hbad
    obtain ⟨q, hq, -⟩ := start_returns fun hc => (mediumResult_of_mediumOk c (hmedium hc)).1
    refine ⟨q, hq, (start_ended (fun hc hm => ?_) (fun hc hg htx hrx hfirst hok => ?_) q hq).releasedOnce
      hmapper⟩
    · rw [hmedium hc] at hm
      cases hm
    · have hreached : c.statReached = true := by
        rw [StartCalls.statReached, hc, hmedium hc, hg, htx, hrx]
        rfl
      rw [hstat hreached hfirst] at hok
      cases hok

/-! ### Both -/

/-- **When a failing `start` reports the failure, and when it is cleaned up**, for every outcome of the
calls.  It is reported if `super::start` fails, or if every step before `attachInterface` returns success
and, should the interface be attached, the media have been published.  It is cleaned up unless a mapper
has been found, a medium could not be added or published, or the statistics could not be set up after the
thread call had been allocated. -/
theorem start_failure_iff (c : StartCalls) :
    (Reported c ↔
      c.started = false ∨ (c.attachReached = true ∧ (c.attach = true → c.mediumOk = true))) ∧
    (Released c ↔ c.allOk = true ∨
      ((c.opened && c.mapper) = false ∧ (c.configured = true → c.mediumOk = true) ∧
        (c.statReached = true → c.stat.first = true → c.stat.ok = true))) :=
  ⟨start_reported_iff c, start_released_iff⟩

def goodRing : RingCalls := ⟨true, true, true, true, true, true⟩

/-- Every call succeeds, without a mapper. -/
def goodCalls : StartCalls where
  createWorkLoop := true
  superStart := true
  provider := true
  openDevice := true
  mapper := false
  appleVTD := false
  arm64 := false
  baseMap := true
  chip := true
  limit := 24
  dict := true
  medium := fun _ => true
  addMedium := fun _ => true
  publish := true
  gate := true
  tx := goodRing
  txMapMem := true
  txDmaCmd := fun _ => true
  txMbufCursor := true
  rx := goodRing
  rxPool := true
  rxMbuf := fun _ => true
  rxMapMem := true
  rxMemIo := fun _ => true
  rxPrepare := fun _ => true
  rxDmaCmd := fun _ => true
  rxSetDesc := fun _ => true
  rxSegment := fun _ _ => true
  stat := goodRing
  txQueue := true
  interrupt := true
  timer := true
  attach := true

def chipFails : StartCalls := { goodCalls with chip := false }
def attachFails : StartCalls := { goodCalls with mapper := true, attach := false }
def mediumFails : StartCalls := { goodCalls with medium := fun i => i != 1 }
def statFails : StartCalls := { goodCalls with stat := { goodRing with prepare := false } }

/-- The receive buffers are all there in these calls. -/
theorem rxMbufCalls_all (h : c.rxMbuf = fun _ => true) : (rxMbufCalls c).all Prod.snd = true := by
  simp [rxMbufCalls, h]

theorem statFails_reached : statFails.statReached = true := by
  have hmbufs : (rxMbufCalls statFails).all Prod.snd = true := rxMbufCalls_all rfl
  have hrx : statFails.rxOk = true := by
    rw [StartCalls.rxOk, hmbufs]
    rfl
  rw [StartCalls.statReached, hrx]
  decide

/-- **Four failures**: the chip cannot be initialised, and `start` returns true; `attachInterface` fails,
and the mapper is kept; the second medium cannot be created, and `start` returns true with a dictionary
that is released twice; the statistics memory cannot be wired, and the thread call is freed twice. -/
theorem start_failures_mishandled :
    (chipFails.allOk = false ∧ (start chipFails .init).map Prod.fst = some true) ∧
    (attachFails.allOk = false ∧ ∃ q, start attachFails .init = some q ∧
      (free q.2).handle .mapper = ⟨true, 1, 0⟩) ∧
    (mediumFails.allOk = false ∧ ∃ q, start mediumFails .init = some q ∧ q.1 = true ∧
      ((free q.2).handle .mediumDict).acquired < ((free q.2).handle .mediumDict).released) ∧
    (statFails.allOk = false ∧ ∃ q, start statFails .init = some q ∧ q.1 = true ∧
      ((free q.2).handle .statCall).acquired < ((free q.2).handle .statCall).released) := by
  refine ⟨⟨rfl, start_fst_of_not_configured _ _ rfl⟩, ⟨?_, ?_⟩, ⟨?_, ?_⟩, ⟨?_, ?_⟩⟩
  · rw [StartCalls.allOk, show attachFails.attach = false from rfl, Bool.and_false]
  · obtain ⟨q, hq, -⟩ := start_returns (c := attachFails) fun _ => rfl
    exact ⟨q, hq, free_mapper rfl hq⟩
  · rw [StartCalls.allOk, show mediumFails.mediumOk = false by decide]
    rfl
  · obtain ⟨q, hq, hres⟩ := start_returns (c := mediumFails) fun _ => rfl
    refine ⟨q, hq, hres.trans ?_, free_mediumDict rfl (by decide) hq⟩
    exact Bool.cond_self _ true
  · rw [StartCalls.allOk, StartCalls.ringsOk, show statFails.stat.ok = false from rfl, Bool.and_false,
      Bool.false_and, Bool.and_false, Bool.false_and]
  · obtain ⟨q, hq, hres⟩ := start_returns (c := statFails) fun _ => rfl
    refine ⟨q, hq, hres.trans ?_, free_statCall statFails_reached rfl rfl hq⟩
    exact Bool.cond_self _ true

end Rtl812x.Kext.Start
