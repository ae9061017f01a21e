import Rtl812x.Lib.Interleave
import Rtl812x.Dext.StartStop

/-!
# What the dext releases in `Stop`

`Stop` cannot release everything at once.  The statistics timer and the interrupt source run on the work
queue; they are cancelled, and each cancellation completes at some later time, in a block of its own.
The block releases the source and counts down `pending`; whoever counts it down to zero runs `finish`,
which releases the rest, closes the device and calls `Stop` of the superclass.  Without sources `Stop`
runs `finish` itself.  The work queue is left to `free`: the blocks run on it.

`Stop` and the two blocks are three threads here, whose statements are taken in any order.

* `Stmt`, `eval`, `stopping` — the threads; `finishResources` — what `finish` releases, in its order;
* `releases_releaseAll` — **`finish` releases everything in its list**, the packets before their pools;
* `Begun`, `Closing`, `Finishing`, `Stopped` — the phases of a teardown; `Inv.step` — **every step keeps
  within them**.
-/

namespace Rtl812x.Dext.StartStop

open Handles Interleave Runs

/-! ### The code -/

/-- What is cancelled. -/
inductive Source where
  | timer
  | interrupt
  deriving DecidableEq

def Source.resource : Source → Resource
  | timer => .statsTimer
  | interrupt => .intSource

inductive Thread where
  | stop
  | completion (x : Source)
  deriving DecidableEq

structure Shared where
  handle : Table
  /-- `Cancel` was called -/
  cancelled : Source → Bool
  pending : ℕ
  /-- how often `Stop` of the superclass was called -/
  superStops : ℕ

inductive Stmt where
  /-- `pending` is set, and decides what is next -/
  | begin
  /-- `SetEnable(false)` and `Cancel` -/
  | cancel (x : Source)
  /-- the block is run at some time after `Cancel` -/
  | await (x : Source)
  /-- `timer->release()`, `src->release()` -/
  | release (x : Source)
  /-- `if (__atomic_sub_fetch(&pending, 1, __ATOMIC_ACQ_REL) == 0) finish();` -/
  | countDown
  /-- a pointer is released and cleared, unless it is null -/
  | drop (r : Resource)
  | superStop

/-- The pool a packet is given back to. -/
def Resource.pool : Resource → Option Resource
  | rxPkt _ => some .rxPool
  | txPkt _ => some .txPool
  | _ => none

/-- A pointer is released and cleared; a packet only if there is a pool to give it back to. -/
def release (r : Resource) (t : Table) : Table :=
  if r.pool.all fun p => (t p).ptr then drop r t else t

def finishResources : List Resource :=
  [.statsAction, .intAction, .txRingDma, .txRingMd, .rxRingDma, .rxRingMd, .statDma, .statMd, .barMap, .barMd]
    ++ (List.finRange kNumRxDesc).map .rxPkt ++ (List.finRange kNumTxDesc).map .txPkt
    ++ (txQueues (List.finRange 4) ++ [.rxSubQueue, .rxCompQueue, .txPool, .rxPool, .txLock, .pciOpen])

/-- The block `finish`. -/
def finish : List Stmt := finishResources.map .drop ++ [.superStop]

/-- The member variable is not null. -/
def present (t : Table) (x : Source) : Bool := (t x.resource).ptr

def sources (t : Table) : List Source := [.timer, .interrupt].filter fun x => present t x

def eval : Stmt → Shared → Shared × List Stmt
  | .begin, s =>
      let n := (sources s.handle).length
      ({ s with pending := n }, if n = 0 then finish else (sources s.handle).map .cancel)
  | .cancel x, s => ({ s with cancelled := Function.update s.cancelled x true }, [])
  | .await x, s => (s, if s.cancelled x then [] else [.await x])
  | .release x, s => ({ s with handle := Handles.drop x.resource s.handle }, [])
  | .countDown, s => ({ s with pending := s.pending - 1 }, if s.pending - 1 = 0 then finish else [])
  | .drop r, s => ({ s with handle := StartStop.release r s.handle }, [])
  | .superStop, s => ({ s with superStops := s.superStops + 1 }, [])

/-- The block that is given to `Cancel`. -/
def completion (x : Source) : List Stmt := [.await x, .release x, .countDown]

/-- `Stop` is called; nothing has been cancelled. -/
def stopping (t : Table) : Sys Shared Stmt Thread :=
  ⟨⟨t, fun _ => false, 0, 0⟩, fun
    | .stop => [.begin]
    | .completion x => if present t x then completion x else []⟩

/-- The next statement of a thread. -/
def step (s : Sys Shared Stmt Thread) (u : Thread) : Sys Shared Stmt Thread := s.step eval (.run u)

/-! ### Releasing everything -/

def releaseAll : List Resource → Table → Table
  | [], t => t
  | r :: rs, t => releaseAll rs (release r t)

theorem releaseAll_append (rs rs' : List Resource) (t : Table) :
    releaseAll (rs ++ rs') t = releaseAll rs' (releaseAll rs t) := by
  induction rs generalizing t with
  | nil => rfl
  | cons r rs ih => exact ih (release r t)

/-- A packet is where there is a pool for it. -/
def Pooled (rs : List Resource) (t : Table) : Prop :=
  ∀ r ∈ rs, ∀ p, r.pool = some p → (t r).ptr = true → (t p).ptr = true

theorem release_even {t : Table} {x : Resource} (h : (t x).Even) (r : Resource) : (release r t x).Even := by
  rw [release]
  split
  · exact (releases_drop r t).even h
  · exact h

theorem releaseAll_even {t : Table} {x : Resource} (h : (t x).Even) (rs : List Resource) :
    (releaseAll rs t x).Even := by
  induction rs generalizing t with
  | nil => exact h
  | cons r rs ih => exact ih (release_even h r)

/-- A packet without a pool is none. -/
theorem release_eq_drop {r : Resource} {rs : List Resource} {t : Table} (h : Pooled (r :: rs) t) :
    release r t = Handles.drop r t := by
  rw [release]
  split
  case isTrue => rfl
  case isFalse hnone =>
    have hptr : ¬ (t r).ptr = true := by
      intro hptr
      apply hnone
      rw [Option.all_eq_true]
      intro p hp
      exact h r List.mem_cons_self p hp hptr
    exact (if_neg hptr).symm

/-- **Everything in the list is released**, if no pool goes before its packets. -/
theorem releases_releaseAll {rs : List Resource} (horder : rs.Pairwise fun a b => b.pool ≠ some a) {t : Table}
    (h : Pooled rs t) : Releases (· ∈ rs) t (releaseAll rs t) := by
  induction rs generalizing t with
  | nil => exact .of_null fun _ hx => absurd hx List.not_mem_nil
  | cons r rs ih =>
      obtain ⟨hfirst, hrest⟩ := List.pairwise_cons.mp horder
      have hrel := releases_drop r t
      have h' : Pooled rs (Handles.drop r t) := by
        intro x hx p hp hptr
        have hne : p ≠ r := by
          intro heq
          exact hfirst x hx (heq ▸ hp)
        rw [hrel.frame p hne]
        exact h x (List.mem_cons_of_mem _ hx) p hp (hrel.ptr hptr)
      rw [releaseAll, release_eq_drop h]
      exact (hrel.trans (ih hrest h')).congr fun _ => List.mem_cons.symm

theorem pool_eq_some {r p : Resource} (h : r.pool = some p) : p = .rxPool ∨ p = .txPool := by
  cases r <;> cases h
  · exact .inl rfl
  · exact .inr rfl

/-- What goes before the queues is no pool, and what goes after the packets is no packet. -/
theorem finishResources_pairwise : finishResources.Pairwise fun a b => b.pool ≠ some a := by
  have hlate : ∀ b ∈ txQueues (List.finRange 4) ++
      [.rxSubQueue, .rxCompQueue, .txPool, .rxPool, .txLock, .pciOpen], b.pool = none := by decide
  rw [finishResources, List.pairwise_append]
  refine ⟨List.pairwise_of_forall_mem_list fun a ha b _ hpool => ?_,
    List.pairwise_of_forall_mem_list fun a _ b hb hpool => ?_, fun a _ b hb hpool => ?_⟩
  · obtain rfl | rfl := pool_eq_some hpool
    · simp at ha
    · simp at ha
  · rw [hlate b hb] at hpool
    cases hpool
  · rw [hlate b hb] at hpool
    cases hpool

/-- `finish` releases everything but the sources and the work queue. -/
theorem mem_finishResources {r : Resource} :
    r ∈ finishResources ↔ r ≠ .workQueue ∧ ∀ x : Source, r ≠ x.resource := by
  constructor
  · intro h
    refine ⟨?_, fun x => ?_⟩
    · intro heq
      simp [heq, finishResources, txQueues] at h
    · intro heq
      cases x <;> simp [heq, Source.resource, finishResources, txQueues] at h
  · rintro ⟨hw, hx⟩
    have htimer := hx .timer
    have hint := hx .interrupt
    cases r <;> simp_all [finishResources, txQueues, Source.resource]

/-! ### The phases of a teardown -/

/-- Where a source is. -/
inductive Phase where
  | absent
  | waiting
  | going
  | released
  | counted
  deriving DecidableEq

/-- What is left of the block. -/
def Phase.code (x : Source) : Phase → List Stmt
  | absent => []
  | waiting => completion x
  | going => [.release x, .countDown]
  | released => [.countDown]
  | counted => []

/-- The block has still to count down. -/
def Phase.live : Phase → ℕ
  | absent => 0
  | waiting => 1
  | going => 1
  | released => 1
  | counted => 0

/-- The source was released. -/
def Phase.gone (p : Phase) : Prop := p = released ∨ p = counted

/-- `Stop` has been called. -/
structure Begun (t : Table) (s : Sys Shared Stmt Thread) : Prop where
  shared : s.shared = ⟨t, fun _ => false, 0, 0⟩
  stop : s.code .stop = [.begin]
  block : ∀ x, s.code (.completion x) = if present t x then completion x else []

/-- The sources are cancelled and released. -/
structure Closing (t : Table) (ph : Source → Phase) (s : Sys Shared Stmt Thread) : Prop where
  stop : s.code .stop = ((sources t).filter fun x => !s.shared.cancelled x).map .cancel
  block : ∀ x, s.code (.completion x) = (ph x).code x
  absent : ∀ x, ph x = .absent ↔ present t x = false
  asked : ∀ x, ph x ≠ .absent → ph x ≠ .waiting → s.shared.cancelled x = true
  pending : s.shared.pending = (ph .timer).live + (ph .interrupt).live
  pos : 0 < s.shared.pending
  table : Releases (fun r => ∃ x : Source, r = x.resource ∧ (ph x).gone) t s.shared.handle
  stops : s.shared.superStops = 0

/-- The table of which `finish` has released `gone`: the sources are released before. -/
def FinishedBy (t : Table) (gone : List Resource) (t' : Table) : Prop :=
  ∃ base, Releases (fun r => ∃ x : Source, r = x.resource) t base ∧ t' = releaseAll gone base

/-- Some thread runs `finish`. -/
structure Finishing (t : Table) (u : Thread) (gone rest : List Resource) (s : Sys Shared Stmt Thread) :
    Prop where
  split : finishResources = gone ++ rest
  mine : s.code u = rest.map .drop ++ [.superStop]
  others : ∀ v, v ≠ u → s.code v = []
  table : FinishedBy t gone s.shared.handle
  stops : s.shared.superStops = 0

/-- `finish` is over. -/
structure Stopped (t : Table) (s : Sys Shared Stmt Thread) : Prop where
  idle : ∀ v, s.code v = []
  table : FinishedBy t finishResources s.shared.handle
  stops : s.shared.superStops = 1

inductive Inv (t : Table) (s : Sys Shared Stmt Thread) : Prop
  | begun (h : Begun t s)
  | closing (ph : Source → Phase) (h : Closing t ph s)
  | finishing (u : Thread) (gone rest : List Resource) (h : Finishing t u gone rest s)
  | stopped (h : Stopped t s)

theorem inv_stopping (t : Table) : Inv t (stopping t) := .begun ⟨rfl, rfl, fun _ => rfl⟩

section Step

variable {t : Table} {s : Sys Shared Stmt Thread} {ph : Source → Phase} {x : Source}

/-- A thread starts `finish` when the sources are released. -/
theorem finishing_of (u : Thread) (hmine : s.code u = finish) (hothers : ∀ v, v ≠ u → s.code v = [])
    (htable : Releases (fun r => ∃ x : Source, r = x.resource) t s.shared.handle)
    (hstops : s.shared.superStops = 0) : Inv t s :=
  .finishing u [] finishResources ⟨rfl, hmine, hothers, ⟨s.shared.handle, htable, rfl⟩, hstops⟩

theorem sources_eq_nil_iff : (sources t).length = 0 ↔ ∀ x, present t x = false := by
  rw [List.length_eq_zero_iff, sources, List.filter_eq_nil_iff]
  constructor
  · intro h x
    cases x
    · simpa using h .timer (by simp)
    · simpa using h .interrupt (by simp)
  · intro h x _
    simp [h x]

/-- `Stop` looks for the sources. -/
theorem Begun.run_begin (h : Begun t s) : Inv t (s.after eval .stop .begin []) := by
  have hhandle : s.shared.handle = t := congrArg Shared.handle h.shared
  by_cases hnone : (sources t).length = 0
  · -- no sources: `Stop` runs `finish`
    have habsent := sources_eq_nil_iff.mp hnone
    refine finishing_of .stop ?_ ?_ ?_ ?_
    · rw [Sys.after_code_self, List.append_nil]
      simp only [eval, hhandle, hnone, if_true]
    · intro v hv
      rw [Sys.after_code_of_ne hv]
      cases v with
      | stop => exact absurd rfl hv
      | completion x => rw [h.block x, habsent x]; rfl
    · show Releases _ t s.shared.handle
      rw [hhandle]
      refine .of_null ?_
      rintro _ ⟨x, rfl⟩
      exact habsent x
    · exact congrArg Shared.superStops h.shared
  · refine .closing (fun x => if present t x then .waiting else .absent) ⟨?_, ?_, ?_, ?_, ?_, ?_, ?_, ?_⟩
    · rw [Sys.after_code_self, List.append_nil]
      have hcancelled : (s.after eval .stop .begin []).shared.cancelled = fun _ => false :=
        congrArg Shared.cancelled h.shared
      rw [hcancelled]
      simp [eval, hhandle, hnone]
    · intro x
      rw [Sys.after_code_of_ne (by simp), h.block x]
      cases present t x <;> rfl
    · intro x
      cases present t x <;> simp
    · intro x habsent hwaiting
      cases hp : present t x <;> simp [hp] at habsent hwaiting
    · show (sources s.shared.handle).length = _
      rw [hhandle, sources]
      cases htimer : present t .timer <;> cases hint : present t .interrupt <;>
        simp [List.filter, htimer, hint, Phase.live]
    · show 0 < (sources s.shared.handle).length
      rw [hhandle]
      omega
    · show Releases _ t s.shared.handle
      rw [hhandle]
      refine .of_null ?_
      rintro _ ⟨x, -, hgone⟩
      cases hp : present t x <;> simp [hp, Phase.gone] at hgone
    · exact congrArg Shared.superStops h.shared

/-- A block finds that nothing was cancelled. -/
theorem Begun.run_block (h : Begun t s) {b : Stmt} {k : List Stmt} (hcode : s.code (.completion x) = b :: k) :
    Begun t (s.after eval (.completion x) b k) := by
  have hx := h.block x
  rw [hcode] at hx
  split at hx
  case isFalse => cases hx
  case isTrue hp =>
    obtain ⟨rfl, rfl⟩ := List.cons_eq_cons.mp hx
    have hcancelled : s.shared.cancelled x = false := congrFun (congrArg Shared.cancelled h.shared) x
    have hsame : (s.after eval (.completion x) (.await x) [.release x, .countDown]).code = s.code := by
      show Function.update s.code _ (_ ++ _) = s.code
      simp only [eval, hcancelled]
      exact (congrArg (Function.update s.code _) hcode.symm).trans (Function.update_eq_self _ _)
    exact ⟨h.shared, (congrFun hsame _).trans h.stop, fun y => (congrFun hsame _).trans (h.block y)⟩

theorem sources_nodup : (sources t).Nodup := List.Nodup.filter _ (by decide)

/-- `Stop` cancels a source. -/
theorem Closing.run_cancel (h : Closing t ph s) {b : Stmt} {k : List Stmt} (hcode : s.code .stop = b :: k) :
    Closing t ph (s.after eval .stop b k) := by
  have hstop := h.stop
  rw [hcode] at hstop
  obtain ⟨y, ys, hfilter, rfl, rfl⟩ := List.map_eq_cons_iff.mp hstop.symm
  have hmono : ∀ x, s.shared.cancelled x = true → Function.update s.shared.cancelled y true x = true := by
    intro x hx
    by_cases hxy : x = y
    · rw [hxy, Function.update_self]
    · rwa [Function.update_of_ne hxy]
  refine ⟨?_, fun x => ?_, h.absent, fun x ha hw => hmono x (h.asked x ha hw), h.pending, h.pos, h.table,
    h.stops⟩
  · -- the source that is cancelled was the first one left
    have hnodup : (y :: ys).Nodup := hfilter ▸ sources_nodup.filter _
    have hrest : (sources t).filter (fun x => !Function.update s.shared.cancelled y true x) = ys := by
      calc (sources t).filter (fun x => !Function.update s.shared.cancelled y true x)
          = ((sources t).filter fun x => !s.shared.cancelled x).filter fun x => x ≠ y := by
            rw [List.filter_filter]
            refine List.filter_congr fun x _ => ?_
            by_cases hxy : x = y
            · simp [hxy]
            · simp [hxy]
        _ = ys := by
            rw [hfilter]
            have hy := (List.nodup_cons.mp hnodup).1
            simp only [ne_eq, not_true_eq_false, decide_false, Bool.false_eq_true, not_false_eq_true,
              List.filter_cons_of_neg]
            exact List.filter_eq_self.mpr fun x hx => by simpa using ne_of_mem_of_not_mem hx hy
    rw [Sys.after_code_self]
    exact congrArg (List.map Stmt.cancel) hrest.symm
  · rw [Sys.after_code_of_ne (by simp)]
    exact h.block x

/-- Some block has still to count down. -/
theorem Closing.exists_live (h : Closing t ph s) : ∃ x, 0 < (ph x).live := by
  have hpos := h.pos
  rw [h.pending] at hpos
  by_cases htimer : 0 < (ph .timer).live
  · exact ⟨.timer, htimer⟩
  · exact ⟨.interrupt, by omega⟩

/-- A block goes from one phase to the next. -/
theorem Closing.move (h : Closing t ph s) {b : Stmt} {k : List Stmt} {p : Phase} (hx : ph x ≠ .absent)
    (hp : p ≠ .absent) (hasked : s.shared.cancelled x = true)
    (hcode : (eval b s.shared).2 ++ k = p.code x)
    (hcancelled : (eval b s.shared).1.cancelled = s.shared.cancelled)
    (hpending : (eval b s.shared).1.pending + (ph x).live = s.shared.pending + p.live)
    (hpos : 0 < (eval b s.shared).1.pending)
    (htable : Releases (fun r => ∃ y : Source, r = y.resource ∧ (Function.update ph x p y).gone) t
      (eval b s.shared).1.handle)
    (hstops : (eval b s.shared).1.superStops = s.shared.superStops) :
    Closing t (Function.update ph x p) (s.after eval (.completion x) b k) := by
  refine ⟨?_, fun y => ?_, fun y => ?_, fun y ha hw => ?_, ?_, hpos, htable, hstops.trans h.stops⟩
  · rw [Sys.after_code_of_ne (by simp), h.stop]
    show _ = ((sources t).filter fun x => !(eval b s.shared).1.cancelled x).map _
    rw [hcancelled]
  · by_cases hyx : y = x
    · subst hyx
      rw [Sys.after_code_self, hcode, Function.update_self]
    · rw [Sys.after_code_of_ne (by simpa using hyx), Function.update_of_ne hyx, h.block y]
  · by_cases hyx : y = x
    · subst hyx
      rw [Function.update_self]
      exact iff_of_false hp fun hnot => hx ((h.absent y).mpr hnot)
    · rw [Function.update_of_ne hyx]
      exact h.absent y
  · show (eval b s.shared).1.cancelled y = true
    rw [hcancelled]
    by_cases hyx : y = x
    · rw [hyx, hasked]
    · rw [Function.update_of_ne hyx] at ha hw
      exact h.asked y ha hw
  · show (eval b s.shared).1.pending = _
    have hsum := h.pending
    cases x with
    | timer =>
        rw [Function.update_self, Function.update_of_ne (by decide)]
        omega
    | interrupt =>
        rw [Function.update_self, Function.update_of_ne (by decide)]
        omega

/-- The last block has counted down. -/
theorem Closing.finishing (h : Closing t ph s) (hreleased : ph x = .released)
    (hlast : s.shared.pending - 1 = 0) : Inv t (s.after eval (.completion x) .countDown []) := by
  -- no other source is on its way
  have hother : ∀ y, y ≠ x → ph y = .absent ∨ ph y = .counted := by
    intro y hyx
    have hsum := h.pending
    have hdead : (ph y).live = 0 := by
      have hlive : (ph x).live = 1 := by rw [hreleased]; rfl
      cases x <;> cases y <;> first | exact absurd rfl hyx | omega
    cases hy : ph y <;> simp [hy, Phase.live] at hdead ⊢
  have hgone : ∀ y, ph y = .absent ∨ (ph y).gone := by
    intro y
    by_cases hyx : y = x
    · rw [hyx, hreleased]
      exact .inr (.inl rfl)
    · exact (hother y hyx).imp_right .inr
  refine finishing_of (.completion x) ?_ ?_ ?_ h.stops
  · rw [Sys.after_code_self, List.append_nil]
    exact if_pos hlast
  · intro v hv
    rw [Sys.after_code_of_ne hv]
    cases v with
    | stop =>
        rw [h.stop, List.map_eq_nil_iff, List.filter_eq_nil_iff]
        intro y hy
        have hpresent : present t y = true := (List.mem_filter.mp hy).2
        have ha : ph y ≠ .absent := fun ha => by
          rw [(h.absent y).mp ha] at hpresent
          cases hpresent
        have hw : ph y ≠ .waiting := fun hw => by
          rcases hgone y with habs | hrel | hcnt
          · exact ha habs
          · rw [hw] at hrel
            cases hrel
          · rw [hw] at hcnt
            cases hcnt
        simp [h.asked y ha hw]
    | completion y =>
        have hyx : y ≠ x := fun heq => hv (congrArg Thread.completion heq)
        rw [h.block y]
        rcases hother y hyx with hy | hy <;> rw [hy] <;> rfl
  · refine h.table.extend (fun r hr => hr.imp fun _ => And.left) ?_
    rintro _ ⟨y, rfl⟩ hnot
    have habsent : ph y = .absent := (hgone y).resolve_right fun hy => hnot ⟨y, rfl, hy⟩
    exact (h.absent y).mp habsent

/-- A phase that changes nothing about what is released. -/
theorem gone_update {p : Phase} (hsame : p.gone ↔ (ph x).gone) (r : Resource) :
    (∃ y : Source, r = y.resource ∧ (Function.update ph x p y).gone) ↔
      ∃ y : Source, r = y.resource ∧ (ph y).gone := by
  refine exists_congr fun y => and_congr_right fun _ => ?_
  by_cases hyx : y = x
  · rw [hyx, Function.update_self, hsame]
  · rw [Function.update_of_ne hyx]

/-- The phase after a release. -/
theorem gone_update_released (hgoing : ph x = .going) (r : Resource) :
    (∃ y : Source, r = y.resource ∧ (Function.update ph x .released y).gone) ↔
      (∃ y : Source, r = y.resource ∧ (ph y).gone) ∨ r = x.resource := by
  constructor
  · rintro ⟨y, hr, hy⟩
    by_cases hyx : y = x
    · exact .inr (hyx ▸ hr)
    · rw [Function.update_of_ne hyx] at hy
      exact .inl ⟨y, hr, hy⟩
  · rintro (⟨y, hr, hy⟩ | hr)
    · have hyx : y ≠ x := by
        intro heq
        rw [heq, hgoing] at hy
        rcases hy with hy | hy <;> cases hy
      refine ⟨y, hr, ?_⟩
      rwa [Function.update_of_ne hyx]
    · refine ⟨x, hr, ?_⟩
      rw [Function.update_self]
      exact .inl rfl

/-- A block runs its next statement. -/
theorem Closing.run_block (h : Closing t ph s) {b : Stmt} {k : List Stmt}
    (hcode : s.code (.completion x) = b :: k) : Inv t (s.after eval (.completion x) b k) := by
  have hx := h.block x
  rw [hcode] at hx
  cases hph : ph x with
  | absent => rw [hph] at hx; cases hx
  | counted => rw [hph] at hx; cases hx
  | waiting =>
      rw [hph] at hx
      obtain ⟨rfl, rfl⟩ := List.cons_eq_cons.mp hx
      have hne : ph x ≠ .absent := by rw [hph]; decide
      cases hc : s.shared.cancelled x with
      | false =>
          have hsame : (s.after eval (.completion x) (.await x) [.release x, .countDown]).code = s.code := by
            show Function.update s.code _ (_ ++ _) = s.code
            simp only [eval, hc]
            exact (congrArg (Function.update s.code _) hcode.symm).trans (Function.update_eq_self _ _)
          exact .closing ph ⟨(congrFun hsame _).trans h.stop, fun y => (congrFun hsame _).trans (h.block y),
            h.absent, h.asked, h.pending, h.pos, h.table, h.stops⟩
      | true =>
          refine .closing _ (h.move (p := .going) hne (by decide) hc ?_ rfl ?_ h.pos ?_ rfl)
          · simp only [eval, hc]
            rfl
          · rw [hph]
            rfl
          · refine h.table.congr fun r => (gone_update ?_ r).symm
            rw [hph]
            exact iff_of_false (by simp [Phase.gone]) (by simp [Phase.gone])
  | going =>
      rw [hph] at hx
      obtain ⟨rfl, rfl⟩ := List.cons_eq_cons.mp hx
      have hne : ph x ≠ .absent := by rw [hph]; decide
      have hc := h.asked x hne (by rw [hph]; decide)
      refine .closing _ (h.move (p := .released) hne (by decide) hc rfl rfl ?_ h.pos ?_ rfl)
      · rw [hph]
        rfl
      · exact (h.table.trans (releases_drop x.resource _)).congr fun r => (gone_update_released hph r).symm
  | released =>
      rw [hph] at hx
      obtain ⟨rfl, rfl⟩ := List.cons_eq_cons.mp hx
      have hne : ph x ≠ .absent := by rw [hph]; decide
      have hc := h.asked x hne (by rw [hph]; decide)
      by_cases hlast : s.shared.pending - 1 = 0
      · exact h.finishing hph hlast
      · refine .closing _ (h.move (p := .counted) hne (by decide) hc ?_ rfl ?_ ?_ ?_ rfl)
        · exact congrArg (· ++ []) (if_neg hlast)
        · have hpos := h.pos
          rw [hph]
          show s.shared.pending - 1 + 1 = s.shared.pending + 0
          omega
        · exact Nat.pos_of_ne_zero hlast
        · refine h.table.congr fun r => (gone_update ?_ r).symm
          rw [hph]
          exact iff_of_true (.inr rfl) (.inl rfl)

/-- `finish` releases the next resource, or is over. -/
theorem Finishing.run {u : Thread} {gone rest : List Resource} (h : Finishing t u gone rest s) {b : Stmt}
    {k : List Stmt} (hcode : s.code u = b :: k) : Inv t (s.after eval u b k) := by
  have hmine := h.mine
  rw [hcode] at hmine
  have hothers : ∀ v, v ≠ u → (s.after eval u b k).code v = [] := by
    intro v hv
    rw [Sys.after_code_of_ne hv]
    exact h.others v hv
  cases rest with
  | nil =>
      obtain ⟨rfl, rfl⟩ := List.cons_eq_cons.mp hmine
      refine .stopped ⟨fun v => ?_, ?_, ?_⟩
      · by_cases hv : v = u
        · subst hv
          rw [Sys.after_code_self]
          rfl
        · exact hothers v hv
      · have hall : finishResources = gone := by rw [h.split, List.append_nil]
        rw [hall]
        exact h.table
      · exact congrArg (· + 1) h.stops
  | cons r rest =>
      obtain ⟨rfl, rfl⟩ := List.cons_eq_cons.mp hmine
      refine .finishing u (gone ++ [r]) rest ⟨?_, ?_, hothers, ?_, h.stops⟩
      · rw [h.split, List.append_assoc]
        rfl
      · rw [Sys.after_code_self]
        rfl
      · obtain ⟨base, hbase, hhandle⟩ := h.table
        refine ⟨base, hbase, ?_⟩
        rw [releaseAll_append, ← hhandle]
        rfl

/-- **Every step keeps within the phases.** -/
theorem Inv.step (h : Inv t s) (u : Thread) : Inv t (step s u) := by
  refine Sys.step_keeps h (.run u) (fun v b k hm hcode => ?_) fun v p hm => by cases hm
  cases h with
  | begun h =>
      cases v with
      | stop =>
          rw [h.stop] at hcode
          obtain ⟨rfl, rfl⟩ := List.cons_eq_cons.mp hcode
          exact h.run_begin
      | completion x => exact .begun (h.run_block hcode)
  | closing ph h =>
      cases v with
      | stop => exact .closing ph (h.run_cancel hcode)
      | completion x => exact h.run_block hcode
  | finishing w gone rest h =>
      by_cases hvw : v = w
      · subst hvw
        exact h.run hcode
      · rw [h.others v hvw] at hcode
        cases hcode
  | stopped h =>
      rw [h.idle v] at hcode
      cases hcode

end Step

end Rtl812x.Dext.StartStop
