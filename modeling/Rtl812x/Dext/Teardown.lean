import Rtl812x.Dext.StopRace

/-!
# The teardown as a whole

What follows from the phases of a teardown for every order of its three threads.

* `Inv.progress` — **no deadlock**: as long as something is left to do some thread gets on, and `total`,
  the work that is left, goes down;
* `stop_tears_down_once` — **whatever the order**: nothing is released twice, nothing but the sources
  before both blocks are done, the superclass is stopped once and at the end, and then nothing but the work
  queue is held;
* `start_stop_free_balanced` — **`Start`, `Stop` and `free` together**: everything is released once, except
  after a `Start` that failed with the BAR's memory in its hands.
-/

namespace Rtl812x.Dext.StartStop

open Handles Interleave Runs

/-! ### Every teardown ends -/

/-- What a statement can lead to. -/
def weight : Stmt → ℕ
  | .begin => finish.length + 3
  | .countDown => finish.length + 1
  | _ => 1

theorem weight_pos (b : Stmt) : 0 < weight b := by cases b <;> simp [weight]

def codeWeight (p : List Stmt) : ℕ := (p.map weight).sum

theorem codeWeight_append (p q : List Stmt) : codeWeight (p ++ q) = codeWeight p + codeWeight q := by
  simp [codeWeight]

theorem codeWeight_of_one {p : List Stmt} (h : ∀ b ∈ p, weight b = 1) : codeWeight p = p.length := by
  induction p with
  | nil => rfl
  | cons b p ih =>
      have hp := ih fun b hb => h b (List.mem_cons_of_mem _ hb)
      simp only [codeWeight, List.map_cons, List.sum_cons, List.length_cons] at hp ⊢
      rw [h b List.mem_cons_self, hp, Nat.add_comm]

theorem codeWeight_finish : codeWeight finish = finish.length := by
  refine codeWeight_of_one fun b hb => ?_
  rcases List.mem_append.mp hb with hb | hb
  · obtain ⟨r, -, rfl⟩ := List.mem_map.mp hb
    rfl
  · rw [List.mem_singleton.mp hb]
    rfl

/-- A statement that is not held up leads to less. -/
theorem codeWeight_eval (b : Stmt) (s : Shared) (hgo : ∀ x, b = .await x → s.cancelled x = true) :
    codeWeight (eval b s).2 < weight b := by
  cases b with
  | begin =>
      simp only [eval, weight]
      split
      · rw [codeWeight_finish]
        omega
      · have hlen : (sources s.handle).length ≤ 2 := List.length_filter_le _ _
        have hone : codeWeight ((sources s.handle).map Stmt.cancel) = (sources s.handle).length := by
          rw [codeWeight_of_one, List.length_map]
          intro b hb
          obtain ⟨x, -, rfl⟩ := List.mem_map.mp hb
          rfl
        omega
  | await x =>
      simp only [eval, hgo x rfl, if_true]
      exact weight_pos _
  | countDown =>
      simp only [eval, weight]
      split
      · rw [codeWeight_finish]
        omega
      · have hnil : codeWeight [] = 0 := rfl
        omega
  | cancel x => exact weight_pos _
  | release x => exact weight_pos _
  | drop r => exact weight_pos _
  | superStop => exact weight_pos _

def total (s : Sys Shared Stmt Thread) : ℕ :=
  codeWeight (s.code .stop) + codeWeight (s.code (.completion .timer)) +
    codeWeight (s.code (.completion .interrupt))

theorem total_step_lt {s : Sys Shared Stmt Thread} {u : Thread} {b : Stmt} {k : List Stmt}
    (hcode : s.code u = b :: k) (hgo : ∀ x, b = .await x → s.shared.cancelled x = true) :
    total (step s u) < total s := by
  have hlt := codeWeight_eval b s.shared hgo
  have hbefore : codeWeight (s.code u) = weight b + codeWeight k := by
    rw [hcode]
    rfl
  have hafter : codeWeight ((step s u).code u) = codeWeight (eval b s.shared).2 + codeWeight k := by
    rw [step, Sys.step_run hcode, Sys.after_code_self, codeWeight_append]
  have hframe : ∀ v, v ≠ u → (step s u).code v = s.code v := by
    intro v hv
    rw [step, Sys.step_run hcode, Sys.after_code_of_ne hv]
  rw [total, total]
  cases u with
  | stop =>
      rw [hframe (.completion .timer) (by decide), hframe (.completion .interrupt) (by decide)]
      omega
  | completion x =>
      rw [hframe .stop (by simp)]
      cases x with
      | timer =>
          rw [hframe (.completion .interrupt) (by decide)]
          omega
      | interrupt =>
          rw [hframe (.completion .timer) (by decide)]
          omega

/-- **No deadlock**: some thread gets on, unless all is done. -/
theorem Inv.progress {t : Table} {s : Sys Shared Stmt Thread} (h : Inv t s) :
    Stopped t s ∨ ∃ u, total (StartStop.step s u) < total s := by
  cases h with
  | begun h => exact .inr ⟨.stop, total_step_lt h.stop nofun⟩
  | closing ph h =>
      refine .inr ?_
      cases hstop : s.code .stop with
      | cons b k =>
          refine ⟨.stop, total_step_lt hstop ?_⟩
          intro x hb
          rw [hb] at hstop
          have hmem : Stmt.await x ∈ s.code .stop := by rw [hstop]; exact List.mem_cons_self
          rw [h.stop] at hmem
          obtain ⟨y, -, hy⟩ := List.mem_map.mp hmem
          cases hy
      | nil =>
          -- everything is cancelled, so that no block is held up
          have hcancelled : ∀ x, ph x ≠ .absent → s.shared.cancelled x = true := by
            intro x ha
            have hempty := h.stop.symm.trans hstop
            rw [List.map_eq_nil_iff, List.filter_eq_nil_iff] at hempty
            have hmem : x ∈ sources t := by
              refine List.mem_filter.mpr ⟨by cases x <;> decide, ?_⟩
              exact Bool.eq_true_of_not_eq_false fun hnot => ha ((h.absent x).mpr hnot)
            simpa using hempty x hmem
          obtain ⟨x, hx⟩ := h.exists_live
          have hne : ph x ≠ .absent := by
            intro ha
            rw [ha] at hx
            exact absurd hx (by decide)
          have hblock := h.block x
          refine ⟨.completion x, ?_⟩
          cases hph : ph x with
          | absent => exact absurd hph hne
          | counted =>
              rw [hph] at hx
              exact absurd hx (by decide)
          | waiting =>
              rw [hph] at hblock
              refine total_step_lt hblock ?_
              intro y hy
              cases hy
              exact hcancelled x hne
          | going =>
              rw [hph] at hblock
              exact total_step_lt hblock nofun
          | released =>
              rw [hph] at hblock
              exact total_step_lt hblock nofun
  | finishing u gone rest h =>
      refine .inr ⟨u, ?_⟩
      cases rest with
      | nil => exact total_step_lt h.mine nofun
      | cons r rest => exact total_step_lt h.mine nofun
  | stopped h => exact .inl h

/-- From wherever it is, a teardown can be brought to its end. -/
theorem Inv.exists_stopped {t : Table} {s : Sys Shared Stmt Thread} (h : Inv t s) :
    ∃ more, Stopped t (exec StartStop.step s more) := by
  induction hn : total s using Nat.strong_induction_on generalizing s with
  | _ n ih =>
      rcases h.progress with hstopped | ⟨u, hlt⟩
      · exact ⟨[], hstopped⟩
      · obtain ⟨more, hmore⟩ := ih _ (hn ▸ hlt) (h.step u) rfl
        exact ⟨u :: more, hmore⟩

/-! ### Whatever the order -/

section Results

variable {t : Table} {s : Sys Shared Stmt Thread}

/-- Nothing is released twice. -/
theorem Inv.even (h : Inv t s) (heven : ∀ r, (t r).Even) (r : Resource) : (s.shared.handle r).Even := by
  cases h with
  | begun h => rw [h.shared]; exact heven r
  | closing ph h => exact h.table.even (heven r)
  | finishing u gone rest h =>
      obtain ⟨base, hbase, hhandle⟩ := h.table
      rw [hhandle]
      exact releaseAll_even (hbase.even (heven r)) gone
  | stopped h =>
      obtain ⟨base, hbase, hhandle⟩ := h.table
      rw [hhandle]
      exact releaseAll_even (hbase.even (heven r)) finishResources

/-- Releasing resources keeps the pointers null that are. -/
theorem releaseAll_ptr {x : Resource} (h : (t x).ptr = false) (rs : List Resource) :
    (releaseAll rs t x).ptr = false := by
  induction rs generalizing t with
  | nil => exact h
  | cons r rs ih =>
      refine ih ?_
      rw [release]
      split
      · exact Bool.eq_false_of_not_eq_true fun hptr => by
          rw [(releases_drop r t).ptr hptr] at h
          cases h
      · exact h

/-- As long as a source is held, nothing else is released. -/
theorem Inv.frame (h : Inv t s) {x : Source} (hx : (s.shared.handle x.resource).ptr = true) {r : Resource}
    (hr : r ∈ finishResources) : s.shared.handle r = t r := by
  have hsource := (mem_finishResources.mp hr).2
  cases h with
  | begun h => rw [h.shared]
  | closing ph h =>
      refine h.table.frame r ?_
      rintro ⟨y, hy, -⟩
      exact hsource y hy
  | finishing u gone rest h =>
      obtain ⟨base, hbase, hhandle⟩ := h.table
      rw [hhandle, releaseAll_ptr (hbase.null _ ⟨x, rfl⟩)] at hx
      cases hx
  | stopped h =>
      obtain ⟨base, hbase, hhandle⟩ := h.table
      rw [hhandle, releaseAll_ptr (hbase.null _ ⟨x, rfl⟩)] at hx
      cases hx

/-- At the end everything is released, the work queue apart. -/
theorem Stopped.releases (h : Stopped t s) (hpool : Pooled finishResources t) :
    Releases (· ≠ .workQueue) t s.shared.handle := by
  obtain ⟨base, hbase, hhandle⟩ := h.table
  -- packets and pools are as they were when `finish` is run
  have hframe : ∀ r : Resource, r ∈ finishResources → base r = t r := by
    intro r hr
    refine hbase.frame r ?_
    rintro ⟨y, hy⟩
    exact (mem_finishResources.mp hr).2 y hy
  have hpooled : Pooled finishResources base := by
    intro r hr p hp hptr
    have hpmem : p ∈ finishResources := by
      obtain rfl | rfl := pool_eq_some hp
      · simp [finishResources]
      · simp [finishResources]
    rw [hframe p hpmem]
    rw [hframe r hr] at hptr
    exact hpool r hr p hp hptr
  rw [hhandle]
  refine (hbase.trans (releases_releaseAll finishResources_pairwise hpooled)).congr fun r => ?_
  rw [mem_finishResources]
  constructor
  · rintro (⟨x, rfl⟩ | ⟨hne, -⟩)
    · cases x <;> decide
    · exact hne
  · intro hne
    by_cases hx : ∃ x : Source, r = x.resource
    · exact .inl hx
    · exact .inr ⟨hne, fun x hr => hx ⟨x, hr⟩⟩

/-- The superclass is stopped once, when nobody has anything left to do. -/
theorem Inv.superStops (h : Inv t s) :
    s.shared.superStops ≤ 1 ∧ (s.shared.superStops = 1 ↔ ∀ u, s.code u = []) ∧
      (s.shared.superStops = 1 → Stopped t s) := by
  have hrunning : ∀ u b k, s.code u = b :: k → s.shared.superStops = 0 →
      s.shared.superStops ≤ 1 ∧ (s.shared.superStops = 1 ↔ ∀ u, s.code u = []) ∧
        (s.shared.superStops = 1 → Stopped t s) := by
    intro u b k hcode hzero
    rw [hzero]
    refine ⟨Nat.zero_le 1, iff_of_false (by decide) ?_, fun h => absurd h (by decide)⟩
    intro hidle
    rw [hidle u] at hcode
    cases hcode
  cases h with
  | begun h => exact hrunning _ _ _ h.stop (congrArg Shared.superStops h.shared)
  | closing ph h =>
      obtain ⟨x, hx⟩ := h.exists_live
      have hblock := h.block x
      cases hph : ph x <;> rw [hph] at hblock hx
      · exact absurd hx (by decide)
      · exact hrunning _ _ _ hblock h.stops
      · exact hrunning _ _ _ hblock h.stops
      · exact hrunning _ _ _ hblock h.stops
      · exact absurd hx (by decide)
  | finishing u gone rest h =>
      cases rest with
      | nil => exact hrunning _ _ _ h.mine h.stops
      | cons r rest => exact hrunning _ _ _ h.mine h.stops
  | stopped h => exact ⟨h.stops.le, iff_of_true h.stops h.idle, fun _ => h⟩

end Results

theorem inv_exec (t : Table) (moves : List Thread) : Inv t (exec step (stopping t) moves) :=
  invariant_exec (fun _ u h => h.step u) (inv_stopping t)

/-- **The teardown, whatever the order** of the three threads. -/
theorem stop_tears_down_once (t : Table) (heven : ∀ r, (t r).Even) (hpool : Pooled finishResources t)
    (moves : List Thread) :
    let s := exec step (stopping t) moves
    (∀ r, (s.shared.handle r).Even) ∧
      (∀ x : Source, (s.shared.handle x.resource).ptr = true → ∀ r ∈ finishResources, s.shared.handle r = t r) ∧
      s.shared.superStops ≤ 1 ∧ (s.shared.superStops = 1 ↔ ∀ u, s.code u = []) ∧
      (s.shared.superStops = 1 → ∀ r, r ≠ .workQueue → (s.shared.handle r).ptr = false) ∧
      ∃ more, (exec step s more).shared.superStops = 1 := by
  intro s
  have hinv : Inv t s := inv_exec t moves
  obtain ⟨hle, hidle, hstopped⟩ := hinv.superStops
  refine ⟨hinv.even heven, fun x hx r hr => hinv.frame hx hr, hle, hidle, ?_, ?_⟩
  · intro hone r hr
    exact ((hstopped hone).releases hpool).null r hr
  · obtain ⟨more, hmore⟩ := hinv.exists_stopped
    exact ⟨more, hmore.stops⟩

/-- Everything is held; the interrupt's block is done and the timer's is not. -/
theorem stop_tears_down_once_halfway :
    let t : Table := fun _ => ⟨true, 1, 0⟩
    let s := exec step (stopping t)
      [.stop, .stop, .stop, .completion .interrupt, .completion .interrupt, .completion .interrupt]
    (s.shared.handle .intSource).ptr = false ∧ (s.shared.handle .statsTimer).ptr = true ∧
      s.shared.handle .barMap = t .barMap ∧ ∃ more, (exec step s more).shared.superStops = 1 := by
  intro t s
  have heven : ∀ r, (t r).Even := fun _ => ⟨rfl, Nat.le_refl 1⟩
  have htimer : (s.shared.handle .statsTimer).ptr = true := by decide
  obtain ⟨-, hframe, -, -, -, hmore⟩ := stop_tears_down_once t heven (fun _ _ _ _ _ => rfl)
    [.stop, .stop, .stop, .completion .interrupt, .completion .interrupt, .completion .interrupt]
  exact ⟨by decide, htimer, hframe .timer htimer .barMap (by simp [finishResources]), hmore⟩

/-! ### `Start`, `Stop` and `free` -/

theorem up_of_start {c : StartCalls} (h : (start c).1 = true) : Up order.reverse (start c).2 := by
  cases hearly : c.early with
  | false =>
      rw [(start_early hearly).1] at h
      cases h
  | true => exact (outcome_start hearly).up h

/-- What was acquired is released, and no pointer is left. -/
def Balanced (t : Table) : Prop := ∀ r, (t r).ptr = false ∧ (t r).released = (t r).acquired

theorem balanced_of_clean {t : Table} (h : Clean t) : Balanced (free t) := by
  have hrel : Releases (· = Resource.workQueue) t (free t) := releases_drop _ t
  intro r
  have hptr : (free t r).ptr = false := Bool.eq_false_of_not_eq_true fun hptr => by
    have hold := hrel.ptr hptr
    rw [(h r).2] at hold
    cases hold
  exact ⟨hptr, (hrel.even (h r).1).released_eq hptr⟩

/-- After a whole teardown `free` leaves nothing. -/
theorem Stopped.balanced {t : Table} {s : Sys Shared Stmt Thread} (h : Stopped t s)
    (hpool : Pooled finishResources t) (heven : ∀ r, (t r).Even) : Balanced (free s.shared.handle) := by
  have hall := ((h.releases hpool).trans (releases_drop .workQueue s.shared.handle)).congr
    (Q := fun _ => True) fun r => iff_of_true (ne_or_eq r .workQueue) trivial
  intro r
  have hptr : (free s.shared.handle r).ptr = false := hall.null r trivial
  exact ⟨hptr, (hall.even (heven r)).released_eq hptr⟩

/-- A driver that was started has a pool for every packet. -/
theorem pooled_of_start {c : StartCalls} (h : (start c).1 = true) {t : Table}
    (hsame : ∀ r, r.pool = none → t r = (start c).2 r) : Pooled finishResources t := by
  intro r _ p hp _
  have hup := up_of_start h
  obtain rfl | rfl := pool_eq_some hp
  · rw [hsame _ rfl]
    exact hup.held _ (by decide) rfl
  · rw [hsame _ rfl]
    exact hup.held _ (by decide) rfl

/-- **`Start`, `Stop` and `free` together.**  After a `Start` that succeeds, whatever packets the rings
come to hold and in whatever order the teardown runs, everything acquired has been released once when it
is over.  After a `Start` that fails that is so if and only if it failed before it had the BAR's memory. -/
theorem start_stop_free_balanced (c : StartCalls) :
    ((start c).1 = true → ∀ t : Table, (∀ r, r.pool = none → t r = (start c).2 r) → (∀ r, (t r).Even) →
      ∀ moves, (exec step (stopping t) moves).shared.superStops = 1 →
        Balanced (free (exec step (stopping t) moves).shared.handle)) ∧
    ((start c).1 = false → (Balanced (free (start c).2) ↔ c.early = false)) := by
  refine ⟨?_, ?_⟩
  · intro hok t hsame heven moves hone
    obtain ⟨-, -, hstopped⟩ := (inv_exec t moves).superStops
    exact (hstopped hone).balanced (pooled_of_start hok hsame) heven
  · intro hbad
    constructor
    · intro hbalanced
      by_contra hearly
      have hfailed := (outcome_start (Bool.eq_true_of_not_eq_false hearly)).failed hbad
      -- the BAR's memory is still there, and `free` does not touch it
      have hrel : Releases (· = Resource.workQueue) (start c).2 (free (start c).2) := releases_drop _ _
      have hheld := hfailed.kept .barMd (by decide) (by decide) rfl
      have hgone := (hbalanced .barMd).1
      rw [hrel.frame _ (by decide), hheld] at hgone
      cases hgone
    · intro hearly
      exact balanced_of_clean (start_early hearly).2

/-- All calls succeed; the last one fails. -/
theorem start_stop_free_balanced_register :
    let k : DmaCalls := ⟨true, true, true⟩
    let c : Bool → StartCalls := fun register => ⟨true, true, true, true, true, true, true, k, k, k, true, true,
      true, true, true, true, true, true, true, fun _ => true, fun _ => true, true, true, register⟩
    (start (c true)).1 = true ∧ (start (c false)).1 = false ∧ ¬ Balanced (free (start (c false)).2) := by
  intro k c
  have hbad : (start (c false)).1 = false := by decide
  refine ⟨by decide, hbad, ?_⟩
  rw [(start_stop_free_balanced (c false)).2 hbad]
  decide

end Rtl812x.Dext.StartStop
