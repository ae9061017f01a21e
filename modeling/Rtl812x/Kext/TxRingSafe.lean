import Rtl812x.Kext.TxInStep
import Rtl812x.Kext.TxRingInv

/-!
# Safety of the transmit ring

The statements of `outputStart`, `txInterrupt` and `clearRxTxRings` are interleaved in every way.  A
`txInterrupt` that is in its loop has already stored the close pointer, so the descriptors it is still
to retire are counted beside the pointers (`pending`).

* `Clears` — a `clearRxTxRings` will still come to a slot before it restarts the counters;
* `KeepsRing` — the counters are restarted only while no `txInterrupt` is in its loop, and no packet goes
  to a slot that a `clearRxTxRings` in progress has passed;
* `RingSafe` — what must hold of free descriptors, pointers, unclosed descriptors and mbufs;
* `txRing_safe` — **every state of a run of such steps is safe**;
* `clear_during_interrupt` — `clearRxTxRings` in the middle of `txInterrupt`.
-/

namespace Rtl812x.Kext.TxRing

open Circular WrapCounter Interleave Runs Slots

inductive Thread where
  | output | workLoop | poll
deriving DecidableEq, Repr

instance {p : Thread → Prop} [DecidablePred p] : Decidable (∀ u, p u) :=
  decidable_of_iff (p .output ∧ p .workLoop ∧ p .poll)
    ⟨fun h u => by cases u; exacts [h.1, h.2.1, h.2.2], fun h => ⟨h _, h _, h _⟩⟩

abbrev RingSys := Sys State Stmt Thread

/-- A thread runs its next statement, or an idle thread is called. -/
inductive Op where
  | run (t : Thread)
  | call (t : Thread) (c : Call)

def Op.move (vtd : Bool) : Op → Move Stmt Thread
  | .run t => .run t
  | .call t c => .call t (c.code vtd)

def ringStep (cfg : TxConfig) (vtd : Bool) (s : RingSys) (op : Op) : RingSys :=
  s.step (eval cfg vtd) (op.move vtd)

def RingSys.init : RingSys := ⟨⟨TxSide.init, []⟩, fun _ => []⟩

/-! ### What lies ahead -/

def Stmt.isRetire : Stmt → Bool
  | .retire => true
  | _ => false

/-- The rounds of `txInterrupt` that a thread has still to run. -/
def retires (l : List Stmt) : ℕ := l.countP Stmt.isRetire

def pending (s : RingSys) : ℕ :=
  retires (s.code .output) + retires (s.code .workLoop) + retires (s.code .poll)

/-- The code does not restart the counters, or comes to slot `i` before it does. -/
def Clears (i : ℕ) : List Stmt → Prop
  | [] => True
  | .clearDesc j :: k => j = i ∨ Clears i k
  | .restartRing :: _ => False
  | .testFlags _ :: k | .round _ :: k | .doorbell :: k | .readClose _ :: k | .retire :: k
  | .clearMem _ :: k | .restartMap :: k | .setFlags _ _ :: k => Clears i k

instance decidableClears (i : ℕ) : DecidablePred (Clears i)
  | [] => isTrue trivial
  | .clearDesc j :: k =>
      have := decidableClears i k
      inferInstanceAs (Decidable (j = i ∨ Clears i k))
  | .restartRing :: _ => isFalse not_false
  | .testFlags _ :: k | .round _ :: k | .doorbell :: k | .readClose _ :: k | .retire :: k
  | .clearMem _ :: k | .restartMap :: k | .setFlags _ _ :: k => decidableClears i k

section Ahead

variable {cfg : TxConfig} {vtd : Bool} {b : Stmt} {k l : List Stmt} {i : ℕ}

theorem retires_cons (b : Stmt) (k : List Stmt) :
    retires (b :: k) = retires k + if b.isRetire then 1 else 0 := List.countP_cons

theorem retires_append (l k : List Stmt) : retires (l ++ k) = retires l + retires k :=
  List.countP_append

theorem retires_replicate (m : ℕ) : retires (List.replicate m .retire) = m := by
  induction m with
  | zero => rfl
  | succ m ih => rw [List.replicate_succ, retires_cons, ih]; rfl

/-- A statement other than that of slot `i` does not come to it. -/
theorem clears_tail (h : Clears i (b :: k)) (hb : b ≠ .clearDesc i) : Clears i k := by
  cases b with
  | clearDesc j => exact h.resolve_left fun hj => hb (by rw [hj])
  | restartRing => exact absurd h not_false
  | _ => exact h

/-- What a statement is followed by clears nothing. -/
theorem clears_eval (b : Stmt) (s : State) (h : Clears i k) : Clears i ((eval cfg vtd b s).2 ++ k) := by
  cases b with
  | testFlags queue =>
      rw [eval]
      split <;> exact h
  | round queue =>
      cases queue with
      | nil => exact h
      | cons o rest =>
          rw [eval]
          split <;> exact h
  | readClose reg =>
      rw [eval]
      generalize numDone cfg reg s.side = m
      induction m with
      | zero => exact h
      | succ m ih => exact ih
  | _ => exact h

theorem clears_mems (ms : List ℕ) (h : Clears i k) : Clears i (ms.map .clearMem ++ k) := by
  induction ms with
  | nil => exact h
  | cons m ms ih => exact ih

theorem clears_descs (ds : List ℕ) (h : i ∈ ds) : Clears i (ds.map .clearDesc ++ [.restartRing]) := by
  induction ds with
  | nil => cases h
  | cons j ds ih =>
      rcases List.mem_cons.mp h with rfl | h
      · exact Or.inl rfl
      · exact Or.inr (ih h)

/-- The loop over the ring comes to every slot. -/
theorem clears_code (c : Call) (hi : i < kNumTxDesc) : Clears i (c.code vtd) := by
  cases c with
  | clearRxTxRings =>
      rw [Call.code]
      generalize kNumTxDesc = n, kNumTxMemDesc = m at hi ⊢
      have hring := clears_descs (List.range n) (List.mem_range.mpr hi)
      cases vtd with
      | false => exact hring
      | true =>
          rw [if_pos rfl, List.append_assoc]
          exact clears_mems _ hring
  | _ => trivial

theorem retires_map {f : ℕ → Stmt} (hf : ∀ j, (f j).isRetire = false) (l : List ℕ) :
    retires (l.map f) = 0 := by
  rw [retires, List.countP_map, List.countP_eq_zero]
  intro j _
  exact Bool.eq_false_iff.mp (hf j)

theorem retires_code (c : Call) : retires (c.code vtd) = 0 := by
  cases c with
  | clearRxTxRings =>
      rw [Call.code, retires_append, retires_append, retires_map fun _ => rfl]
      cases vtd with
      | false => rfl
      | true =>
          rw [if_pos rfl, retires_append, retires_map fun _ => rfl]
          rfl
  | _ => rfl

end Ahead

/-! ### Conditions -/

/-- What the chip and the mbuf cursor promise: the close pointer moves within what has been placed, and
there are at most as many segments as asked for. -/
def Stmt.Legal (cfg : TxConfig) (d : TxSide) : Stmt → Prop
  | .readClose reg => LegalClose cfg.mcfg d.hw reg
  | .round (o :: _) => o.cursor.length ≤ kMaxSegs
  | _ => True

instance (cfg : TxConfig) (d : TxSide) : DecidablePred (Stmt.Legal cfg d)
  | .readClose reg => inferInstanceAs (Decidable (LegalClose cfg.mcfg d.hw reg))
  | .round (o :: _) => inferInstanceAs (Decidable (o.cursor.length ≤ kMaxSegs))
  | .testFlags _ | .round [] | .doorbell | .retire | .clearMem _ | .restartMap | .clearDesc _
  | .restartRing | .setFlags _ _ => isTrue trivial

def Legal (cfg : TxConfig) (s : RingSys) : Op → Prop
  | .run t => ∀ b ∈ (s.code t).head?, b.Legal cfg s.shared.side
  | .call _ _ => True

instance (cfg : TxConfig) (s : RingSys) : DecidablePred (Legal cfg s)
  | .run t => inferInstanceAs (Decidable (∀ b ∈ (s.code t).head?, b.Legal cfg s.shared.side))
  | .call _ _ => isTrue trivial

/-- The counters are restarted while nothing is to be retired, and an mbuf goes only to a slot that
every `clearRxTxRings` in progress will still come to. -/
def Stmt.Keeps (cfg : TxConfig) (vtd : Bool) (s : RingSys) : Stmt → Prop
  | .restartRing => pending s = 0
  | .round (o :: _) => HasRoom s.shared.side →
      ∀ i ∈ lastIndex cfg vtd o s.shared.side, ∀ u, Clears i (s.code u)
  | _ => True

instance (cfg : TxConfig) (vtd : Bool) (s : RingSys) : DecidablePred (Stmt.Keeps cfg vtd s)
  | .restartRing => inferInstanceAs (Decidable (pending s = 0))
  | .round (o :: _) => inferInstanceAs (Decidable (HasRoom s.shared.side →
      ∀ i ∈ lastIndex cfg vtd o s.shared.side, ∀ u, Clears i (s.code u)))
  | .testFlags _ | .round [] | .doorbell | .readClose _ | .retire | .clearMem _ | .restartMap
  | .clearDesc _ | .setFlags _ _ => isTrue trivial

def KeepsRing (cfg : TxConfig) (vtd : Bool) (s : RingSys) : Op → Prop
  | .run t => ∀ b ∈ (s.code t).head?, b.Keeps cfg vtd s
  | .call _ _ => True

instance (cfg : TxConfig) (vtd : Bool) (s : RingSys) : DecidablePred (KeepsRing cfg vtd s)
  | .run t => inferInstanceAs (Decidable (∀ b ∈ (s.code t).head?, b.Keeps cfg vtd s))
  | .call _ _ => isTrue trivial

/-! ### The invariant of a run -/

structure SysInv (cfg : TxConfig) (s : RingSys) : Prop where
  ring : ∃ n, RingInv cfg.mcfg s.shared.side s.shared.taken n (pending s)
  ahead : ∀ i, s.shared.side.txMbuf i ≠ none → ∀ u, Clears i (s.code u)

section Step

variable {cfg : TxConfig} {vtd : Bool} {s : RingSys} {t : Thread} {b : Stmt} {k : List Stmt}

theorem pending_after (cfg : TxConfig) (vtd : Bool) (hcode : s.code t = b :: k) :
    pending (s.after (eval cfg vtd) t b k) + retires (b :: k) =
      pending s + retires ((eval cfg vtd b s.shared).2 ++ k) := by
  cases t <;> simp only [pending, Sys.after, Function.update_self, hcode, ne_eq, reduceCtorEq,
    not_false_eq_true, Function.update_of_ne] <;> omega

theorem pending_call (hcode : s.code t = []) (c : Call) :
    pending ⟨s.shared, Function.update s.code t (c.code vtd)⟩ = pending s := by
  cases t <;> simp only [pending, Function.update_self, hcode, ne_eq, reduceCtorEq,
    not_false_eq_true, Function.update_of_ne, retires_code] <;> rfl

/-- **The rule for a statement**: it keeps the ring, and an mbuf that is there afterwards was there or
is placed ahead of every loop over the ring. -/
theorem SysInv.after (hs : SysInv cfg s) (hcode : s.code t = b :: k)
    (hring : ∃ n, RingInv cfg.mcfg (eval cfg vtd b s.shared).1.side (eval cfg vtd b s.shared).1.taken n
      (pending (s.after (eval cfg vtd) t b k)))
    (hmbuf : ∀ i, (eval cfg vtd b s.shared).1.side.txMbuf i ≠ none →
      b ≠ .clearDesc i ∧ (s.shared.side.txMbuf i ≠ none ∨ ∀ u, Clears i (s.code u))) :
    SysInv cfg (s.after (eval cfg vtd) t b k) := by
  refine ⟨hring, fun i hi u => ?_⟩
  obtain ⟨hb, hold⟩ := hmbuf i hi
  have hclears : ∀ u, Clears i (s.code u) := hold.elim (hs.ahead i) id
  by_cases hut : u = t
  · subst hut
    have hhead := hclears u
    rw [hcode] at hhead
    rw [Sys.after_code_self]
    exact clears_eval b s.shared (clears_tail hhead hb)
  · rw [Sys.after_code_of_ne hut]
    exact hclears u

/-- A statement that leaves the ring alone. -/
theorem SysInv.quiet (hs : SysInv cfg s) (hcode : s.code t = b :: k)
    (hkept : RingKept s.shared.side (eval cfg vtd b s.shared).1.side)
    (htaken : (eval cfg vtd b s.shared).1.taken = s.shared.taken)
    (hretires : retires ((eval cfg vtd b s.shared).2 ++ k) = retires (b :: k))
    (hb : ∀ i, b ≠ .clearDesc i) : SysInv cfg (s.after (eval cfg vtd) t b k) := by
  obtain ⟨n, hr⟩ := hs.ring
  have hpending := pending_after cfg vtd hcode
  refine hs.after hcode ⟨n, ?_⟩ fun i hi => ⟨hb i, Or.inl ?_⟩
  · rw [htaken, show pending (s.after (eval cfg vtd) t b k) = pending s by omega]
    exact hr.congr hkept
  · rwa [← hkept.txMbuf]

/-- A round of `outputStart` that finds room. -/
theorem SysInv.round {o : Offer} {rest : List Offer} (hs : SysInv cfg s)
    (hcode : s.code t = .round (o :: rest) :: k) (hroom : HasRoom s.shared.side)
    (hlegal : (Stmt.round (o :: rest)).Legal cfg s.shared.side)
    (hkeeps : (Stmt.round (o :: rest)).Keeps cfg vtd s) :
    SysInv cfg (s.after (eval cfg vtd) t (.round (o :: rest)) k) := by
  obtain ⟨n, hr⟩ := hs.ring
  have heval : eval cfg vtd (.round (o :: rest)) s.shared =
      (s.shared.output cfg vtd o, [.round rest]) := if_pos hroom
  obtain ⟨n', hr'⟩ := hr.output vtd hroom hlegal
  have hpending := pending_after cfg vtd hcode
  rw [heval] at hpending
  refine hs.after hcode ⟨n', ?_⟩ fun i hi => ⟨by simp, ?_⟩
  · rw [heval, show pending (s.after (eval cfg vtd) t _ k) = pending s from
      Nat.add_right_cancel hpending]
    exact hr'
  · rw [heval] at hi
    rcases hr.output_txMbuf vtd hlegal hi with hold | hlast
    · exact Or.inl hold
    · exact Or.inr (hkeeps hroom i hlast)

/-- A round of `txInterrupt`: a descriptor less is pending. -/
theorem SysInv.retire (hs : SysInv cfg s) (hcode : s.code t = .retire :: k) :
    SysInv cfg (s.after (eval cfg vtd) t .retire k) := by
  obtain ⟨n, hr⟩ := hs.ring
  have hpending := pending_after cfg vtd hcode
  rw [retires_cons] at hpending
  have hpend : pending (s.after (eval cfg vtd) t .retire k) + 1 = pending s := by
    have : retires ((eval cfg vtd .retire s.shared).2 ++ k) = retires k := rfl
    simp [Stmt.isRetire] at hpending
    omega
  have hn := hr.acct.lag_eq
  obtain _ | n := n
  · omega
  rw [← hpend] at hr
  refine hs.after hcode ⟨n, hr.retire vtd⟩ fun i hi => ⟨by simp, Or.inl ?_⟩
  intro hnone
  apply hi
  show (retireDesc vtd s.shared.side).txMbuf i = none
  rw [(retireDesc_ring vtd s.shared.side).2.2.1]
  by_cases hid : i = s.shared.side.hw.txDirtyDescIndex
  · rw [hid, Function.update_self]
  · rw [Function.update_of_ne hid]
    exact hnone

/-- A slot is cleared; the ones `clearRxTxRings` has still to come to are as they were. -/
theorem SysInv.clearDesc {i : ℕ} (hs : SysInv cfg s) (hcode : s.code t = .clearDesc i :: k) :
    SysInv cfg (s.after (eval cfg vtd) t (.clearDesc i) k) := by
  obtain ⟨n, hr⟩ := hs.ring
  have hpending := pending_after cfg vtd hcode
  refine hs.after hcode ⟨n, ?_⟩ fun l hl => ?_
  · rw [show pending (s.after (eval cfg vtd) t _ k) = pending s from Nat.add_right_cancel hpending]
    exact hr.clearDesc i
  · have hmbuf : Function.update s.shared.side.txMbuf i none l ≠ none := by
      simpa only [eval, State.map, clearDesc_eq] using hl
    by_cases hli : l = i
    · rw [hli, Function.update_self] at hmbuf
      exact absurd rfl hmbuf
    · rw [Function.update_of_ne hli] at hmbuf
      exact ⟨by simpa using fun he => hli he.symm, Or.inl hmbuf⟩

/-- The counters are restarted: every slot has been cleared, and no `txInterrupt` is in its loop. -/
theorem SysInv.restartRing (hs : SysInv cfg s) (hcode : s.code t = .restartRing :: k)
    (hkeeps : Stmt.restartRing.Keeps cfg vtd s) :
    SysInv cfg (s.after (eval cfg vtd) t .restartRing k) := by
  obtain ⟨n, hr⟩ := hs.ring
  have hpending := pending_after cfg vtd hcode
  have hempty : ∀ i, s.shared.side.txMbuf i = none := by
    intro i
    by_contra hi
    have := hs.ahead i hi t
    rw [hcode] at this
    exact this
  refine hs.after hcode ⟨0, ?_⟩ fun i hi => ⟨by simp, Or.inl hi⟩
  rw [show pending (s.after (eval cfg vtd) t _ k) = 0 from
    (Nat.add_right_cancel hpending).trans hkeeps]
  exact hr.restart hempty

/-- **One statement** of one thread. -/
theorem SysInv.stmt (hs : SysInv cfg s) (hcode : s.code t = b :: k) (hlegal : b.Legal cfg s.shared.side)
    (hkeeps : b.Keeps cfg vtd s) : SysInv cfg (s.after (eval cfg vtd) t b k) := by
  have hkept : RingKept s.shared.side s.shared.side := ⟨rfl, rfl, rfl, rfl⟩
  cases b with
  | testFlags queue =>
      refine hs.quiet hcode hkept rfl ?_ (fun i => by simp)
      rw [eval]
      split <;> rfl
  | round queue =>
      cases queue with
      | nil => exact hs.quiet hcode hkept rfl rfl (fun i => by simp)
      | cons o rest =>
          by_cases hroom : HasRoom s.shared.side
          · exact hs.round hcode hroom hlegal hkeeps
          · refine hs.quiet hcode ?_ ?_ ?_ (fun i => by simp) <;> rw [eval, if_neg hroom]
            exacts [hkept, rfl]
  | doorbell => exact hs.quiet hcode ⟨rfl, rfl, rfl, rfl⟩ rfl rfl (fun i => by simp)
  | readClose reg =>
      obtain ⟨n, hr⟩ := hs.ring
      have hpending := pending_after cfg vtd hcode
      refine hs.after hcode ⟨n, ?_⟩ fun i hi => ⟨by simp, Or.inl hi⟩
      rw [eval, retires_append, retires_replicate, retires_cons] at hpending
      rw [show pending (s.after (eval cfg vtd) t _ k) = numDone cfg reg s.shared.side + pending s by
        simp [Stmt.isRetire] at hpending; omega]
      exact hr.readClose hlegal
  | retire => exact hs.retire hcode
  | clearMem i => exact hs.quiet hcode ⟨rfl, rfl, rfl, rfl⟩ rfl rfl (fun i => by simp)
  | restartMap => exact hs.quiet hcode ⟨rfl, rfl, rfl, rfl⟩ rfl rfl (fun i => by simp)
  | clearDesc i => exact hs.clearDesc hcode
  | restartRing => exact hs.restartRing hcode hkeeps
  | setFlags enabled linkUp => exact hs.quiet hcode ⟨rfl, rfl, rfl, rfl⟩ rfl rfl (fun i => by simp)

end Step

theorem SysInv.call {cfg : TxConfig} {s : RingSys} {t : Thread} (hs : SysInv cfg s)
    (hcode : s.code t = []) (vtd : Bool) (c : Call) :
    SysInv cfg ⟨s.shared, Function.update s.code t (c.code vtd)⟩ := by
  obtain ⟨n, hr⟩ := hs.ring
  refine ⟨⟨n, ?_⟩, fun i hi u => ?_⟩
  · rw [pending_call hcode]
    exact hr
  · show Clears i (Function.update s.code t (c.code vtd) u)
    by_cases hut : u = t
    · subst hut
      rw [Function.update_self]
      exact clears_code c (hr.mbuf_lt hi)
    · rw [Function.update_of_ne hut]
      exact hs.ahead i hi u

theorem SysInv.step {cfg : TxConfig} {vtd : Bool} {s : RingSys} (hs : SysInv cfg s) (op : Op)
    (hlegal : Legal cfg s op) (hkeeps : KeepsRing cfg vtd s op) : SysInv cfg (ringStep cfg vtd s op) := by
  refine Sys.step_keeps hs (op.move vtd) ?_ ?_
  · intro t b k hop hcode
    cases op with
    | call _ _ => cases hop
    | run u =>
        cases hop
        have hhead : b ∈ (s.code t).head? := by
          rw [hcode]
          rfl
        exact hs.stmt hcode (hlegal b hhead) (hkeeps b hhead)
  · intro t p hop hcode
    cases op with
    | run _ => cases hop
    | call u c =>
        cases hop
        exact hs.call hcode vtd c

theorem SysInv.init (cfg : TxConfig) : SysInv cfg RingSys.init :=
  ⟨⟨0, RingInv.init _⟩, fun _ hi => absurd rfl hi⟩

/-! ### Safety -/

/-- The ring is safe. -/
structure RingSafe (cfg : TxConfig) (vtd : Bool) (s : RingSys) : Prop where
  free_ge : 4 ≤ s.shared.side.hw.txNumFreeDesc
  free_le : s.shared.side.hw.txNumFreeDesc ≤ kNumTxDesc
  /-- the pointers are as far apart as descriptors are in flight, up to those that a `txInterrupt` in
  its loop is still to retire -/
  balance : (lag (descPtrPeriod cfg.mcfg) s.shared.side.hw.txTailPtr0 s.shared.side.hw.txClosePtr0 : ℤ) +
    pending s = kNumTxDesc - s.shared.side.hw.txNumFreeDesc
  /-- whichever packet `outputStart` takes next, what is not yet closed stays as it is -/
  unclosed : ∀ o : Offer, o.cursor.length ≤ kMaxSegs → HasRoom s.shared.side → ∀ i < kNumTxDesc,
    Unclosed cfg.mcfg s.shared.side.hw i →
      (outputPacket cfg vtd o s.shared.side).txDesc i = s.shared.side.txDesc i ∧
      (outputPacket cfg vtd o s.shared.side).txMbuf i = s.shared.side.txMbuf i
  /-- `txInterrupt` frees from a closed descriptor -/
  closed : 0 < pending s → ¬ Unclosed cfg.mcfg s.shared.side.hw s.shared.side.hw.txDirtyDescIndex
  /-- an mbuf stands in the last descriptor of its packet -/
  last : MarkedLast s.shared.side
  /-- every packet taken is freed once, or is on the ring -/
  once : s.shared.taken.Perm
    (frees s.shared.side.trace ++ held kNumTxDesc s.shared.side.txMbuf)

theorem SysInv.safe {cfg : TxConfig} {s : RingSys} (hs : SysInv cfg s) (vtd : Bool) :
    RingSafe cfg vtd s := by
  obtain ⟨n, hr⟩ := hs.ring
  have hfree := hr.acct.free_eq
  have hroom := hr.acct.room
  have hlag := hr.acct.lag_eq
  refine ⟨by omega, by omega, by omega, ?_, ?_, hr.last, hr.once⟩
  · exact fun o hcursor hroom i hi hopen => hr.output_unclosed vtd hroom hcursor hi hopen
  · intro hpos
    obtain ⟨j, hj⟩ := Nat.exists_eq_add_of_lt hpos
    have hacct := hr.acct
    rw [show pending s = j + 1 by omega] at hacct
    exact hacct.dirty_closed

/-- Restarting the counters under a `txInterrupt` is never safe. -/
theorem restart_unsafe {cfg : TxConfig} {vtd : Bool} {s : RingSys} {t : Thread} {k : List Stmt}
    (hcode : s.code t = .restartRing :: k) (hpending : pending s ≠ 0) :
    ¬ RingSafe cfg vtd (ringStep cfg vtd s (.run t)) := by
  have hstep : ringStep cfg vtd s (.run t) = s.after (eval cfg vtd) t .restartRing k := Sys.step_run hcode
  have hsame : pending (s.after (eval cfg vtd) t .restartRing k) = pending s :=
    Nat.add_right_cancel (pending_after cfg vtd hcode)
  rw [hstep]
  intro hsafe
  have hbalance := hsafe.balance
  rw [hsame, show (s.after (eval cfg vtd) t .restartRing k).shared.side.hw = TxIndex.restart from rfl,
    show (TxIndex.restart.txNumFreeDesc : ℤ) = kNumTxDesc from rfl] at hbalance
  omega

/-- **The transmit ring is safe in every interleaving** in which the counters are restarted only while
no `txInterrupt` is in its loop, and no packet goes to a slot that `clearRxTxRings` has passed. -/
theorem txRing_safe (cfg : TxConfig) (vtd : Bool) (ops : List Op)
    (hrun : Along (ringStep cfg vtd) (fun s op => Legal cfg s op ∧ KeepsRing cfg vtd s op)
      RingSys.init ops) : RingSafe cfg vtd (exec (ringStep cfg vtd) RingSys.init ops) := by
  have hinv : SysInv cfg (exec (ringStep cfg vtd) RingSys.init ops) :=
    invariant_along (fun _ op hs hok => hs.step op hok.1 hok.2) (SysInv.init cfg) hrun
  exact hinv.safe vtd

/-- Packet 7, on either path one segment. -/
def shortOffer : Offer := ⟨shortPacket, [⟨0x10000, 60⟩]⟩

/-- The flags are set, and packet 7 goes to the ring. -/
def packetOut : List Op :=
  [.call .workLoop (.setFlags true true), .run .workLoop, .call .output (.outputStart [shortOffer]),
    .run .output, .run .output, .run .output, .run .output]

/-- The poll thread is in the loop of `txInterrupt` while packet 7 goes out a second time. -/
def interruptBetween : List Op :=
  packetOut ++ [Op.call .poll (.txInterrupt 1), Op.run .poll, Op.call .output (.outputStart [shortOffer]),
    Op.run .output, Op.run .output, Op.run .poll]

theorem txRing_safe_interruptBetween :
    RingSafe smallPages true (exec (ringStep smallPages true) RingSys.init interruptBetween) ∧
    (exec (ringStep smallPages true) RingSys.init interruptBetween).shared.side.hw =
      ⟨2, 1, 2, 1, 1023⟩ :=
  ⟨txRing_safe smallPages true interruptBetween (by decide +kernel), by decide +kernel⟩

/-! ### A ring cleared under `txInterrupt` -/

def Stmt.isClear : Stmt → Bool
  | .clearMem _ | .restartMap | .clearDesc _ | .restartRing => true
  | _ => false

theorem clearRxTxRings_isClear (vtd : Bool) : ∀ b ∈ Call.clearRxTxRings.code vtd, b.isClear = true := by
  have hmap : ∀ (f : ℕ → Stmt) (l : List ℕ), (∀ j, (f j).isClear = true) →
      ∀ b ∈ l.map f, b.isClear = true := by
    intro f l hf b hb
    obtain ⟨j, -, rfl⟩ := List.mem_map.mp hb
    exact hf j
  intro b hb
  rw [Call.code] at hb
  rcases List.mem_append.mp hb with hb | hb
  · cases vtd with
    | false => cases hb
    | true =>
        rcases List.mem_append.mp hb with hb | hb
        · exact hmap _ _ (fun _ => rfl) b hb
        · rw [List.mem_singleton.mp hb]
          rfl
  · rcases List.mem_append.mp hb with hb | hb
    · exact hmap _ _ (fun _ => rfl) b hb
    · rw [List.mem_singleton.mp hb]
      rfl

/-- The statements of `clearRxTxRings` promise nothing. -/
theorem legal_clear {cfg : TxConfig} {vtd : Bool} {t : Thread} (n : ℕ) {s : RingSys}
    (hs : ∀ b ∈ s.code t, b.isClear = true) :
    Along (ringStep cfg vtd) (Legal cfg) s (List.replicate n (.run t)) := by
  induction n generalizing s with
  | zero => trivial
  | succ n ih =>
      cases hcode : s.code t with
      | nil =>
          have hstep : ringStep cfg vtd s (.run t) = s := Sys.step_run_idle hcode
          refine ⟨?_, ?_⟩
          · intro b hb
            rw [hcode] at hb
            cases hb
          · rw [hstep]
            exact ih hs
      | cons b k =>
          rw [hcode] at hs
          have hb := hs b (List.mem_cons_self ..)
          have hstep : ringStep cfg vtd s (.run t) = s.after (eval cfg vtd) t b k := Sys.step_run hcode
          refine ⟨?_, ?_⟩
          · intro b' hb'
            rw [hcode] at hb'
            cases hb'
            cases b <;> trivial
          · rw [hstep]
            refine ih fun b' hb' => ?_
            rw [Sys.after_code_self] at hb'
            have hnone : (eval cfg vtd b s.shared).2 = [] := by
              cases b <;> first | rfl | cases hb
            rw [hnone] at hb'
            exact hs b' (List.mem_cons_of_mem _ hb')

/-- Packet 7 is closed, the poll thread has read the close pointer, and the work loop comes to
`clearRxTxRings`. -/
def clearComes : List Op :=
  packetOut ++ [Op.call .poll (.txInterrupt 1), Op.run .poll, Op.call .workLoop .clearRxTxRings]

/-- **`clearRxTxRings` in the middle of `txInterrupt`**: the round that is left counts one descriptor
too many. -/
theorem clear_during_interrupt :
    ∃ n, Along (ringStep smallPages true) (Legal smallPages) RingSys.init
        (clearComes ++ (List.replicate n (Op.run .workLoop) ++ [Op.run .poll])) ∧
      ¬ RingSafe smallPages true (exec (ringStep smallPages true) RingSys.init
        (clearComes ++ (List.replicate n (Op.run .workLoop) ++ [Op.run .poll]))) := by
  generalize hs : exec (ringStep smallPages true) RingSys.init clearComes = s
  have hwork : s.code .workLoop = Call.clearRxTxRings.code true := by
    subst hs
    rfl
  have hpoll : s.code .poll = [.retire] := by
    subst hs
    rfl
  have hfinishes : Finishes (eval smallPages true) _ s.shared _ := clearRxTxRings_finishes s.shared
  obtain ⟨n, hn⟩ := hfinishes.exec Thread.workLoop s rfl hwork
  have hcleared : exec (ringStep smallPages true) s (List.replicate n (.run .workLoop)) =
      ⟨s.shared.map Kext.clearRxTxRings, Function.update s.code .workLoop []⟩ := by
    rw [← hn]
    have hmap := exec_map (Sys.step (eval smallPages true)) (Op.move true) s
      (List.replicate n (.run .workLoop))
    rwa [List.map_replicate] at hmap
  have hlegal : Along (ringStep smallPages true) (Legal smallPages) RingSys.init clearComes := by
    decide +kernel
  refine ⟨n, ?_, ?_⟩
  · rw [along_append, along_append, hs, hcleared]
    refine ⟨hlegal, legal_clear n ?_, ?_, trivial⟩
    · rw [hwork]
      exact clearRxTxRings_isClear true
    · intro b hb
      have hhead : b ∈ (s.code .poll).head? := hb
      rw [hpoll] at hhead
      cases hhead
      trivial
  · intro hsafe
    have hle := hsafe.free_le
    rw [exec_append, exec_append, hs, hcleared, exec, exec, ringStep, Op.move,
      Sys.step_run (b := .retire) (k := []) hpoll] at hle
    have hfree := (retireDesc_ring true (Kext.clearRxTxRings s.shared.side)).1
    have hnum : (retireDesc true (Kext.clearRxTxRings s.shared.side)).hw.txNumFreeDesc = 1025 := by
      rw [hfree]
      rfl
    exact absurd (hnum.symm.trans_le hle) (by decide)

end Rtl812x.Kext.TxRing
