import Mathlib.Algebra.Group.Nat.Defs
import Mathlib.Algebra.Ring.Int.Defs
import Rtl812x.Lib.LinkedList
import Rtl812x.Lib.Runs

/-!
# The pool of receive packets of the kext

`RTL8125LucyRxPool` keeps two lists of spare packets, one of plain mbufs (`mPkt…`) and one of mbufs with
a cluster (`cPkt…`), for the moments when `mbuf_allocpacket` fails.  `getPacket` takes from the head of
a list, `refillPool`, on a thread of its own, appends to the tail.  There is no lock: the counter is
decremented before a packet is unlinked and incremented after one is linked, and the last packet of a
list is never taken.

The fields of the two lists are functions of the kind of list.  A packet is a number, new with every
successful call of `mbuf_allocpacket`; `allocs` says which calls succeed.  `getPacket` and `refillPool`
are cut into their statements, which may be interleaved.  The counters are `SInt32`, the capacities
`UInt32`: a counter wraps, and it is converted to unsigned where it is compared with a capacity.

Left out are what the packets hold (`mbuf_setdata`), the wait mode `how`, which only bears on whether an
allocation succeeds, and the delayed thread call: `refillPool` may run at any time.

* `initWithCapacity` — the constructor, with its error paths;
* `getEval`, `refillEval` — what a statement of `getPacket` and of `refillPool` does, and which one is next;
* `poolStep` — the two threads.
-/

namespace Rtl812x.Kext.RxPool

/-- The two lists: `mPkt…` and `cPkt…`. -/
inductive Kind where
  | mbuf | clust
deriving DecidableEq, Repr

/-- A result stored in an `SInt32`. -/
def sint32 (n : ℤ) : ℤ := Int.bmod n (2 ^ 32)

/-- An `SInt32` converted to `UInt32`. -/
def uint32 (n : ℤ) : ℕ := (n % 2 ^ 32).toNat

structure Pool where
  /-- `mbuf_nextpkt` -/
  nextpkt : ℕ → Option ℕ
  pktHead : Kind → Option ℕ
  pktTail : Kind → Option ℕ
  pktNum : Kind → ℤ
  capacity : Kind → ℕ
  refillTresh : Kind → ℕ
  maxCopySize : ℕ
  refillScheduled : Bool
  /-- whether the nth call of `mbuf_allocpacket` succeeds -/
  allocs : ℕ → Bool
  /-- the calls so far; a packet has the number of the call it came from -/
  calls : ℕ
  /-- what `getPacket` returned, newest first -/
  handedOut : List ℕ

/-- A call of `mbuf_allocpacket`: the packet, if it succeeds. -/
def Pool.allocpacket (p : Pool) : Option ℕ × Pool :=
  (if p.allocs p.calls then some p.calls else none, { p with calls := p.calls + 1 })

def Pool.setnextpkt (p : Pool) (m : Option ℕ) (n : Option ℕ) : Pool :=
  match m with
  | some m => { p with nextpkt := Function.update p.nextpkt m n }
  | none => p

def Pool.setHead (p : Pool) (k : Kind) (m : Option ℕ) : Pool :=
  { p with pktHead := Function.update p.pktHead k m }

def Pool.setTail (p : Pool) (k : Kind) (m : Option ℕ) : Pool :=
  { p with pktTail := Function.update p.pktTail k m }

def Pool.setNum (p : Pool) (k : Kind) (n : ℤ) : Pool :=
  { p with pktNum := Function.update p.pktNum k n }

/-! ### Setting the pool up -/

/-- A new packet joins a list. -/
def Pool.append (p : Pool) (k : Kind) (m : ℕ) : Pool :=
  if (p.pktHead k).isSome then
    ((p.setnextpkt (p.pktTail k) (some m)).setTail k (some m)).setNum k (sint32 (p.pktNum k + 1))
  else ((p.setHead k (some m)).setTail k (some m)).setNum k 1

/-- The loop that fills a list; `false` when an allocation fails. -/
def fill (k : Kind) : ℕ → Pool → Bool × Pool
  | 0, p => (true, p)
  | n + 1, p =>
      match p.allocpacket with
      | (some m, p') => fill k n (p'.append k m)
      | (none, p') => (false, p')

/-- The packets of a list are freed. -/
def Pool.drop (p : Pool) (k : Kind) : Pool :=
  if (p.pktHead k).isSome then ((p.setHead k none).setTail k none).setNum k 0 else p

/-- The pool after the assignments before the first loop. -/
def Pool.start (mbufCapacity clustCapacity : UInt32) (mhlen : ℕ) (allocs : ℕ → Bool) : Pool where
  nextpkt := fun _ => none
  pktHead := fun _ => none
  pktTail := fun _ => none
  pktNum := fun _ => 0
  capacity := fun
    | .mbuf => mbufCapacity.toNat
    | .clust => clustCapacity.toNat
  refillTresh := fun
    | .mbuf => (mbufCapacity - (mbufCapacity >>> 1)).toNat
    | .clust => (clustCapacity - (clustCapacity >>> 1)).toNat
  maxCopySize := mhlen
  refillScheduled := false
  allocs := allocs
  calls := 0
  handedOut := []

/-- `initWithCapacity`: whether it succeeds, and the pool.  `mhlen` is what `mbuf_get_mhlen` returns,
`refillCE` says whether the thread call is allocated. -/
def initWithCapacity (mbufCapacity clustCapacity : UInt32) (mhlen : ℕ) (refillCE : Bool)
    (allocs : ℕ → Bool) : Bool × Pool :=
  let p := Pool.start mbufCapacity clustCapacity mhlen allocs
  if 0 < mbufCapacity ∧ 0 < clustCapacity then
    if refillCE then
      match fill .mbuf mbufCapacity.toNat p with
      | (false, p') => (false, p'.drop .mbuf)
      | (true, p') =>
        match fill .clust clustCapacity.toNat p' with
        | (false, p'') => (false, (p''.drop .clust).drop .mbuf)
        | (true, p'') => (true, p'')
    else (false, p)
  else (false, { p with capacity := fun _ => 0, refillTresh := fun _ => 0, maxCopySize := 0 })

/-! ### Taking a packet -/

/-- The statements of `getPacket`, with its local variable `m`. -/
inductive GetStmt where
  /-- `err = mbuf_allocpacket(how, …, &m)`, and the test of `err` -/
  | alloc (size : ℕ)
  /-- `if (cPktNum > 1)` -/
  | test (k : Kind)
  /-- `OSDecrementAtomic(&cPktNum)` -/
  | decrement (k : Kind)
  /-- `m = cPktHead` -/
  | takeHead (k : Kind)
  /-- `cPktHead = mbuf_nextpkt(cPktHead)` -/
  | unlink (k : Kind) (m : Option ℕ)
  /-- `mbuf_setnextpkt(m, NULL)` -/
  | clearNext (k : Kind) (m : Option ℕ)
  /-- `if ((cPktNum < cRefillTresh) && !refillScheduled)` -/
  | testRefill (k : Kind) (m : Option ℕ)
  /-- `refillScheduled = true`, and the thread call -/
  | schedule (m : Option ℕ)
  /-- `return m` -/
  | ret (m : Option ℕ)
deriving DecidableEq, Repr

/-- What a statement of `getPacket` does, and the next one. -/
def getEval (p : Pool) : GetStmt → Pool × Option GetStmt
  | .alloc size =>
      match p.allocpacket with
      | (some m, p') => (p', some (.ret (some m)))
      | (none, p') => (p', some (.test (if p.maxCopySize < size then .clust else .mbuf)))
  | .test k => (p, some (if 1 < p.pktNum k then .decrement k else .ret none))
  | .decrement k => (p.setNum k (sint32 (p.pktNum k - 1)), some (.takeHead k))
  | .takeHead k => (p, some (.unlink k (p.pktHead k)))
  | .unlink k m => (p.setHead k ((p.pktHead k).bind p.nextpkt), some (.clearNext k m))
  | .clearNext k m => (p.setnextpkt m none, some (.testRefill k m))
  | .testRefill k m =>
      (p, some (if uint32 (p.pktNum k) < p.refillTresh k ∧ p.refillScheduled = false then .schedule m
        else .ret m))
  | .schedule m => ({ p with refillScheduled := true }, some (.ret m))
  | .ret m => ({ p with handedOut := m.toList ++ p.handedOut }, none)

/-! ### Refilling -/

/-- The statements of `refillPool`, with its local variable `m`. -/
inductive RefillStmt where
  /-- `while (mPktNum < mCapacity)` -/
  | test (k : Kind)
  /-- `err = mbuf_allocpacket(MBUF_DONTWAIT, …, &m)`, and the test of `err` -/
  | alloc (k : Kind)
  /-- `mbuf_setnextpkt(mPktTail, m)` -/
  | link (k : Kind) (m : ℕ)
  /-- `mPktTail = m` -/
  | setTail (k : Kind) (m : ℕ)
  /-- `OSIncrementAtomic(&mPktNum)` -/
  | increment (k : Kind)
  /-- `refillScheduled = false` -/
  | done
deriving DecidableEq, Repr

/-- What follows the loop over a list: the loop over the other one, or the end. -/
def RefillStmt.next : Kind → RefillStmt
  | .mbuf => .test .clust
  | .clust => .done

/-- What a statement of `refillPool` does, and the next one. -/
def refillEval (p : Pool) : RefillStmt → Pool × Option RefillStmt
  | .test k =>
      (p, some (if uint32 (p.pktNum k) < p.capacity k then .alloc k else .next k))
  | .alloc k =>
      match p.allocpacket with
      | (some m, p') => (p', some (.link k m))
      | (none, p') => (p', some .done)
  | .link k m => (p.setnextpkt (p.pktTail k) (some m), some (.setTail k m))
  | .setTail k m => (p.setTail k (some m), some (.increment k))
  | .increment k => (p.setNum k (sint32 (p.pktNum k + 1)), some (.test k))
  | .done => ({ p with refillScheduled := false }, none)

/-! ### The two threads -/

/-- The pool, and the next statement of each thread inside its function. -/
structure Sys where
  pool : Pool
  consumer : Option GetStmt
  refill : Option RefillStmt

inductive Move where
  /-- the consumer calls `getPacket` -/
  | getPacket (size : ℕ)
  | runConsumer
  /-- the refill thread calls `refillPool` -/
  | refillPool
  | runRefill
deriving DecidableEq, Repr

/-- One step; a thread that is in its function is not called, one that is not does nothing. -/
def poolStep (s : Sys) : Move → Sys
  | .getPacket size => if s.consumer = none then { s with consumer := some (.alloc size) } else s
  | .runConsumer =>
      match s.consumer with
      | some b => ⟨(getEval s.pool b).1, (getEval s.pool b).2, s.refill⟩
      | none => s
  | .refillPool => if s.refill = none then { s with refill := some (.test .mbuf) } else s
  | .runRefill =>
      match s.refill with
      | some b => ⟨(refillEval s.pool b).1, s.consumer, (refillEval s.pool b).2⟩
      | none => s

end Rtl812x.Kext.RxPool
