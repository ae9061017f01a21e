import Rtl812x.Lib.Circular

/-!
# The hand-off FIFO of the dext

`PacketFifo` carries packets between the interrupt handler and the framework's queue actions: a
ring of `kFifoCapacity` slots with a consumer index `head` and a producer index `tail`.  Packets
are pointers to the framework's objects; here they are numbers, and a null pointer is `none`.

* `fifoPush`, `fifoPop` — the two operations, each taken as one atomic step;
* `Holds f l` — the FIFO's contents, oldest first, are the packets `l`;
* `fifoPush_holds`, `fifoPush_full`, `fifoPop_cons`, `fifoPop_nil` — **a bounded queue**: a push
  appends unless `kFifoCapacity - 1` packets are queued, a pop takes the oldest packet.
-/

namespace Rtl812x.Dext

open Circular

def kFifoCapacity : ℕ := 2048
def kFifoMask : ℕ := kFifoCapacity - 1

/-- A FIFO of packets: the slots, the consumer index and the producer index. -/
structure PacketFifo where
  slots : ℕ → Option ℕ
  head : ℕ
  tail : ℕ

/-- The FIFO of the zero-filled instance variables. -/
def PacketFifo.empty : PacketFifo := ⟨fun _ => none, 0, 0⟩

/-- Append a packet; `false` when the FIFO is full. -/
def fifoPush (f : PacketFifo) (p : ℕ) : Bool × PacketFifo :=
  let next := (f.tail + 1) &&& kFifoMask
  if next = f.head then (false, f)
  else (true, { f with slots := Function.update f.slots f.tail (some p), tail := next })

/-- Take the oldest packet; a null pointer when the FIFO is empty. -/
def fifoPop (f : PacketFifo) : Option ℕ × PacketFifo :=
  if f.head = f.tail then (none, f)
  else (f.slots f.head, { f with head := (f.head + 1) &&& kFifoMask })

theorem and_kFifoMask (n : ℕ) : n &&& kFifoMask = n % kFifoCapacity :=
  Nat.and_two_pow_sub_one_eq_mod n 11

theorem kFifoCapacity_pos : 0 < kFifoCapacity := by decide

/-- The index after `i`, as the code computes it. -/
theorem succ_and_kFifoMask (i : ℕ) : (i + 1) &&& kFifoMask = slot kFifoCapacity i 1 :=
  and_kFifoMask (i + 1)

/-! ### What a FIFO holds -/

/-- How many packets are queued. -/
def PacketFifo.depth (f : PacketFifo) : ℕ := lapse kFifoCapacity f.head f.tail

/-- The slots from `head` to `tail`, oldest first. -/
def PacketFifo.contents (f : PacketFifo) : List (Option ℕ) :=
  window kFifoCapacity f.head f.depth f.slots

/-- The FIFO's indices are in range and its contents are the packets `l`, oldest first. -/
structure Holds (f : PacketFifo) (l : List ℕ) : Prop where
  head_lt : f.head < kFifoCapacity
  tail_lt : f.tail < kFifoCapacity
  contents_eq : f.contents = l.map some

theorem holds_empty : Holds PacketFifo.empty [] :=
  ⟨kFifoCapacity_pos, kFifoCapacity_pos, rfl⟩

variable {f : PacketFifo} {l : List ℕ} {p : ℕ}

theorem Holds.depth_eq (h : Holds f l) : f.depth = l.length := by
  have hlen := congrArg List.length h.contents_eq
  rwa [PacketFifo.contents, window_length, List.length_map] at hlen

theorem Holds.tail_eq (h : Holds f l) : f.tail = slot kFifoCapacity f.head l.length := by
  rw [← h.depth_eq, PacketFifo.depth, slot_lapse h.head_lt h.tail_lt]

theorem Holds.length_lt (h : Holds f l) : l.length < kFifoCapacity := by
  rw [← h.depth_eq]
  exact lapse_lt kFifoCapacity_pos _ _

theorem Holds.window_eq (h : Holds f l) :
    window kFifoCapacity f.head l.length f.slots = l.map some := by
  rw [← h.depth_eq]
  exact h.contents_eq

/-- A FIFO is given by its head, the packets from there on, and the tail that follows them. -/
theorem holds_of_window (hhead : f.head < kFifoCapacity) (hlen : l.length < kFifoCapacity)
    (htail : f.tail = slot kFifoCapacity f.head l.length)
    (hwin : window kFifoCapacity f.head l.length f.slots = l.map some) : Holds f l := by
  refine ⟨hhead, ?_, ?_⟩
  · rw [htail]
    exact slot_lt kFifoCapacity_pos _ _
  · rw [PacketFifo.contents, PacketFifo.depth, htail, lapse_slot hhead hlen, hwin]

/-! ### The operations -/

/-- The index after the tail is the head exactly when the FIFO is full. -/
theorem Holds.next_eq_head_iff (h : Holds f l) :
    (f.tail + 1) &&& kFifoMask = f.head ↔ l.length = kFifoMask := by
  have hlen := h.length_lt
  have hhead := h.head_lt
  rw [succ_and_kFifoMask, h.tail_eq, slot_slot]
  simp only [slot, kFifoMask, kFifoCapacity] at *
  omega

/-- Writing the slot at the tail does not change what a FIFO with room holds. -/
theorem Holds.store_slot (h : Holds f l) (p : ℕ) :
    Holds { f with slots := Function.update f.slots f.tail (some p) } l := by
  refine holds_of_window h.head_lt h.length_lt h.tail_eq ?_
  show window kFifoCapacity f.head l.length (Function.update f.slots f.tail (some p)) = _
  rw [h.tail_eq, window_update_outside (not_inWindow_next h.length_lt), h.window_eq]

/-- Moving the tail past a written slot appends its packet. -/
theorem Holds.store_tail (h : Holds f l) (hroom : l.length < kFifoMask)
    (hslot : f.slots f.tail = some p) :
    Holds { f with tail := (f.tail + 1) &&& kFifoMask } (l ++ [p]) := by
  have hcap : l.length + 1 < kFifoCapacity := by
    rw [kFifoMask] at hroom
    omega
  refine holds_of_window h.head_lt (by simpa using hcap) ?_ ?_
  · show (f.tail + 1) &&& kFifoMask = _
    rw [succ_and_kFifoMask, h.tail_eq, slot_slot]
    simp
  · show window kFifoCapacity f.head (l ++ [p]).length f.slots = _
    rw [List.length_append, List.length_singleton, window_snoc, h.window_eq, ← h.tail_eq, hslot]
    simp

/-- Moving the head drops the oldest packet. -/
theorem Holds.store_head (h : Holds f (p :: l)) :
    Holds { f with head := (f.head + 1) &&& kFifoMask } l := by
  have hlen : l.length + 1 < kFifoCapacity := h.length_lt
  have hwin := h.window_eq
  rw [List.length_cons, window_cons h.head_lt, List.map_cons, List.cons.injEq] at hwin
  refine holds_of_window ?_ (by omega) ?_ ?_
  · show (f.head + 1) &&& kFifoMask < _
    rw [succ_and_kFifoMask]
    exact slot_lt kFifoCapacity_pos _ _
  · show f.tail = slot _ ((f.head + 1) &&& kFifoMask) _
    rw [succ_and_kFifoMask, h.tail_eq, slot_slot, List.length_cons, Nat.add_comm 1]
  · show window _ ((f.head + 1) &&& kFifoMask) _ f.slots = _
    rw [succ_and_kFifoMask]
    exact hwin.2

/-- The slot at the head holds the oldest packet. -/
theorem Holds.head_slot (h : Holds f (p :: l)) : f.slots f.head = some p := by
  have hwin := h.window_eq
  rw [List.length_cons, window_cons h.head_lt, List.map_cons, List.cons.injEq] at hwin
  exact hwin.1

/-- Head and tail meet exactly when the FIFO is empty. -/
theorem Holds.head_eq_tail_iff (h : Holds f l) : f.head = f.tail ↔ l = [] := by
  rw [h.tail_eq, ← List.length_eq_zero_iff]
  constructor
  · intro he
    exact (slot_inj kFifoCapacity_pos h.length_lt ((slot_zero h.head_lt).trans he)).symm
  · intro hzero
    rw [hzero, slot_zero h.head_lt]

/-- **A push appends** while fewer than `kFifoCapacity - 1` packets are queued. -/
theorem fifoPush_holds (h : Holds f l) (hroom : l.length < kFifoMask) (p : ℕ) :
    (fifoPush f p).1 = true ∧ Holds (fifoPush f p).2 (l ++ [p]) := by
  have hne : (f.tail + 1) &&& kFifoMask ≠ f.head := by
    rw [ne_eq, h.next_eq_head_iff]
    omega
  simp only [fifoPush, if_neg hne]
  exact ⟨trivial, (h.store_slot p).store_tail hroom (Function.update_self ..)⟩

/-- A push onto a full FIFO is refused and changes nothing. -/
theorem fifoPush_full (h : Holds f l) (hfull : l.length = kFifoMask) (p : ℕ) :
    fifoPush f p = (false, f) := by
  simp only [fifoPush, if_pos (h.next_eq_head_iff.mpr hfull)]

theorem fifoPop_nil (h : Holds f []) : fifoPop f = (none, f) := by
  simp only [fifoPop, if_pos (h.head_eq_tail_iff.mpr rfl)]

/-- **A pop takes the oldest packet.** -/
theorem fifoPop_cons (h : Holds f (p :: l)) :
    (fifoPop f).1 = some p ∧ Holds (fifoPop f).2 l := by
  have hne : f.head ≠ f.tail := by
    rw [ne_eq, h.head_eq_tail_iff]
    simp
  simp only [fifoPop, if_neg hne]
  exact ⟨h.head_slot, h.store_head⟩

end Rtl812x.Dext
