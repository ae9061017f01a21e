import Rtl812x.Lib.Runs
import Rtl812x.Hw.RxFilter

/-!
# What the dext's receive filter accepts

The stack makes three kinds of requests: a list of multicast addresses, all multicast addresses,
and all addresses.  The driver folds the first two into one 64-bit filter and one flag, so each
overwrites what the other has stored; `applyRxMode` then programs the chip from the flags.  A link-up
or an enable resets the chip and programs it again.

* `Asked` — what the stack asked for, kept beside the driver's own state;
* `Follows` — what the chip accepts is what was asked for;
* `accepts_applyRxMode`, `accepts_applyRxMode_station` — what the chip accepts after `applyRxMode`;
* `Asked.Keeps` — the call overwrites no request still in force; `Asked.kept` — the last call for a
  list or for all-multicast mode was such a call;
* `NotOverwritten` — the call is such a call, or promiscuous mode hides it; and it does not end
  promiscuous mode after a call that was not;
* `rxMode_follows_iff` — **the filter follows the requests through a run exactly when every step is
  `NotOverwritten`**.
-/

namespace Rtl812x.Dext

open Runs

/-! ### The driver -/

/-- The flags and the filter of the hardware object, and the chip's registers. -/
structure RxMode where
  promisc : Bool
  mCast : Bool
  multicastFilter : BitVec 64
  regs : RxFilter
deriving DecidableEq, Repr

def applyRxMode (m : Mcfg) (s : RxMode) : RxMode :=
  { s with
    regs :=
      if s.promisc then
        s.regs.program m (acceptBroadcast ||| acceptMulticast ||| acceptMyPhys ||| acceptAllPhys)
          (BitVec.allOnes 64)
      else if s.mCast then
        s.regs.program m (acceptBroadcast ||| acceptMulticast ||| acceptMyPhys) s.multicastFilter
      else s.regs.program m (acceptBroadcast ||| acceptMyPhys) 0 }

def setPromiscuousModeEnable (m : Mcfg) (enable : Bool) (s : RxMode) : RxMode :=
  applyRxMode m { s with promisc := enable }

def setAllMulticastModeEnable (m : Mcfg) (enable : Bool) (s : RxMode) : RxMode :=
  applyRxMode m
    { s with multicastFilter := if enable then BitVec.allOnes 64 else 0, mCast := enable }

/-- The hash bits of a list of addresses. -/
def listFilter (addresses : List EtherAddr) : BitVec 64 :=
  addresses.foldl (fun filter a => filter ||| (1#64 <<< (hashBit a &&& 0x3f))) 0

/-- The filter for a list; it has `count` entries, or the pointer to it is null. -/
def addressesFilter (count : ℕ) : Option (Vector EtherAddr count) → BitVec 64
  | none => BitVec.allOnes 64
  | some list => if count > 32 then BitVec.allOnes 64 else osSwapInt64 (listFilter list.toList)

/-- Store the filter and the flag of a list. -/
def storeAddresses (count : ℕ) (addresses : Option (Vector EtherAddr count)) (s : RxMode) : RxMode :=
  { s with multicastFilter := addressesFilter count addresses, mCast := count ≠ 0 }

def setMulticastAddresses (m : Mcfg) (count : ℕ) (addresses : Option (Vector EtherAddr count))
    (s : RxMode) : RxMode :=
  applyRxMode m (storeAddresses count addresses s)

/-- The chip reset and the receiver mode of `rtl812xHwConfig`. -/
def rxHwConfig (m : Mcfg) (s : RxMode) : RxMode := applyRxMode m { s with regs := s.regs.nicReset }

/-! ### What the chip accepts -/

variable {m : Mcfg} {own : EtherAddr} {s : RxMode} {a : EtherAddr}

/-- The stored filter lets a multicast address through. -/
def RxMode.Passes (s : RxMode) (a : EtherAddr) : Prop :=
  a = broadcastAddr ∨ s.mCast = true ∧ (osSwapInt64 s.multicastFilter).getLsbD (hashBit a) = true

/-- What the chip accepts of a mode with the broadcast and station bits, to a multicast address. -/
theorem accepts_program_multicast {rxMode : UInt32} {filter : BitVec 64} {f : RxFilter}
    (hb : rxMode &&& acceptBroadcast ≠ 0) (ha : a.IsMulticast) :
    (f.program m rxMode filter).Accepts own a ↔ a = broadcastAddr ∨
      rxMode &&& acceptMulticast ≠ 0 ∧ (osSwapInt64 filter).getLsbD (hashBit a) = true := by
  simp [RxFilter.accepts_program, hb, ha]

theorem accepts_program_station {rxMode : UInt32} {filter : BitVec 64} {f : RxFilter}
    (hmy : rxMode &&& acceptMyPhys ≠ 0) (ha : ¬ a.IsMulticast) :
    (f.program m rxMode filter).Accepts own a ↔ rxMode &&& acceptAllPhys ≠ 0 ∨ a = own := by
  have hne : a ≠ broadcastAddr := fun h => ha (h ▸ broadcastAddr_isMulticast)
  simp [RxFilter.accepts_program, hmy, ha, hne]

/-- **Multicast**: everything in promiscuous mode, else what the stored filter lets through. -/
theorem accepts_applyRxMode (ha : a.IsMulticast) :
    (applyRxMode m s).regs.Accepts own a ↔ s.promisc = true ∨ s.Passes a := by
  unfold applyRxMode RxMode.Passes
  cases hp : s.promisc with
  | true =>
      have hones : (BitVec.allOnes 64).getLsbD (hashBit a) = true := by
        rw [BitVec.getLsbD_allOnes]
        exact decide_eq_true (hashBit_lt a)
      refine iff_of_true ((accepts_program_multicast (by decide) ha).mpr (Or.inr ⟨by decide, ?_⟩))
        (Or.inl rfl)
      rwa [osSwapInt64_allOnes]
  | false =>
      cases hm : s.mCast with
      | true =>
          refine (accepts_program_multicast (by decide) ha).trans ?_
          simp [show (acceptBroadcast ||| acceptMulticast ||| acceptMyPhys) &&& acceptMulticast ≠ 0 by
            decide]
      | false =>
          refine (accepts_program_multicast (by decide) ha).trans ?_
          simp [show (acceptBroadcast ||| acceptMyPhys) &&& acceptMulticast = 0 by decide]

/-- **Station addresses**: everything in promiscuous mode, else the chip's own. -/
theorem accepts_applyRxMode_station (ha : ¬ a.IsMulticast) :
    (applyRxMode m s).regs.Accepts own a ↔ s.promisc = true ∨ a = own := by
  unfold applyRxMode
  cases hp : s.promisc with
  | true =>
      exact iff_of_true ((accepts_program_station (by decide) ha).mpr (Or.inl (by decide))) (Or.inl rfl)
  | false =>
      cases hm : s.mCast with
      | true =>
          refine (accepts_program_station (by decide) ha).trans ?_
          simp [show (acceptBroadcast ||| acceptMulticast ||| acceptMyPhys) &&& acceptAllPhys = 0 by
            decide]
      | false =>
          refine (accepts_program_station (by decide) ha).trans ?_
          simp [show (acceptBroadcast ||| acceptMyPhys) &&& acceptAllPhys = 0 by decide]

/-! ### The hash bits of a list -/

theorem getLsbD_hashBit (a : EtherAddr) (n : ℕ) :
    (1#64 <<< (hashBit a &&& 0x3f)).getLsbD n = true ↔ hashBit a = n := by
  rw [hashBit_and, ← BitVec.twoPow_eq, BitVec.getLsbD_twoPow]
  simp only [hashBit_lt a, decide_true, Bool.true_and, decide_eq_true_eq]

/-- **Exactly the hashes of the list.** -/
theorem getLsbD_listFilter (addresses : List EtherAddr) (n : ℕ) :
    (listFilter addresses).getLsbD n = true ↔ ∃ a ∈ addresses, hashBit a = n := by
  rw [listFilter, getLsbD_foldl_or]
  simp only [getLsbD_hashBit]
  simp

/-! ### Requests -/

/-- What the stack has asked for. -/
structure Asked where
  /-- the most recent multicast list -/
  list : List MulticastAddr
  allMulti : Bool
  promisc : Bool
  /-- the last call for a list or for all-multicast mode overwrote no request still in force -/
  kept : Bool

/-- The addresses of a list of multicast addresses. -/
def etherAddrs {count : ℕ} (addresses : Option (Vector MulticastAddr count)) :
    Option (Vector EtherAddr count) :=
  addresses.map (Vector.map Subtype.val)

/-- A request, or a link-up or an enable, which configures the chip again. -/
inductive RxModeOp where
  | setMulticastAddresses (count : ℕ) (addresses : Option (Vector MulticastAddr count))
  | setAllMulticastModeEnable (enable : Bool)
  | setPromiscuousModeEnable (enable : Bool)
  | hwConfig

/-- The call overwrites no request still in force: a list that comes while all-multicast mode is asked
for lets everything through itself, and ending that mode finds no list. -/
def Asked.Keeps (r : Asked) : RxModeOp → Prop
  | .setMulticastAddresses count addresses =>
    r.allMulti = false ∨ 32 < count ∨ addresses = none ∧ count ≠ 0
  | .setAllMulticastModeEnable enable => enable = true ∨ ∀ a ∈ r.list, a.1 = broadcastAddr
  | .setPromiscuousModeEnable _ => True
  | .hwConfig => True

instance (r : Asked) : (op : RxModeOp) → Decidable (r.Keeps op)
  | .setMulticastAddresses _ _ => inferInstanceAs (Decidable (_ ∨ _ ∨ _))
  | .setAllMulticastModeEnable _ => inferInstanceAs (Decidable (_ ∨ _))
  | .setPromiscuousModeEnable _ => inferInstanceAs (Decidable True)
  | .hwConfig => inferInstanceAs (Decidable True)

/-- What is asked for after a call. -/
def Asked.note (r : Asked) : RxModeOp → Asked
  | .setMulticastAddresses count addresses =>
    { r with
      list := (addresses.map Vector.toList).getD []
      kept := r.Keeps (.setMulticastAddresses count addresses) }
  | .setAllMulticastModeEnable enable =>
    { r with allMulti := enable, kept := r.Keeps (.setAllMulticastModeEnable enable) }
  | .setPromiscuousModeEnable enable => { r with promisc := enable }
  | .hwConfig => r

def rxModeCall (m : Mcfg) (s : RxMode) : RxModeOp → RxMode
  | .setMulticastAddresses count addresses => setMulticastAddresses m count (etherAddrs addresses) s
  | .setAllMulticastModeEnable enable => setAllMulticastModeEnable m enable s
  | .setPromiscuousModeEnable enable => setPromiscuousModeEnable m enable s
  | .hwConfig => rxHwConfig m s

/-- The driver beside what was asked of it. -/
structure RxModeRun where
  mode : RxMode
  asked : Asked

def rxModeStep (m : Mcfg) (s : RxModeRun) (op : RxModeOp) : RxModeRun where
  mode := rxModeCall m s.mode op
  asked := s.asked.note op

/-- Nothing asked, and a chip that was reset: MAR0 and MAR1 may hold anything. -/
def RxModeRun.init (mar0 mar1 : BitVec 32) : RxModeRun where
  mode := ⟨false, false, 0, RxFilter.nicReset ⟨0, mar0, mar1⟩⟩
  asked := ⟨[], false, false, true⟩

/-- **The filter is what was asked for.** -/
structure Follows (own : EtherAddr) (s : RxModeRun) : Prop where
  listed : ∀ a ∈ s.asked.list, s.mode.regs.Accepts own a.1
  group : s.asked.allMulti = true ∨ s.asked.promisc = true →
    ∀ a : MulticastAddr, s.mode.regs.Accepts own a.1
  station : ∀ a : EtherAddr, ¬ a.IsMulticast →
    (s.mode.regs.Accepts own a ↔ s.asked.promisc = true ∨ a = own)

/-- The stored filter serves what was asked for apart from promiscuous mode. -/
def Serves (s : RxMode) (r : Asked) : Prop :=
  (∀ a ∈ r.list, s.Passes a.1) ∧ (r.allMulti = true → ∀ a : MulticastAddr, s.Passes a.1)

/-- The call overwrites no request still in force, or only while promiscuous mode hides it; and it ends
promiscuous mode only if the last call for a list or for all-multicast mode overwrote none. -/
def NotOverwritten (s : RxModeRun) : RxModeOp → Prop
  | .setMulticastAddresses count addresses =>
    s.asked.promisc = true ∨ s.asked.Keeps (.setMulticastAddresses count addresses)
  | .setAllMulticastModeEnable enable =>
    s.asked.promisc = true ∨ s.asked.Keeps (.setAllMulticastModeEnable enable)
  | .setPromiscuousModeEnable enable => enable = true ∨ s.asked.kept = true
  | .hwConfig => True

/-! ### One step -/

/-- After `applyRxMode` the filter follows exactly if promiscuous mode is on or the stored filter
serves. -/
theorem follows_applyRxMode_iff {r : Asked} (hp : s.promisc = r.promisc) :
    Follows own ⟨applyRxMode m s, r⟩ ↔ r.promisc = true ∨ Serves s r := by
  constructor
  · intro h
    by_cases hpr : r.promisc = true
    · exact Or.inl hpr
    · have hpass : ∀ a : MulticastAddr, (applyRxMode m s).regs.Accepts own a.1 → s.Passes a.1 := by
        intro a ha
        rcases (accepts_applyRxMode a.2).mp ha with hs | hs
        · exact absurd (hp ▸ hs) hpr
        · exact hs
      exact Or.inr ⟨fun a ha => hpass a (h.listed a ha), fun hall a => hpass a (h.group (Or.inl hall) a)⟩
  · intro h
    refine ⟨fun a ha => ?_, fun hon a => ?_, fun a ha => ?_⟩
    · rw [accepts_applyRxMode a.2, hp]
      exact h.imp_right fun hs => hs.1 a ha
    · rw [accepts_applyRxMode a.2, hp]
      rcases hon with hall | hpr
      · exact h.imp_right fun hs => hs.2 hall a
      · exact Or.inl hpr
    · rw [accepts_applyRxMode_station ha, hp]

theorem passes_allOnes (hm : s.mCast = true) (hf : s.multicastFilter = BitVec.allOnes 64)
    (a : EtherAddr) : s.Passes a := by
  refine Or.inr ⟨hm, ?_⟩
  rw [hf, osSwapInt64_allOnes, BitVec.getLsbD_allOnes]
  exact decide_eq_true (hashBit_lt a)

/-- Some multicast address does not pass. -/
theorem exists_not_passes (h : s.mCast = true →
      ∃ n < 64, (osSwapInt64 s.multicastFilter).getLsbD n = false) :
    ∃ a : MulticastAddr, ¬ s.Passes a.1 := by
  have hbit : ∃ n < 64, s.mCast = true → (osSwapInt64 s.multicastFilter).getLsbD n = false := by
    cases hm : s.mCast with
    | false => exact ⟨0, by decide, fun hc => by cases hc⟩
    | true =>
        obtain ⟨n, hn, hn'⟩ := h hm
        exact ⟨n, hn, fun _ => hn'⟩
  obtain ⟨n, hn, hoff⟩ := hbit
  obtain ⟨x, -, hx⟩ := exists_hashBit n hn
  refine ⟨⟨groupAddr x.toUInt8, groupAddr_isMulticast _⟩, ?_⟩
  rintro (hb | ⟨hm, hset⟩)
  · exact groupAddr_ne_broadcastAddr _ hb
  · rw [hx, hoff hm] at hset
    cases hset

/-- A list that is set lets its own addresses through. -/
theorem storeAddresses_passes {count : ℕ} {list : Vector EtherAddr count} {a : EtherAddr}
    (ha : a ∈ list.toList) : (storeAddresses count (some list) s).Passes a := by
  have hlen : 0 < list.toList.length := List.length_pos_of_mem ha
  have hcount : count ≠ 0 := by
    rw [Vector.length_toList] at hlen
    omega
  have hm : (storeAddresses count (some list) s).mCast = true := decide_eq_true hcount
  by_cases hbig : count > 32
  · exact passes_allOnes hm (if_pos hbig) a
  · refine Or.inr ⟨hm, ?_⟩
    rw [storeAddresses, addressesFilter, if_neg hbig, osSwapInt64_osSwapInt64, getLsbD_listFilter]
    exact ⟨a, ha, rfl⟩

/-- It lets every multicast address through only if it is too long, or null. -/
theorem storeAddresses_passes_all_iff {count : ℕ} {addresses : Option (Vector EtherAddr count)} :
    (∀ a : MulticastAddr, (storeAddresses count addresses s).Passes a.1) ↔
      32 < count ∨ addresses = none ∧ count ≠ 0 := by
  constructor
  · intro hall
    by_contra hnot
    have hsmall : count ≤ 32 := Nat.le_of_not_lt fun h => hnot (Or.inl h)
    obtain ⟨a, ha⟩ := exists_not_passes (s := storeAddresses count addresses s) fun hm => by
      have hcount : count ≠ 0 := of_decide_eq_true hm
      cases addresses with
      | none => exact absurd (Or.inr ⟨rfl, hcount⟩) hnot
      | some list =>
          have hlen : list.toList.length ≤ 32 := by rwa [Vector.length_toList]
          obtain ⟨n, hn, -, hne⟩ := exists_hash_not_listed hlen
          refine ⟨n, hn, ?_⟩
          rw [storeAddresses, addressesFilter, if_neg (by omega), osSwapInt64_osSwapInt64,
            ← Bool.not_eq_true, getLsbD_listFilter]
          rintro ⟨a, ha, heq⟩
          exact hne a ha heq
    exact ha (hall a)
  · intro h a
    have hcount : count ≠ 0 := by omega
    refine passes_allOnes (decide_eq_true hcount) ?_ a.1
    cases addresses with
    | none => rfl
    | some list =>
        rcases h with h | ⟨h, -⟩
        · exact if_pos h
        · cases h

theorem serves_storeAddresses_iff {r : Asked} {count : ℕ}
    {addresses : Option (Vector MulticastAddr count)} :
    Serves (storeAddresses count (etherAddrs addresses) s)
        (r.note (.setMulticastAddresses count addresses)) ↔
      r.Keeps (.setMulticastAddresses count addresses) := by
  have hlist : ∀ a ∈ (addresses.map Vector.toList).getD [],
      (storeAddresses count (etherAddrs addresses) s).Passes a.1 := by
    intro a ha
    cases addresses with
    | none => cases ha
    | some list =>
        refine storeAddresses_passes ?_
        rw [Vector.toList_map]
        exact List.mem_map_of_mem ha
  refine (and_iff_right hlist).trans ?_
  rw [storeAddresses_passes_all_iff, etherAddrs, Option.map_eq_none_iff]
  show (r.allMulti = true → _) ↔ (r.allMulti = false ∨ _)
  cases r.allMulti with
  | true => simp
  | false => simp

/-- Ending all-multicast mode drops the list. -/
theorem serves_noMulticast_iff {r : Asked} (hm : s.mCast = false) (hall : r.allMulti = false) :
    Serves s r ↔ ∀ a ∈ r.list, a.1 = broadcastAddr := by
  constructor
  · intro h a ha
    rcases h.1 a ha with hb | ⟨hc, -⟩
    · exact hb
    · rw [hm] at hc
      cases hc
  · refine fun h => ⟨fun a ha => Or.inl (h a ha), fun hc => ?_⟩
    rw [hall] at hc
    cases hc

/-- What a call stores before it programs the chip. -/
def RxMode.store (s : RxMode) : RxModeOp → RxMode
  | .setMulticastAddresses count addresses => storeAddresses count (etherAddrs addresses) s
  | .setAllMulticastModeEnable enable =>
    { s with multicastFilter := if enable then BitVec.allOnes 64 else 0, mCast := enable }
  | .setPromiscuousModeEnable enable => { s with promisc := enable }
  | .hwConfig => { s with regs := s.regs.nicReset }

theorem rxModeCall_eq (m : Mcfg) (s : RxMode) (op : RxModeOp) :
    rxModeCall m s op = applyRxMode m (s.store op) := by
  cases op <;> rfl

/-- **What is stored serves exactly if the last call that stored it overwrote nothing.** -/
theorem serves_store_iff {r : Asked} (h : Serves s r ↔ r.kept = true) (op : RxModeOp) :
    Serves (s.store op) (r.note op) ↔ (r.note op).kept = true := by
  cases op with
  | setMulticastAddresses count addresses =>
      exact serves_storeAddresses_iff.trans decide_eq_true_iff.symm
  | setAllMulticastModeEnable enable =>
      refine Iff.trans ?_ decide_eq_true_iff.symm
      cases enable with
      | true =>
          have hones : ∀ a : EtherAddr, (s.store (.setAllMulticastModeEnable true)).Passes a :=
            passes_allOnes rfl rfl
          exact iff_of_true ⟨fun a _ => hones a.1, fun _ a => hones a.1⟩ (Or.inl rfl)
      | false =>
          refine (serves_noMulticast_iff rfl rfl).trans ?_
          simp [Asked.note, Asked.Keeps]
  | setPromiscuousModeEnable enable => exact h
  | hwConfig => exact h

/-- The driver's flags against the record of the calls. -/
structure OnRecord (s : RxModeRun) : Prop where
  promisc : s.mode.promisc = s.asked.promisc
  serves_iff : Serves s.mode s.asked ↔ s.asked.kept = true

theorem OnRecord.store_promisc {s : RxModeRun} (h : OnRecord s) (op : RxModeOp) :
    (s.mode.store op).promisc = (s.asked.note op).promisc := by
  cases op with
  | setPromiscuousModeEnable enable => rfl
  | setMulticastAddresses _ _ | setAllMulticastModeEnable _ | hwConfig => exact h.promisc

/-- Every call keeps the flags on the record, whatever it overwrites. -/
theorem OnRecord.step {s : RxModeRun} (h : OnRecord s) (op : RxModeOp) :
    OnRecord (rxModeStep m s op) := by
  have hmode : (rxModeStep m s op).mode = applyRxMode m (s.mode.store op) := rxModeCall_eq m s.mode op
  refine ⟨?_, ?_⟩
  · rw [hmode]
    exact h.store_promisc op
  · rw [hmode]
    exact serves_store_iff h.serves_iff op

/-- **A call leaves a filter that follows the requests** exactly if promiscuous mode is then on, or the
last call that stored a filter overwrote nothing. -/
theorem OnRecord.follows_step_iff {s : RxModeRun} (h : OnRecord s) (op : RxModeOp) :
    Follows own (rxModeStep m s op) ↔
      (s.asked.note op).promisc = true ∨ (s.asked.note op).kept = true := by
  rw [← serves_store_iff h.serves_iff op, rxModeStep, rxModeCall_eq]
  exact follows_applyRxMode_iff (h.store_promisc op)

/-- What holds as long as no request was lost. -/
structure InForce (s : RxModeRun) : Prop extends OnRecord s where
  in_force : s.asked.promisc = true ∨ s.asked.kept = true

/-- **A step follows the requests exactly if it is `NotOverwritten`.** -/
theorem InForce.follows_iff {s : RxModeRun} (h : InForce s) (op : RxModeOp) :
    Follows own (rxModeStep m s op) ↔ NotOverwritten s op := by
  rw [h.follows_step_iff]
  cases op with
  | setMulticastAddresses count addresses => exact or_congr_right decide_eq_true_iff
  | setAllMulticastModeEnable enable => exact or_congr_right decide_eq_true_iff
  | setPromiscuousModeEnable enable => exact Iff.rfl
  | hwConfig => exact iff_of_true h.in_force trivial

theorem InForce.step {s : RxModeRun} (h : InForce s) (op : RxModeOp)
    (hf : Follows own (rxModeStep m s op)) : InForce (rxModeStep m s op) :=
  ⟨h.toOnRecord.step op, (h.follows_step_iff op).mp hf⟩

/-! ### Runs -/

theorem InForce.init (mar0 mar1 : BitVec 32) : InForce (RxModeRun.init mar0 mar1) where
  promisc := rfl
  serves_iff := iff_of_true ⟨fun _ ha => (by cases ha), fun hall => (by cases hall)⟩ rfl
  in_force := Or.inr rfl

/-- **The receive filter follows the requests** after every call of a run exactly when no call of the
run overwrites a request in force. -/
theorem rxMode_follows_iff (m : Mcfg) (own : EtherAddr) (mar0 mar1 : BitVec 32) (ops : List RxModeOp) :
    Along (rxModeStep m) (fun s op => Follows own (rxModeStep m s op)) (RxModeRun.init mar0 mar1) ops ↔
      Along (rxModeStep m) NotOverwritten (RxModeRun.init mar0 mar1) ops :=
  along_congr (fun _ op h => h.follows_iff op) (fun _ op h => h.step op) (InForce.init mar0 mar1)

/-- The group of multicast DNS, 01:00:5e:00:00:fb. -/
def mdnsGroup : MulticastAddr := ⟨#v[0x01, 0x00, 0x5e, 0x00, 0x00, 0xfb], by decide⟩

/-- All-multicast mode is turned on and off again after a list was set. -/
def allMulticastFlap : List RxModeOp :=
  [.hwConfig, .setMulticastAddresses 1 (some #v[mdnsGroup]), .setAllMulticastModeEnable true,
    .setAllMulticastModeEnable false]

/-- The list is still the stack's, but its address is no longer accepted. -/
theorem allMulticastFlap_not_follows :
    (exec (rxModeStep .m41) (RxModeRun.init 0 0) allMulticastFlap).asked.list = [mdnsGroup] ∧
    ¬ Follows #v[2, 0, 0, 0, 0, 1] (exec (rxModeStep .m41) (RxModeRun.init 0 0) allMulticastFlap) := by
  refine ⟨by decide +kernel, fun h => ?_⟩
  have haccept := h.listed mdnsGroup (by decide +kernel)
  exact absurd haccept (by decide +kernel)

end Rtl812x.Dext
