import Rtl812x.Kext.TxMapCall

/-!
# The segments of a mapped packet

`txMapPacket` cuts each mbuf of a packet at its page boundaries, maps the pages and returns an array of
device addresses, one for each piece.  The mapping goes by whole pages: entry `i` of the array lies in
the device page that shows the page in range `i`, at the same offset.

* `pagesTouched`, `pieceCount` — how many pieces cutting at page boundaries gives, from the addresses
  alone;
* `cutLength_eq` — the length the inner loop takes is what is left of the page, or of the mbuf;
* `cutMbuf_spec` — **the inner loop** gives the bytes of the mbuf in order, in nonempty pieces that lie
  within a page, one for each page touched; `virtualSegments_spec` — the same for a packet, with the
  shortcut for a single mbuf;
* `txSegments_cover` — **the returned segments, read through the mapping, are the bytes of the packet**,
  and 0 is returned exactly when there are too many pieces.
-/

namespace Rtl812x.Kext

/-! ### Pieces -/

/-- The number of pages a stretch of memory reaches into. -/
def pagesTouched (pageSize d len : ℕ) : ℕ :=
  if len = 0 then 0 else (d + len - 1) / pageSize - d / pageSize + 1

/-- The number of pieces of a chain whose mbufs are cut at page boundaries. -/
def pieceCount (pageSize : ℕ) (chain : List (ℕ × ℕ)) : ℕ :=
  (chain.map fun m => pagesTouched pageSize m.1 m.2).sum

/-- The addresses of the bytes of a chain. -/
def chainAddresses (chain : List (ℕ × ℕ)) : List ℕ := chain.flatMap fun m => List.range' m.1 m.2

/-- The addresses of the bytes of segments. -/
def segmentAddresses (segs : List Segment) : List ℕ :=
  segs.flatMap fun seg => List.range' seg.location seg.length

/-- A segment is not empty and lies within a page. -/
def Segment.InPage (pageSize : ℕ) (seg : Segment) : Prop :=
  0 < seg.length ∧ seg.location % pageSize + seg.length ≤ pageSize

/-- Segments that are the bytes at these addresses, cut into `n` pieces within a page each. -/
structure Cuts (pageSize : ℕ) (addresses : List ℕ) (n : ℕ) (segs : List Segment) : Prop where
  addresses_eq : segmentAddresses segs = addresses
  inPage : ∀ seg ∈ segs, seg.InPage pageSize
  count : segs.length = n

section Cut

variable {pageSize d len : ℕ}

theorem nextPage_eq (hpage : 0 < pageSize) (d : ℕ) :
    nextPage pageSize d = d + (pageSize - d % pageSize) := by
  have hmod : d % pageSize < pageSize := Nat.mod_lt _ hpage
  have hle : d % pageSize ≤ d := Nat.mod_le _ _
  rw [nextPage, truncPage, Nat.add_mod_right]
  omega

/-- The length of the next piece. -/
theorem cutLength_eq (hpage : 0 < pageSize) (d len : ℕ) :
    min (nextPage pageSize d) (d + min len pageSize) - d = min (pageSize - d % pageSize) len := by
  rw [nextPage_eq hpage]
  omega

/-- The page after the one of `d`. -/
theorem nextPage_div (hpage : 0 < pageSize) (d : ℕ) :
    (d + (pageSize - d % pageSize)) / pageSize = d / pageSize + 1 := by
  have hmod : d % pageSize < pageSize := Nat.mod_lt _ hpage
  have hsplit := Nat.div_add_mod d pageSize
  have hnext : d + (pageSize - d % pageSize) = pageSize * (d / pageSize + 1) := by
    rw [Nat.mul_add, Nat.mul_one]
    omega
  rw [hnext, Nat.mul_div_cancel_left _ hpage]

/-- A stretch that stays in its page touches one. -/
theorem pagesTouched_within (hpage : 0 < pageSize) (hlen : 0 < len) (hfit : d % pageSize + len ≤ pageSize) :
    pagesTouched pageSize d len = 1 := by
  have hsame : (d + len - 1) / pageSize = d / pageSize := by
    have hsplit := Nat.div_add_mod d pageSize
    have hlast : d + len - 1 = pageSize * (d / pageSize) + (d % pageSize + len - 1) := by omega
    have hsmall : (d % pageSize + len - 1) / pageSize = 0 := Nat.div_eq_of_lt (by omega)
    rw [hlast, Nat.mul_add_div hpage, hsmall, Nat.add_zero]
  rw [pagesTouched, if_neg (by omega), hsame, Nat.sub_self]

/-- A longer one touches its page and those of the rest. -/
theorem pagesTouched_beyond (hpage : 0 < pageSize) (hlong : pageSize < d % pageSize + len) :
    pagesTouched pageSize d len = pagesTouched pageSize (d + (pageSize - d % pageSize))
      (len - (pageSize - d % pageSize)) + 1 := by
  have hmod : d % pageSize < pageSize := Nat.mod_lt _ hpage
  have hlast : d + (pageSize - d % pageSize) + (len - (pageSize - d % pageSize)) - 1 = d + len - 1 := by
    omega
  have hle : d / pageSize + 1 ≤ (d + len - 1) / pageSize := by
    rw [← nextPage_div hpage]
    exact Nat.div_le_div_right (by omega)
  rw [pagesTouched, if_neg (by omega), pagesTouched, if_neg (by omega), hlast, nextPage_div hpage]
  omega

theorem Cuts.nil (pageSize : ℕ) : Cuts pageSize [] 0 [] where
  addresses_eq := rfl
  inPage := fun _ h => by cases h
  count := rfl

/-- One piece. -/
theorem Cuts.single (hlen : 0 < len) (hfit : d % pageSize + len ≤ pageSize) :
    Cuts pageSize (List.range' d len) 1 [⟨d, len⟩] where
  addresses_eq := by simp [segmentAddresses]
  inPage := List.forall_mem_singleton.mpr ⟨hlen, hfit⟩
  count := rfl

theorem Cuts.append {as bs : List ℕ} {n m : ℕ} {segs segs' : List Segment} (h : Cuts pageSize as n segs)
    (h' : Cuts pageSize bs m segs') : Cuts pageSize (as ++ bs) (n + m) (segs ++ segs') where
  addresses_eq := by
    rw [← h.addresses_eq, ← h'.addresses_eq, segmentAddresses, List.flatMap_append]
    rfl
  inPage := List.forall_mem_append.mpr ⟨h.inPage, h'.inPage⟩
  count := by rw [List.length_append, h.count, h'.count]

/-- A round of the inner loop. -/
theorem cutMbuf_succ (hpage : 0 < pageSize) (hlen : len ≠ 0) (fuel d : ℕ) :
    cutMbuf pageSize (fuel + 1) d len = ⟨d, min (pageSize - d % pageSize) len⟩ ::
      cutMbuf pageSize fuel (d + min (pageSize - d % pageSize) len)
        (len - min (pageSize - d % pageSize) len) := by
  rw [cutMbuf, if_neg hlen, cutLength_eq hpage]

/-- **The inner loop**, by induction on its rounds: each piece ends at the next page or with the
mbuf. -/
theorem cutMbuf_spec (hpage : 0 < pageSize) (fuel d len : ℕ) (hfuel : len ≤ fuel) :
    Cuts pageSize (List.range' d len) (pagesTouched pageSize d len) (cutMbuf pageSize fuel d len) := by
  induction fuel generalizing d len with
  | zero =>
      obtain rfl : len = 0 := by omega
      exact Cuts.nil pageSize
  | succ fuel ih =>
      rcases Nat.eq_zero_or_pos len with rfl | hlen
      · exact Cuts.nil pageSize
      · have hmod : d % pageSize < pageSize := Nat.mod_lt _ hpage
        rw [cutMbuf_succ hpage hlen.ne']
        by_cases hfit : d % pageSize + len ≤ pageSize
        · -- the rest of the mbuf is in this page
          have hl : min (pageSize - d % pageSize) len = len := by omega
          have hrest := ih (d + len) 0 (Nat.zero_le _)
          rw [hl, Nat.sub_self, pagesTouched_within hpage hlen hfit]
          have hcuts := (Cuts.single hlen hfit).append hrest
          simpa [pagesTouched] using hcuts
        · -- the piece ends at the page boundary
          have hl : min (pageSize - d % pageSize) len = pageSize - d % pageSize := by omega
          have hpiece : Cuts pageSize (List.range' d (pageSize - d % pageSize)) 1
              [⟨d, pageSize - d % pageSize⟩] := Cuts.single (by omega) (by omega)
          have hcuts := hpiece.append (ih (d + (pageSize - d % pageSize)) (len - (pageSize - d % pageSize))
            (by omega))
          have hall : List.range' d (pageSize - d % pageSize) ++
              List.range' (d + (pageSize - d % pageSize)) (len - (pageSize - d % pageSize)) =
              List.range' d len := by
            rw [List.range'_append_1]
            congr 1
            omega
          rw [hall, Nat.add_comm 1, ← pagesTouched_beyond hpage (by omega)] at hcuts
          rw [hl]
          exact hcuts

/-- The loop over the mbufs. -/
theorem cutChain_spec (hpage : 0 < pageSize) (chain : List (ℕ × ℕ)) :
    Cuts pageSize (chainAddresses chain) (pieceCount pageSize chain)
      (chain.flatMap fun m => cutMbuf pageSize m.2 m.1 m.2) := by
  induction chain with
  | nil => exact Cuts.nil pageSize
  | cons m chain ih => exact (cutMbuf_spec hpage m.2 m.1 m.2 le_rfl).append ih

/-- The test of the shortcut says that the mbuf lies within a page. -/
theorem truncPage_eq_iff (hpage : 0 < pageSize) (hlen : 0 < len) :
    truncPage pageSize d = truncPage pageSize (d + len - 1) ↔ d % pageSize + len ≤ pageSize := by
  have htrunc : ∀ a, truncPage pageSize a = pageSize * (a / pageSize) := by
    intro a
    have hsplit := Nat.div_add_mod a pageSize
    rw [truncPage]
    omega
  have hmod : d % pageSize < pageSize := Nat.mod_lt _ hpage
  rw [htrunc, htrunc, Nat.mul_right_inj (by omega)]
  constructor
  · intro hsame
    by_contra hlong
    have hle : d / pageSize + 1 ≤ (d + len - 1) / pageSize := by
      rw [← nextPage_div hpage]
      exact Nat.div_le_div_right (by omega)
    omega
  · intro hfit
    have hone := pagesTouched_within hpage hlen hfit
    have hle : d / pageSize ≤ (d + len - 1) / pageSize := Nat.div_le_div_right (by omega)
    rw [pagesTouched, if_neg (by omega)] at hone
    omega

/-- **The segments of a packet** with at least one byte. -/
theorem virtualSegments_spec (hpage : 0 < pageSize) {chain : List (ℕ × ℕ)}
    (hbytes : 0 < (chain.map Prod.snd).sum) :
    Cuts pageSize (chainAddresses chain) (pieceCount pageSize chain) (virtualSegments pageSize chain) := by
  have hloop := cutChain_spec hpage chain
  match chain with
  | [] => exact absurd hbytes (by simp)
  | [(d, len)] =>
      have hlen : 0 < len := by simpa using hbytes
      rw [virtualSegments]
      split
      case isTrue hsame =>
        have hfit := (truncPage_eq_iff hpage hlen).mp hsame
        have hone := pagesTouched_within hpage hlen hfit
        have hcuts := Cuts.single hlen hfit
        simpa [chainAddresses, pieceCount, hone] using hcuts
      case isFalse => simpa using hloop
  | m :: m' :: chain => exact hloop

end Cut

/-! ### What the chip reads -/

/-- The memory behind entry `i` of the segment array, when device page `iova i` shows the page of range
`txNextDescIndex + i`. -/
def shownAddresses (first : ℕ) (iova : ℕ → Option ℕ) (vector : ℕ → Segment) (s : TxSide) (i : ℕ) : List ℕ :=
  List.range' ((s.txMemRange (first + i)).location + ((vector i).location - (iova i).getD 0))
    (vector i).length

/-- The addresses of segments, by their index. -/
theorem segmentAddresses_eq_range (segs : List Segment) :
    segmentAddresses segs = (List.range segs.length).flatMap fun i =>
      List.range' (segs.getD i ⟨0, 0⟩).location (segs.getD i ⟨0, 0⟩).length := by
  have hall : (List.range segs.length).map (segs.getD · ⟨0, 0⟩) = segs := by
    apply List.ext_getElem
    · simp
    · intro i hi hi'
      simp [List.getElem?_eq_getElem hi']
  rw [segmentAddresses]
  conv_lhs => rw [← hall]
  rw [List.flatMap_map]

theorem length_chainAddresses (chain : List (ℕ × ℕ)) :
    (chainAddresses chain).length = (chain.map Prod.snd).sum := by
  simp [chainAddresses, List.length_flatMap]

section Call

variable {cfg : TxConfig} {p : TxPacket} {maxSegs : ℕ} {iova : ℕ → Option ℕ} {s : TxSide}

/-- The call for a packet with a slot to spare and every page mapped. -/
theorem txMapPacket_mapped (hslot : 1 < s.txNumFreeMem)
    (hiova : ∀ i < (virtualSegments cfg.pageSize p.chain).length, (iova i).isSome = true)
    (hfit : (virtualSegments cfg.pageSize p.chain).length ≤ maxSegs) (vector : ℕ → Segment) :
    txMapPacket cfg p maxSegs (.segs iova) vector s =
      ((virtualSegments cfg.pageSize p.chain).length,
        deviceSegments cfg.pageSize (virtualSegments cfg.pageSize p.chain) (.segs iova),
        setMem s.txNextMem2Use (fun _ => ⟨true, some p.id, true, true⟩)
          (takeMem cfg.pageSize (virtualSegments cfg.pageSize p.chain) s)) := by
  have hall : ((List.range (virtualSegments cfg.pageSize p.chain).length).all fun i => (iova i).isSome)
      = true := by
    rw [List.all_eq_true]
    exact fun i hi => hiova i (List.mem_range.mp hi)
  rw [txMapPacket, if_neg (Nat.not_lt.mpr hfit), if_pos hslot, txMapSlot, if_pos hall]
  rfl

/-- Entry `i` shows the bytes of segment `i`. -/
theorem shownAddresses_eq {pageSize : ℕ} {segs : List Segment} {s' : TxSide} {i : ℕ}
    (hrange : s'.txMemRange = (takeMem pageSize segs s).txMemRange) (hi : i < segs.length) :
    shownAddresses s.hw.txNextDescIndex iova (deviceSegments pageSize segs (.segs iova)) s' i =
      List.range' (segs.getD i ⟨0, 0⟩).location (segs.getD i ⟨0, 0⟩).length := by
  have hpage : (s'.txMemRange (s.hw.txNextDescIndex + i)).location =
      truncPage pageSize (segs.getD i ⟨0, 0⟩).location := by
    rw [hrange]
    show (if _ then _ else _ : Segment).location = _
    rw [if_pos ⟨by omega, by omega⟩, Nat.add_sub_cancel_left]
  have hmod : (segs.getD i ⟨0, 0⟩).location % pageSize ≤ (segs.getD i ⟨0, 0⟩).location := Nat.mod_le _ _
  unfold shownAddresses
  rw [hpage]
  simp only [deviceSegments, Nat.add_sub_cancel_left, truncPage]
  rw [Nat.sub_add_cancel hmod]

end Call

/-- **The segments cover the packet.**  For every packet with at least one byte, whatever the lengths and
the addresses of its mbufs, when there is a slot to spare and every page is mapped: the call returns 0
exactly when cutting the mbufs at their page boundaries gives more pieces than allowed; otherwise the
entries it returns, read through the mapping, are the bytes of the packet in order, and each is not
empty and lies in its device page. -/
theorem txSegments_cover (cfg : TxConfig) (p : TxPacket) (maxSegs : ℕ) (iova : ℕ → Option ℕ)
    (vector : ℕ → Segment) (s : TxSide) (hpage : 0 < cfg.pageSize) (hbytes : 0 < (p.chain.map Prod.snd).sum)
    (hslot : 1 < s.txNumFreeMem)
    (hiova : ∀ i < pieceCount cfg.pageSize p.chain, (iova i).isSome = true) :
    let r := txMapPacket cfg p maxSegs (.segs iova) vector s
    (r.1 = 0 ↔ maxSegs < pieceCount cfg.pageSize p.chain) ∧
    (r.1 ≠ 0 →
      (List.range r.1).flatMap (shownAddresses s.hw.txNextDescIndex iova r.2.1 r.2.2) =
        chainAddresses p.chain ∧
      ∀ i < r.1, 0 < (r.2.1 i).length ∧ ∃ a, iova i = some a ∧ a ≤ (r.2.1 i).location ∧
        (r.2.1 i).location + (r.2.1 i).length ≤ a + cfg.pageSize) := by
  intro r
  have hcuts := virtualSegments_spec hpage hbytes
  have hcount := hcuts.count
  have hsome : 0 < pieceCount cfg.pageSize p.chain := by
    by_contra hnone
    have hempty : virtualSegments cfg.pageSize p.chain = [] := List.length_eq_zero_iff.mp (by omega)
    have haddr := hcuts.addresses_eq
    rw [hempty] at haddr
    have hlength := length_chainAddresses p.chain
    rw [← haddr] at hlength
    have hzero : (segmentAddresses []).length = 0 := rfl
    omega
  by_cases hfit : pieceCount cfg.pageSize p.chain ≤ maxSegs
  · have hr : r = _ := txMapPacket_mapped hslot (by rwa [hcount]) (by rwa [hcount]) vector
    rw [hr]
    refine ⟨by rw [hcount]; omega, fun _ => ⟨?_, ?_⟩⟩
    · rw [← hcuts.addresses_eq, segmentAddresses_eq_range]
      refine List.flatMap_congr fun i hi => ?_
      exact shownAddresses_eq rfl (List.mem_range.mp hi)
    · intro i hi
      obtain ⟨a, ha⟩ := Option.isSome_iff_exists.mp (hiova i (by omega))
      have hmem : (virtualSegments cfg.pageSize p.chain).getD i ⟨0, 0⟩ ∈
          virtualSegments cfg.pageSize p.chain := by
        rw [List.getD_eq_getElem _ _ hi]
        exact List.getElem_mem hi
      obtain ⟨hlen, hin⟩ := hcuts.inPage _ hmem
      simp only [deviceSegments, ha, Option.getD_some]
      exact ⟨hlen, a, rfl, by omega, by omega⟩
  · have hr : r = (0, vector, s) := if_pos (by rw [hcount]; omega)
    rw [hr]
    exact ⟨iff_of_true rfl (by omega), fun h => absurd rfl h⟩

/-- A packet whose first mbuf lies across a page boundary and whose second is empty. -/
def splitPacket : TxPacket :=
  { shortPacket.pkt with chain := [(0x4ff6, 30), (0x6000, 0), (0x7010, 20)], pktHdrLen := 50 }

/-- It is sent as three segments, of 10, 20 and 20 bytes. -/
theorem txSegments_cover_split :
    let r := txMapPacket smallPages splitPacket kMaxSegs (.segs fun i => some (0x10000 * (i + 1)))
      (fun _ => ⟨0, 0⟩) { TxSide.init with txNumFreeMem := 512 }
    r.1 = 3 ∧ (List.range 3).flatMap
        (shownAddresses 0 (fun i => some (0x10000 * (i + 1))) r.2.1 r.2.2) =
      List.range' 0x4ff6 30 ++ List.range' 0x7010 20 := by
  have hcount : (txMapPacket smallPages splitPacket kMaxSegs (.segs fun i => some (0x10000 * (i + 1)))
      (fun _ => ⟨0, 0⟩) { TxSide.init with txNumFreeMem := 512 }).1 = 3 := by decide +kernel
  have hcover := ((txSegments_cover smallPages splitPacket kMaxSegs (fun i => some (0x10000 * (i + 1)))
    (fun _ => ⟨0, 0⟩) { TxSide.init with txNumFreeMem := 512 } (by decide) (by decide) (by decide)
    (fun _ _ => rfl)).2 (by rw [hcount]; decide)).1
  rw [hcount] at hcover
  exact ⟨hcount, hcover.trans (by decide)⟩

end Rtl812x.Kext
