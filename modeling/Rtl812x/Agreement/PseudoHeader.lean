import Rtl812x.Dext.PartialChecksum
import Rtl812x.Dext.TxWords

/-!
# The pseudo-header seed of a segmented packet

Before the chip segments a TCP packet, the drivers preload its checksum field with the sum of the
pseudo header without the length: the protocol number and the address words, folded to 16 bits after
each word.  The dext does it in the one buffer of the packet; the kext finds the network header in
the second mbuf of the chain when the first holds the Ethernet header alone.

* `pseudoHdrSum_spec` — **the folded sum**: never zero, with the residue of the exact one;
* `Kext.prepareTSO4`, `Kext.prepareTSO6` — the kext's versions, on a chain of mbufs;
* `headersInFirst`, `headersInSecond` — a change of the network header, in either layout;
* `tsoSeed_agree` — **both drivers leave the same seed and the same bytes.**
-/

namespace Rtl812x

open OnesComplement

/-! ### The kext -/

namespace Kext

open Dext (be16 putBe16 mssMax)

def ethHlen : ℕ := 14

/-- An mbuf with its bytes. -/
structure MbufData where
  len : ℕ
  data : ℕ → UInt8

/-- The bytes of a chain. -/
def chainBytes (chain : List MbufData) : List UInt8 :=
  chain.flatMap fun m => (List.range m.len).map m.data

/-- The mbuf that holds the network header, and where it starts.  A VLAN packet has only the Ethernet
header in its first mbuf. -/
def networkHeader : List MbufData → Option (ℕ × ℕ)
  | [] => none
  | [m] => if m.len = ethHlen then none else some (0, ethHlen)
  | m :: _ :: _ => if m.len = ethHlen then some (1, 0) else some (0, ethHlen)

/-- The sum over `n` words from an offset. -/
def pseudoCsum32 (data : ℕ → UInt8) (off n : ℕ) : ℕ :=
  (List.range n).foldl (fun csum32 i =>
    let csum32 := csum32 + be16 data (off + 2 * i)
    (csum32 + csum32 >>> 16) &&& 0xffff) 6

/-- Work on the network header of a chain: what is done to the bytes of its mbuf gives the length of
the header; returns the chain, the TCP offset and the segment size. -/
def atNetworkHeader (prepare : (ℕ → UInt8) → ℕ → (ℕ → UInt8) × ℕ) (chain : List MbufData) (mss : ℕ) :
    Option (List MbufData × ℕ × ℕ) := do
  let (k, off) ← networkHeader chain
  let m ← chain[k]?
  let (data, il) := prepare m.data off
  pure (chain.set k { m with data := data }, ethHlen + il, if mss > mssMax then mssMax else mss)

/-- Seed the TCP checksum behind an IPv4 header. -/
def seedV4 (data : ℕ → UInt8) (off : ℕ) : (ℕ → UInt8) × ℕ :=
  let csum32 := pseudoCsum32 data (off + 12) 4
  let il := ((data off).toNat &&& 0x0f) <<< 2
  (putBe16 data (off + il + 16) csum32, il)

/-- Seed the TCP checksum behind an IPv6 header and clear its payload length. -/
def seedV6 (data : ℕ → UInt8) (off : ℕ) : (ℕ → UInt8) × ℕ :=
  let data := putBe16 data (off + 4) 0
  let csum32 := pseudoCsum32 data (off + 8) 16
  (putBe16 data (off + kIPv6HdrLen + 16) csum32, kIPv6HdrLen)

def prepareTSO4 (chain : List MbufData) (mss : ℕ) : Option (List MbufData × ℕ × ℕ) :=
  atNetworkHeader seedV4 chain mss

def prepareTSO6 (chain : List MbufData) (mss : ℕ) : Option (List MbufData × ℕ × ℕ) :=
  atNetworkHeader seedV6 chain mss

end Kext

namespace Agreement

open Dext (Frame be16 putBe16 be16_eq_word word_putBe16 putBe16_of_ne)
open Kext (MbufData chainBytes)

/-! ### The folded sum -/

theorem csumAdd_eq_addFolded (csum w : ℕ) : Dext.csumAdd csum w = addFolded csum w := by
  have hand : ∀ n : ℕ, n &&& 0xffff = n % 2 ^ 16 := fun n => Nat.and_two_pow_sub_one_eq_mod n 16
  rw [Dext.csumAdd, hand, Nat.shiftRight_eq_div_pow]
  rfl

/-- **The pseudo-header sum**, folded after each word.  The induction is on the number of words; that
the sum so far is not zero and has 16 bits is what makes one fold enough. -/
theorem pseudoHdrSum_spec (f : Frame) (off n : ℕ) :
    0 < Dext.pseudoHdrSum f off n ∧ Dext.pseudoHdrSum f off n ≤ 65535 ∧
      Dext.pseudoHdrSum f off n ≡ 6 + wordSum f off (2 * n) [MOD 65535] := by
  induction n with
  | zero =>
      have hsix : Dext.pseudoHdrSum f off 0 = 6 := rfl
      rw [hsix]
      exact ⟨by decide, by decide, rfl⟩
  | succ n ih =>
      obtain ⟨hpos, hle, hmod⟩ := ih
      have hstep : Dext.pseudoHdrSum f off (n + 1) =
          addFolded (Dext.pseudoHdrSum f off n) (word f (off + 2 * n)) := by
        rw [Dext.pseudoHdrSum, List.range_succ, List.foldl_append, ← be16_eq_word, ← csumAdd_eq_addFolded]
        rfl
      obtain ⟨hpos', hle', hmod'⟩ := addFolded_spec hpos hle (word_le f (off + 2 * n))
      rw [hstep, wordSum_append_word, ← Nat.add_assoc]
      exact ⟨hpos', hle', hmod'.trans (hmod.add_right _)⟩

/-- What stands at the checksum field: the residue of the protocol number and the addresses, not
zero. -/
structure Seeded (f : Frame) (field addresses : ℕ) : Prop where
  modEq : be16 f field ≡ 6 + addresses [MOD 65535]
  ne_zero : be16 f field ≠ 0

theorem seeded_putBe16 (g f : Frame) (field off n : ℕ) :
    Seeded (putBe16 g field (Dext.pseudoHdrSum f off n)) field (wordSum f off (2 * n)) := by
  obtain ⟨hpos, hle, hmod⟩ := pseudoHdrSum_spec f off n
  have hword : be16 (putBe16 g field (Dext.pseudoHdrSum f off n)) field = Dext.pseudoHdrSum f off n := by
    rw [be16_eq_word, word_putBe16 _ _ (by omega)]
  constructor
  · rw [hword]
    exact hmod
  · rw [hword]
    omega

/-! ### The dext -/

/-- What `prepareTSO4` of the dext does to a frame. -/
structure PreparedV4 (f : Frame) (r : ℕ × Frame) : Prop where
  offset : r.1 = 14 + 4 * ((f 14).toNat % 16)
  seed : Seeded r.2 (r.1 + 16) (wordSum f 26 8)
  others : ∀ i, i ≠ r.1 + 16 → i ≠ r.1 + 17 → r.2 i = f i

/-- What `prepareTSO6` of the dext does to a frame. -/
structure PreparedV6 (f : Frame) (r : ℕ × Frame) : Prop where
  offset : r.1 = 54
  seed : Seeded r.2 70 (wordSum f 22 32)
  payloadLength : r.2 18 = 0 ∧ r.2 19 = 0
  others : ∀ i, i ≠ 18 → i ≠ 19 → i ≠ 70 → i ≠ 71 → r.2 i = f i

theorem prepareTSO4_prepared (f : Frame) : PreparedV4 f (Dext.prepareTSO4 f) where
  offset := Dext.prepareTSO4_fst f
  seed := seeded_putBe16 f f _ 26 4
  others := fun _ hi hi' => putBe16_of_ne _ _ _ hi hi'

theorem prepareTSO6_prepared (f : Frame) : PreparedV6 f (Dext.prepareTSO6 f) where
  offset := rfl
  seed := by
    have hsame : wordSum (putBe16 f 18 0) 22 32 = wordSum f 22 32 :=
      wordSum_congr _ _ fun i hi _ => putBe16_of_ne _ _ _ (by omega) (by omega)
    have hseed := seeded_putBe16 (putBe16 f 18 0) (putBe16 f 18 0) 70 22 16
    rw [hsame] at hseed
    exact hseed
  payloadLength := ⟨rfl, rfl⟩
  others := by
    intro i h18 h19 h70 h71
    exact (putBe16_of_ne _ _ _ h70 h71).trans (putBe16_of_ne _ _ _ h18 h19)

/-! ### The two layouts of the kext -/

/-- The bytes from an offset. -/
def shifted (f : Frame) (n : ℕ) : Frame := fun i => f (n + i)

theorem be16_shifted (f : Frame) (n i : ℕ) : be16 (shifted f n) i = be16 f (n + i) := rfl

theorem putBe16_shifted (f : Frame) (n i v : ℕ) :
    putBe16 (shifted f n) i v = shifted (putBe16 f (n + i) v) n := by
  funext j
  by_cases h : j = i
  · subst h
    simp [putBe16, shifted]
  · by_cases h' : j = i + 1
    · subst h'
      simp [putBe16, shifted, Nat.add_assoc]
    · rw [putBe16_of_ne _ _ _ h h', shifted, shifted, putBe16_of_ne _ _ _ (by omega) (by omega)]

theorem pseudoCsum32_eq (f : Frame) (off n : ℕ) :
    Kext.pseudoCsum32 f off n = Dext.pseudoHdrSum f off n := rfl

theorem pseudoHdrSum_shifted (f : Frame) (m off n : ℕ) :
    Dext.pseudoHdrSum (shifted f m) off n = Dext.pseudoHdrSum f (m + off) n := by
  simp only [Dext.pseudoHdrSum, be16_shifted, Nat.add_assoc]

/-- In the first mbuf the kext works on the same bytes at the same place. -/
theorem seedV4_first (f : Frame) : Kext.seedV4 f 14 = ((Dext.prepareTSO4 f).2, 4 * ((f 14).toNat % 16)) := by
  have hil := Dext.and_15_shift (f 14).toNat
  simp only [Kext.seedV4, Dext.prepareTSO4, pseudoCsum32_eq, kMacHdrLen, hil]

theorem seedV6_first (f : Frame) : Kext.seedV6 f 14 = ((Dext.prepareTSO6 f).2, 40) := rfl

/-- In the second mbuf it finds them 14 bytes further down. -/
theorem seedV4_second (f : Frame) :
    Kext.seedV4 (shifted f 14) 0 = (shifted (Dext.prepareTSO4 f).2 14, 4 * ((f 14).toNat % 16)) := by
  have hil := Dext.and_15_shift (f 14).toNat
  have hhdr : shifted f 14 0 = f 14 := rfl
  simp only [Kext.seedV4, Dext.prepareTSO4, pseudoCsum32_eq, pseudoHdrSum_shifted, hhdr, hil, kMacHdrLen,
    putBe16_shifted, Nat.zero_add, Nat.add_assoc]

theorem seedV6_second (f : Frame) :
    Kext.seedV6 (shifted f 14) 0 = (shifted (Dext.prepareTSO6 f).2 14, 40) := by
  simp only [Kext.seedV6, Dext.prepareTSO6, pseudoCsum32_eq, putBe16_shifted, pseudoHdrSum_shifted,
    kMacHdrLen, kIPv6HdrLen, Nat.reduceAdd]

/-- The kext returns the same TCP offset as the dext and leaves, on these mbufs followed by others, the
bytes of the dext's frame followed by theirs. -/
def LeavesSame (prepare : List MbufData → ℕ → Option (List MbufData × ℕ × ℕ)) (mbufs : List MbufData)
    (r : ℕ × Frame) : Prop :=
  ∀ rest mss, ∃ chain, prepare (mbufs ++ rest) mss = some (chain, r.1, min mss 2047) ∧
    chainBytes chain = (List.range (mbufs.map MbufData.len).sum).map r.2 ++ chainBytes rest

section Layouts

variable {prepare : (ℕ → UInt8) → ℕ → (ℕ → UInt8) × ℕ} {f : Frame} {r : ℕ × Frame} {il : ℕ}

theorem min_mssMax (mss : ℕ) : (if mss > Dext.mssMax then Dext.mssMax else mss) = min mss 2047 := by
  unfold Dext.mssMax
  split <;> omega

/-- All headers in the first mbuf. -/
theorem headersInFirst {len : ℕ} (hlen : len ≠ 14) (hprep : prepare f 14 = (r.2, il))
    (hoff : r.1 = 14 + il) : LeavesSame (Kext.atNetworkHeader prepare) [⟨len, f⟩] r := by
  intro rest mss
  have hhdr : Kext.networkHeader (⟨len, f⟩ :: rest) = some (0, 14) := by
    cases rest with
    | nil => exact if_neg hlen
    | cons m rest => exact if_neg hlen
  refine ⟨⟨len, r.2⟩ :: rest, ?_, ?_⟩
  · rw [List.singleton_append, Kext.atNetworkHeader, hhdr]
    simp only [Option.bind_eq_bind, Option.bind_some, List.getElem?_cons_zero, hprep, List.set_cons_zero,
      min_mssMax, hoff]
    rfl
  · simp [chainBytes]

/-- The Ethernet header alone in the first mbuf. -/
theorem headersInSecond (len : ℕ) (hprep : prepare (shifted f 14) 0 = (shifted r.2 14, il))
    (hoff : r.1 = 14 + il) (hmac : ∀ i < 14, r.2 i = f i) :
    LeavesSame (Kext.atNetworkHeader prepare) [⟨14, f⟩, ⟨len, shifted f 14⟩] r := by
  intro rest mss
  have hhdr : Kext.networkHeader (⟨14, f⟩ :: ⟨len, shifted f 14⟩ :: rest) = some (1, 0) := rfl
  refine ⟨⟨14, f⟩ :: ⟨len, shifted r.2 14⟩ :: rest, ?_, ?_⟩
  · show Kext.atNetworkHeader prepare (⟨14, f⟩ :: ⟨len, shifted f 14⟩ :: rest) mss = _
    rw [Kext.atNetworkHeader, hhdr]
    simp only [Option.bind_eq_bind, Option.bind_some, List.getElem?_cons_succ, List.getElem?_cons_zero,
      hprep, List.set_cons_succ, List.set_cons_zero, min_mssMax, hoff]
    rfl
  · have hfirst : (List.range 14).map f = (List.range 14).map r.2 :=
      List.map_congr_left fun i hi => (hmac i (List.mem_range.mp hi)).symm
    simp only [chainBytes, List.flatMap_cons, hfirst, List.map_cons, List.map_nil, List.sum_cons,
      List.sum_nil, Nat.add_zero, List.range_add, List.map_append, List.map_map, List.append_assoc]
    rfl

end Layouts

/-- **The seed of a packet to be segmented.**  For every frame: the dext's functions store at the TCP
checksum field the nonzero 16-bit value congruent to the protocol number plus the address words, and
change nothing else but the IPv6 payload length, which becomes zero.  The kext's functions leave the
same bytes and return the same offset, with the headers in the first mbuf and with the Ethernet header
alone there. -/
theorem tsoSeed_agree (f : Frame) (len len' : ℕ) (hlen : len ≠ 14) :
    PreparedV4 f (Dext.prepareTSO4 f) ∧ PreparedV6 f (Dext.prepareTSO6 f) ∧
    LeavesSame Kext.prepareTSO4 [⟨len, f⟩] (Dext.prepareTSO4 f) ∧
    LeavesSame Kext.prepareTSO6 [⟨len, f⟩] (Dext.prepareTSO6 f) ∧
    LeavesSame Kext.prepareTSO4 [⟨14, f⟩, ⟨len', shifted f 14⟩] (Dext.prepareTSO4 f) ∧
    LeavesSame Kext.prepareTSO6 [⟨14, f⟩, ⟨len', shifted f 14⟩] (Dext.prepareTSO6 f) := by
  have h4 := prepareTSO4_prepared f
  have h6 := prepareTSO6_prepared f
  have hmac4 : ∀ i < 14, (Dext.prepareTSO4 f).2 i = f i := by
    intro i hi
    have hoff := h4.offset
    exact h4.others i (by omega) (by omega)
  have hmac6 : ∀ i < 14, (Dext.prepareTSO6 f).2 i = f i := by
    intro i hi
    exact h6.others i (by omega) (by omega) (by omega) (by omega)
  exact ⟨h4, h6, headersInFirst hlen (seedV4_first f) h4.offset, headersInFirst hlen (seedV6_first f) rfl,
    headersInSecond len' (seedV4_second f) h4.offset hmac4,
    headersInSecond len' (seedV6_second f) rfl hmac6⟩

/-- An IPv4 frame between two hosts of 10.0.0.0/8, with a 20-byte header. -/
def hostsFrame : Frame := fun i =>
  if i = 14 then 0x45 else if i = 26 ∨ i = 30 then 10 else if i = 29 then 1 else if i = 33 then 2 else 0

/-- Its seed is 6 + 0x0a00 + 1 + 0x0a00 + 2. -/
theorem tsoSeed_hosts : (Dext.prepareTSO4 hostsFrame).1 = 34 ∧
    be16 (Dext.prepareTSO4 hostsFrame).2 50 ≡ 5129 [MOD 65535] := by
  have hprep := (tsoSeed_agree hostsFrame 54 40 (by decide)).1
  have hoff : (Dext.prepareTSO4 hostsFrame).1 = 34 := hprep.offset.trans (by decide)
  have hseed := hprep.seed.modEq
  rw [hoff] at hseed
  exact ⟨hoff, hseed⟩

end Agreement

end Rtl812x
