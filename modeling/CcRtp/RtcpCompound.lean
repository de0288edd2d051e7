/-
# RTCP compound packets and their validation

Models the packet layout of `src/ccrtp/rtcppkt.h` and
`RTCPCompoundHandler::checkCompoundRTCPHeader` (`src/rtcppkt.cpp`).

The functions look at a received compound through `rtcpRecvBuffer`.  `Memory` is what stands
there and behind it: the octets received, then stale ones.  An RTCP packet of the source is
a pointer into that memory, here its offset.

`IsCompound` is the grammar of compounds, stated on octet strings.  The loop of
`checkCompoundRTCPHeader` tests the version of the packet it has just passed only if there
is another one behind it, so the last packet's version is never looked at:

* `headerLoop_eq` : where the loop stops;
* `compound_check_exact` : the check is the grammar except for compounds whose only fault is
  the version of the last of several packets.
-/
import CcRtp.Octets

/-- The memory from the receive buffer on. -/
abbrev Memory := ℕ → UInt8

namespace Memory

/-- The `n` octets from offset `p` on. -/
def octets (buf : Memory) (p n : ℕ) : Octets := (List.range n).map (fun i => buf (p + i))

/-- An octet string as memory, with zeros behind it. -/
def ofOctets (l : Octets) : Memory := fun i => l.getD i 0

@[simp] theorem length_octets (buf : Memory) (p n : ℕ) : (buf.octets p n).length = n := by
  rw [octets, List.length_map, List.length_range]

@[simp] theorem octets_zero (buf : Memory) (p : ℕ) : buf.octets p 0 = [] := rfl

/-- Reading on behind a region. -/
theorem octets_add (buf : Memory) (p a b : ℕ) :
    buf.octets p (a + b) = buf.octets p a ++ buf.octets (p + a) b := by
  rw [octets, octets, octets, List.range_add, List.map_append, List.map_map]
  congr 2
  funext i
  rw [Function.comp_apply, Nat.add_assoc]

/-- The octets of a region, one by one. -/
theorem ofOctets_octets (buf : Memory) {p n i : ℕ} (hi : i < n) :
    ofOctets (buf.octets p n) i = buf (p + i) := by
  rw [ofOctets, octets, List.getD_eq_getElem?_getD, List.getElem?_map,
    List.getElem?_range hi]
  rfl

end Memory

/-! ## The fields of a packet -/

/-- `RTCPPacket::Type`, as far as the functions tell packets apart. -/
def tSR : UInt8 := 200

def tRR : UInt8 := 201

def tSDES : UInt8 := 202

def tBYE : UInt8 := 203

def tAPP : UInt8 := 204

namespace RTCPPacket

variable (buf : Memory) (p : ℕ)

/-- `fh.version` -/
def version : BitVec 2 := bitField (buf p) 6 2

/-- `fh.padding` -/
def padding : BitVec 1 := bitField (buf p) 5 1

/-- `fh.block_count` -/
def blockCount : BitVec 5 := bitField (buf p) 0 5

/-- `fh.type` -/
def type : UInt8 := buf (p + 1)

/-- `getLength()`: the length field counts 32-bit words, less one. -/
def getLength : ℕ := (ofBigEndian (buf.octets (p + 2) 2) + 1) * 4

/-- `getSSRC()`: the word behind the fixed header. -/
def getSSRC : BitVec 32 := BitVec.ofNat 32 (ofBigEndian (buf.octets (p + 4) 4))

variable {buf p} {buf' : Memory} {p' : ℕ}

/-- The fields depend on the first four octets only. -/
theorem getLength_congr (h : ∀ i < 4, buf (p + i) = buf' (p' + i)) :
    getLength buf p = getLength buf' p' := by
  have h2 := h 2 (by omega)
  have h3 := h 3 (by omega)
  have hoctets : buf.octets (p + 2) 2 = buf'.octets (p' + 2) 2 := by
    show [buf (p + 2 + 0), buf (p + 2 + 1)] = [buf' (p' + 2 + 0), buf' (p' + 2 + 1)]
    rw [Nat.add_zero, Nat.add_zero, Nat.add_assoc, Nat.add_assoc, h2, h3]
  rw [getLength, getLength, hoctets]

theorem version_congr (h : buf p = buf' p') : version buf p = version buf' p' := by
  rw [version, version, h]

/-- Every packet has a header, and its length fits 18 bits and a bit. -/
theorem getLength_bounds (buf : Memory) (p : ℕ) :
    4 ≤ getLength buf p ∧ getLength buf p ≤ 2 ^ 18 := by
  have hlen : buf.octets (p + 2) 2 = [buf (p + 2 + 0), buf (p + 2 + 1)] := rfl
  have h0 := (buf (p + 2 + 0)).toNat_lt
  have h1 := (buf (p + 2 + 1)).toNat_lt
  rw [getLength, hlen]
  simp only [ofBigEndian, List.foldl_cons, List.foldl_nil]
  omega

end RTCPPacket

/-! ## The check -/

namespace RTCPCompoundHandler

open RTCPPacket

/-- `RTCP_VALID_MASK` on a little-endian machine: version, padding, and all but the lowest
bit of the type. -/
def rtcpValidMask : BitVec 16 := 0x00c0 ||| 0x0020 ||| 0xfe00

/-- `RTCP_VALID_VALUE`: version 2, no padding, and the types SR and RR. -/
def rtcpValidValue : BitVec 16 := (2 <<< 6) ||| (200 <<< 8)

/-- The first two octets, read as a `uint16`. -/
def firstHalfWord (buf : Memory) : BitVec 16 := (buf 1).toBitVec ++ (buf 0).toBitVec

/-- The loop over the packets, at most `rounds` times: the value of `pointer` behind it. -/
def headerLoop (buf : Memory) (len : ℕ) : ℕ → BitVec 32 → Option (BitVec 32)
  | 0, _ => none
  | rounds + 1, pointer =>
      let next := pointer + BitVec.ofNat 32 (getLength buf pointer.toNat)
      -- the version is that of the packet just passed
      if next.toNat < len ∧ version buf pointer.toNat = 2 then headerLoop buf len rounds next
      else some next

/-- `checkCompoundRTCPHeader(len)`.  The `uint32` pointer is a multiple of four, so the loop
that has not ended after `2^30` rounds never ends. -/
def checkCompoundRTCPHeader (buf : Memory) (len : ℕ) : Option Bool :=
  if firstHalfWord buf &&& rtcpValidMask ≠ rtcpValidValue then some false
  else (headerLoop buf len (2 ^ 30) 0).map (fun pointer => pointer.toNat = len)

end RTCPCompoundHandler

/-! ## The grammar -/

namespace RTCPPacket

/-- An octet string that is as long as its length field says. -/
def IsPacket (p : Octets) : Prop := p.length = getLength (.ofOctets p) 0

/-- The packet carries version 2. -/
def Tagged (p : Octets) : Prop := version (.ofOctets p) 0 = 2

/-- The packet may be the first of a compound: version 2, no padding, and a report. -/
def StartsCompound (p : Octets) : Prop :=
  Tagged p ∧ padding (.ofOctets p) 0 = 0 ∧ (type (.ofOctets p) 0 = tSR ∨ type (.ofOctets p) 0 = tRR)

instance (p : Octets) : Decidable (IsPacket p) := inferInstanceAs (Decidable (_ = _))

instance (p : Octets) : Decidable (Tagged p) := inferInstanceAs (Decidable (_ = _))

instance (p : Octets) : Decidable (StartsCompound p) := inferInstanceAs (Decidable (_ ∧ _))

/-- The octets are the given packets, one behind the other. -/
def Splits (octets : Octets) (ps : List Octets) : Prop := ps.flatten = octets ∧ ∀ p ∈ ps, IsPacket p

/-- **The grammar of compounds.**  One or more packets of version 2 that begin with a
report without padding. -/
def IsCompound (octets : Octets) : Prop :=
  ∃ p ps, Splits octets (p :: ps) ∧ StartsCompound p ∧ ∀ q ∈ ps, Tagged q

/-- All is right but the version of the last of several packets. -/
def OnlyLastUntagged (octets : Octets) : Prop :=
  ∃ p ps last, Splits octets (p :: ps ++ [last]) ∧ StartsCompound p ∧ (∀ q ∈ ps, Tagged q) ∧
    ¬ Tagged last

/-- A packet is not empty. -/
theorem IsPacket.four_le {p : Octets} (h : IsPacket p) : 4 ≤ p.length := by
  rw [h]
  exact (getLength_bounds _ _).1

/-- **The octets determine the packets**, since each one tells its length at its front. -/
theorem Splits.unique {octets : Octets} {ps qs : List Octets} (hp : Splits octets ps)
    (hq : Splits octets qs) : ps = qs := by
  induction ps generalizing octets qs with
  | nil =>
      cases qs with
      | nil => rfl
      | cons q qs =>
          have hlen := congrArg List.length (hp.1.trans hq.1.symm)
          have hfour := (hq.2 q List.mem_cons_self).four_le
          simp only [List.flatten_nil, List.length_nil, List.flatten_cons,
            List.length_append] at hlen
          omega
  | cons p ps ih =>
      cases qs with
      | nil =>
          have hlen := congrArg List.length (hp.1.trans hq.1.symm)
          have hfour := (hp.2 p List.mem_cons_self).four_le
          simp only [List.flatten_nil, List.length_nil, List.flatten_cons,
            List.length_append] at hlen
          omega
      | cons q qs =>
          have hflat := hp.1.trans hq.1.symm
          rw [List.flatten_cons, List.flatten_cons] at hflat
          have hpp := hp.2 p List.mem_cons_self
          have hqq := hq.2 q List.mem_cons_self
          -- both packets begin with the same four octets
          have hfront : ∀ i < 4, Memory.ofOctets p (0 + i) = Memory.ofOctets q (0 + i) := by
            intro i hi
            have hget := congrArg (fun l => l[i]?) hflat
            rw [List.getElem?_append_left (by have := hpp.four_le; omega),
              List.getElem?_append_left (by have := hqq.four_le; omega)] at hget
            rw [Nat.zero_add, Memory.ofOctets, Memory.ofOctets, List.getD_eq_getElem?_getD, hget,
              List.getD_eq_getElem?_getD]
          have hlen : p.length = q.length := by
            rw [hpp, hqq]
            exact getLength_congr hfront
          obtain ⟨rfl, hrest⟩ := List.append_inj hflat hlen
          have hps : Splits ps.flatten ps :=
            ⟨rfl, fun r hr => hp.2 r (List.mem_cons_of_mem p hr)⟩
          rw [ih hps ⟨hrest.symm, fun r hr => hq.2 r (List.mem_cons_of_mem p hr)⟩]

/-- The header of a packet in memory is that of its octets. -/
theorem octets_header (buf : Memory) (p : ℕ) {n : ℕ} (hn : 4 ≤ n) :
    ∀ i < 4, Memory.ofOctets (buf.octets p n) (0 + i) = buf (p + i) := by
  intro i hi
  rw [Nat.zero_add]
  exact buf.ofOctets_octets (by omega)

/-- The octets of the packet at `p` are a packet. -/
theorem isPacket_octets (buf : Memory) (p : ℕ) : IsPacket (buf.octets p (getLength buf p)) := by
  rw [IsPacket, Memory.length_octets]
  exact (getLength_congr (octets_header buf p (getLength_bounds buf p).1)).symm

/-- The octets of the packet at `p` carry the version found there. -/
theorem tagged_octets_iff (buf : Memory) (p : ℕ) {n : ℕ} (hn : 4 ≤ n) :
    Tagged (buf.octets p n) ↔ version buf p = 2 := by
  rw [Tagged, version_congr (octets_header buf p hn 0 (by omega)), Nat.add_zero]

/-- **Splitting off the first packet**: it is as long as the length field at its place says. -/
theorem splits_cons_iff (buf : Memory) (p m : ℕ) (r : Octets) (rs : List Octets) :
    Splits (buf.octets p m) (r :: rs) ↔ getLength buf p ≤ m ∧
      r = buf.octets p (getLength buf p) ∧
      Splits (buf.octets (p + getLength buf p) (m - getLength buf p)) rs := by
  constructor
  · rintro ⟨hflat, hpackets⟩
    rw [List.flatten_cons] at hflat
    have hr := hpackets r List.mem_cons_self
    have hle : r.length ≤ m := by
      have hlen := congrArg List.length hflat
      rw [List.length_append, Memory.length_octets] at hlen
      omega
    have hsplit : buf.octets p m =
        buf.octets p r.length ++ buf.octets (p + r.length) (m - r.length) := by
      rw [← Memory.octets_add, Nat.add_sub_cancel' hle]
    rw [hsplit] at hflat
    obtain ⟨hreq, hrest⟩ := List.append_inj hflat (Memory.length_octets _ _ _).symm
    have hlen : r.length = getLength buf p := by
      refine Eq.trans hr ?_
      rw [hreq]
      exact getLength_congr (octets_header buf p hr.four_le)
    rw [hlen] at hreq hrest hle
    exact ⟨hle, hreq, hrest, fun q hq => hpackets q (List.mem_cons_of_mem r hq)⟩
  · rintro ⟨hle, rfl, hflat, hpackets⟩
    constructor
    · rw [List.flatten_cons, hflat, ← Memory.octets_add, Nat.add_sub_cancel' hle]
    · intro q hq
      rcases List.mem_cons.mp hq with rfl | hq
      · exact isPacket_octets buf p
      · exact hpackets q hq

/-- No octets, no packets. -/
theorem splits_nil_iff (octets : Octets) : Splits octets [] ↔ octets = [] :=
  ⟨fun h => h.1.symm, fun h => ⟨h.symm, fun _ hq => absurd hq List.not_mem_nil⟩⟩

end RTCPPacket

/-! ## What the check accepts -/

namespace RTCPCompoundHandler

open RTCPPacket

variable {buf : Memory} {len : ℕ}

/-- **Where the loop stops**: at the end exactly if the octets split into packets of which
all but the last are tagged. -/
theorem headerLoop_eq (buf : Memory) (hlen : len + 2 ^ 18 < 2 ^ 32) (rounds : ℕ) :
    ∀ p, p ≤ len → len < p + 4 * rounds →
      ∃ q, headerLoop buf len rounds (BitVec.ofNat 32 p) = some q ∧
        (q.toNat = len ↔ ∃ ps last, Splits (buf.octets p (len - p)) (ps ++ [last]) ∧
          ∀ r ∈ ps, Tagged r) := by
  induction rounds with
  | zero =>
      intro p hp hrounds
      omega
  | succ rounds ih =>
      intro p hp hrounds
      obtain ⟨hfour, hmax⟩ := getLength_bounds buf p
      have hp32 : (BitVec.ofNat 32 p).toNat = p := by
        rw [BitVec.toNat_ofNat]
        omega
      rw [headerLoop, hp32, ← BitVec.ofNat_add]
      set n := getLength buf p with hn
      have hnext : (BitVec.ofNat 32 (p + n)).toNat = p + n := by
        rw [BitVec.toNat_ofNat]
        omega
      simp only [hnext]
      -- a splitting either ends with this packet or goes on behind it
      have hfirst : ∀ ps last, Splits (buf.octets p (len - p)) (ps ++ [last]) →
          (ps = [] ∧ p + n = len) ∨ (∃ rs, ps = buf.octets p n :: rs ∧ p + n < len ∧
            Splits (buf.octets (p + n) (len - (p + n))) (rs ++ [last])) := by
        intro ps last hsplit
        cases ps with
        | nil =>
            rw [List.nil_append, splits_cons_iff, splits_nil_iff] at hsplit
            obtain ⟨hle, -, hrest⟩ := hsplit
            have hzero := congrArg List.length hrest
            rw [Memory.length_octets, List.length_nil] at hzero
            exact Or.inl ⟨rfl, by omega⟩
        | cons r rs =>
            rw [List.cons_append, splits_cons_iff, Nat.sub_sub] at hsplit
            obtain ⟨hle, rfl, hrest⟩ := hsplit
            have hpos := congrArg List.length hrest.1
            rw [Memory.length_octets, List.flatten_append, List.length_append] at hpos
            have hlast := (hrest.2 last (by simp)).four_le
            simp only [List.flatten_cons, List.flatten_nil, List.append_nil] at hpos
            exact Or.inr ⟨rs, rfl, by omega, hrest⟩
      split_ifs with hgo
      · obtain ⟨hlt, hversion⟩ := hgo
        obtain ⟨q, hq, hiff⟩ := ih (p + n) (by omega) (by omega)
        refine ⟨q, hq, hiff.trans ⟨?_, ?_⟩⟩
        · rintro ⟨ps, last, hsplit, htagged⟩
          refine ⟨buf.octets p n :: ps, last, ?_, ?_⟩
          · rw [List.cons_append, splits_cons_iff, Nat.sub_sub]
            exact ⟨by omega, rfl, hsplit⟩
          · intro r hr
            rcases List.mem_cons.mp hr with rfl | hr
            · exact (tagged_octets_iff buf p hfour).mpr hversion
            · exact htagged r hr
        · rintro ⟨ps, last, hsplit, htagged⟩
          rcases hfirst ps last hsplit with ⟨-, heq⟩ | ⟨rs, rfl, -, hrest⟩
          · omega
          · exact ⟨rs, last, hrest, fun r hr => htagged r (List.mem_cons_of_mem _ hr)⟩
      · refine ⟨_, rfl, ?_⟩
        rw [hnext]
        constructor
        · intro heq
          refine ⟨[], buf.octets p n, ?_, fun r hr => absurd hr List.not_mem_nil⟩
          rw [List.nil_append, splits_cons_iff, splits_nil_iff]
          refine ⟨by omega, rfl, ?_⟩
          rw [show len - p - getLength buf p = 0 by omega, Memory.octets_zero]
        · rintro ⟨ps, last, hsplit, htagged⟩
          rcases hfirst ps last hsplit with ⟨-, heq⟩ | ⟨rs, rfl, hlt, -⟩
          · exact heq
          · have hversion := (tagged_octets_iff buf p hfour).mp
              (htagged _ List.mem_cons_self)
            exact absurd ⟨hlt, hversion⟩ hgo

/-- **The mask test** asks for version 2, no padding and one of the two report types. -/
theorem validMask_iff (buf : Memory) :
    firstHalfWord buf &&& rtcpValidMask = rtcpValidValue ↔
      version buf 0 = 2 ∧ padding buf 0 = 0 ∧ (type buf 0 = tSR ∨ type buf 0 = tRR) := by
  have hlow : ∀ b : BitVec 8, b &&& 0xe0#8 = 0x80#8 ↔
      b.extractLsb' 6 2 = 2 ∧ b.extractLsb' 5 1 = 0 := by decide
  have hhigh : ∀ b : BitVec 8, b &&& 0xfe#8 = 200#8 ↔ b = tSR.toBitVec ∨ b = tRR.toBitVec := by
    decide
  have hmask : rtcpValidMask = 0xfe#8 ++ 0xe0#8 := by decide
  have hvalue : rtcpValidValue = 200#8 ++ 0x80#8 := by decide
  have hsplit : ∀ a b c d : BitVec 8, a ++ b = c ++ d ↔ a = c ∧ b = d := by
    intro a b c d
    constructor
    · intro h
      have hl := congrArg (BitVec.extractLsb' 8 8) h
      have hr := congrArg (BitVec.extractLsb' 0 8) h
      rw [BitVec.extractLsb'_append_eq_left, BitVec.extractLsb'_append_eq_left] at hl
      rw [BitVec.extractLsb'_append_eq_right, BitVec.extractLsb'_append_eq_right] at hr
      exact ⟨hl, hr⟩
    · rintro ⟨rfl, rfl⟩
      rfl
  have htype : ∀ t : UInt8, buf 1 = t ↔ (buf 1).toBitVec = t.toBitVec := by
    intro t
    exact UInt8.toBitVec_inj.symm
  rw [firstHalfWord, hmask, hvalue, BitVec.and_append, hsplit, hlow, hhigh, version, padding, type,
    bitField, bitField, htype, htype]
  constructor
  · rintro ⟨ht, hv, hp⟩
    exact ⟨hv, hp, ht⟩
  · rintro ⟨hv, hp, ht⟩
    exact ⟨ht, hv, hp⟩

/-- **What the check accepts**: packets of which the first starts a compound and all but the
last are tagged. -/
theorem checkCompoundRTCPHeader_eq (buf : Memory) (hlen : len + 2 ^ 18 < 2 ^ 32) :
    ∃ ok, checkCompoundRTCPHeader buf len = some ok ∧
      (ok = true ↔ IsCompound (buf.octets 0 len) ∨ OnlyLastUntagged (buf.octets 0 len)) := by
  obtain ⟨q, hq, hiff⟩ := headerLoop_eq buf hlen (2 ^ 30) 0 (Nat.zero_le len) (by omega)
  rw [Nat.sub_zero] at hiff
  -- the first packet of a splitting starts a compound if the mask test succeeds
  have hstart : ∀ r rs, Splits (buf.octets 0 len) (r :: rs) →
      (StartsCompound r ↔ firstHalfWord buf &&& rtcpValidMask = rtcpValidValue) := by
    intro r rs hsplit
    obtain ⟨-, rfl, -⟩ := (splits_cons_iff _ _ _ _ _).mp hsplit
    have hhead := octets_header buf 0 (getLength_bounds buf 0).1
    rw [validMask_iff, StartsCompound, tagged_octets_iff buf 0 (getLength_bounds buf 0).1, padding,
      padding, type, type, ← Nat.zero_add (0 + 1), hhead (0 + 1) (by omega),
      show (0 : ℕ) = 0 + 0 from rfl, hhead 0 (by omega)]
  by_cases hmask : firstHalfWord buf &&& rtcpValidMask = rtcpValidValue
  · refine ⟨decide (q.toNat = len), ?_, ?_⟩
    · rw [checkCompoundRTCPHeader, if_neg (not_not.mpr hmask)]
      rw [show (0 : BitVec 32) = BitVec.ofNat 32 0 from rfl, hq]
      rfl
    rw [decide_eq_true_iff, hiff]
    constructor
    · rintro ⟨ps, last, hsplit, htagged⟩
      cases ps with
      | nil =>
          exact Or.inl ⟨last, [], hsplit, (hstart _ _ hsplit).mpr hmask,
            fun r hr => absurd hr List.not_mem_nil⟩
      | cons r rs =>
          have hr := (hstart _ _ hsplit).mpr hmask
          have hrs : ∀ q ∈ rs, Tagged q := fun q hq => htagged q (List.mem_cons_of_mem r hq)
          by_cases hlast : Tagged last
          · refine Or.inl ⟨r, rs ++ [last], hsplit, hr, fun q hq => ?_⟩
            rcases List.mem_append.mp hq with hq | hq
            · exact hrs q hq
            · rw [List.mem_singleton.mp hq]
              exact hlast
          · exact Or.inr ⟨r, rs, last, hsplit, hr, hrs, hlast⟩
    · rintro (⟨r, rs, hsplit, hr, hrs⟩ | ⟨r, rs, last, hsplit, hr, hrs, -⟩)
      · rcases List.eq_nil_or_concat rs with rfl | ⟨rs, last, rfl⟩
        · exact ⟨[], r, hsplit, fun q hq => absurd hq List.not_mem_nil⟩
        · rw [List.concat_eq_append] at hsplit hrs
          refine ⟨r :: rs, last, hsplit, fun q hq => ?_⟩
          rcases List.mem_cons.mp hq with rfl | hq
          · exact hr.1
          · exact hrs q (List.mem_append_left _ hq)
      · refine ⟨r :: rs, last, hsplit, fun q hq => ?_⟩
        rcases List.mem_cons.mp hq with rfl | hq
        · exact hr.1
        · exact hrs q hq
  · refine ⟨false, ?_, ?_⟩
    · rw [checkCompoundRTCPHeader, if_pos hmask]
    · constructor
      · intro h
        cases h
      · rintro (⟨r, rs, hsplit, hr, -⟩ | ⟨r, rs, last, hsplit, hr, -, -⟩)
        · exact absurd ((hstart _ _ hsplit).mp hr) hmask
        · exact absurd ((hstart _ _ hsplit).mp hr) hmask

end RTCPCompoundHandler

open RTCPPacket RTCPCompoundHandler

/-- A compound that is faultless is not one whose last packet has another version. -/
theorem RTCPPacket.IsCompound.not_onlyLastUntagged {octets : Octets} (h : IsCompound octets) :
    ¬ OnlyLastUntagged octets := by
  rintro ⟨p, ps, last, hsplit, -, -, hlast⟩
  obtain ⟨q, qs, hsplit', -, hqs⟩ := h
  have heq := hsplit.unique hsplit'
  rw [List.cons_append, List.cons.injEq] at heq
  exact hlast (hqs last (by rw [← heq.2]; exact List.mem_append_right _ List.mem_cons_self))

/-- **Validation of compounds, exactly.**  For every content of the memory and every length
that the 32-bit pointer of the loop can pass, `checkCompoundRTCPHeader` returns, and its
answer is the grammar of compounds if and only if the octets are not packets whose only fault
is the version of the last of several. -/
theorem compound_check_exact (buf : Memory) {len : ℕ} (hlen : len + 2 ^ 18 < 2 ^ 32) :
    ∃ ok, checkCompoundRTCPHeader buf len = some ok ∧
      ((ok = true ↔ IsCompound (buf.octets 0 len)) ↔ ¬ OnlyLastUntagged (buf.octets 0 len)) := by
  obtain ⟨ok, hok, hiff⟩ := checkCompoundRTCPHeader_eq buf hlen
  refine ⟨ok, hok, ?_⟩
  rw [hiff]
  constructor
  · intro h hlast
    exact (h.mp (Or.inr hlast)).not_onlyLastUntagged hlast
  · intro hlast
    exact or_iff_left hlast

/-- The theorem at an empty receiver report followed by a BYE packet. -/
theorem compound_check_exact_report :
    ∃ ok, checkCompoundRTCPHeader
        (.ofOctets [0x80, 201, 0, 1, 0, 0, 0x11, 0x22, 0x81, 203, 0, 1, 0, 0, 0x11, 0x22]) 16
          = some ok ∧
      ((ok = true ↔ IsCompound (Memory.octets (.ofOctets
          [0x80, 201, 0, 1, 0, 0, 0x11, 0x22, 0x81, 203, 0, 1, 0, 0, 0x11, 0x22]) 0 16)) ↔
        ¬ OnlyLastUntagged (Memory.octets (.ofOctets
          [0x80, 201, 0, 1, 0, 0, 0x11, 0x22, 0x81, 203, 0, 1, 0, 0, 0x11, 0x22]) 0 16)) :=
  compound_check_exact _ (by decide)

/-- **A last packet of version 0 is accepted**: an empty receiver report and a BYE packet
with version 0 in its header. -/
theorem untagged_last_packet_accepted :
    checkCompoundRTCPHeader
        (.ofOctets [0x80, 201, 0, 1, 0, 0, 0x11, 0x22, 0x01, 203, 0, 1, 0, 0, 0x11, 0x22]) 16
          = some true ∧
      ¬ IsCompound (Memory.octets (.ofOctets
        [0x80, 201, 0, 1, 0, 0, 0x11, 0x22, 0x01, 203, 0, 1, 0, 0, 0x11, 0x22]) 0 16) := by
  constructor
  · decide
  · intro h
    refine h.not_onlyLastUntagged ⟨[0x80, 201, 0, 1, 0, 0, 0x11, 0x22], [],
      [0x01, 203, 0, 1, 0, 0, 0x11, 0x22], ⟨by decide, by decide⟩, by decide, by decide, by decide⟩
