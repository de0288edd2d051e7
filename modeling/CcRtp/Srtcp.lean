/-
# SRTCP protection of compound packets

Models `CryptoContextCtrl::srtcpEncrypt`, `CryptoContextCtrl::srtcpAuthenticate`
(`src/CryptoContextCtrl.cpp`), `QueueRTCPManager::protect` and
`QueueRTCPManager::unprotect` (`src/control.cpp`).

The functions work in place on a piece of memory: a compound packet of `len` octets at its
front, and behind it the room into which `protect` writes the index and the tag.  All but
the first eight octets of the packet are transformed.

The F8 initial vector holds the first eight octets of the memory that the *same call*
transforms.  So the sender makes it from the plain octets 8 to 15 of the packet and the
receiver from the encrypted ones.

* `protect_eq`, `unprotect_eq` : what the two functions do to a packet;
* `srtcp_cm_round_trip` : in counter mode every delivered packet of a run is restored;
* `srtcp_f8_round_trip_exact` : in F8 mode a packet is restored exactly if the key streams
  of the two initial vectors agree.
-/
import CcRtp.CryptoContextCtrl

/-! ## The functions of the source -/

namespace CryptoContextCtrl

variable (P : Primitives)

/-- The counter-mode initial vector: the session salt, with the SSRC and the 32-bit index
XORed into it, and two zero octets for the block counter. -/
def cmIv (kS : Octets) (ssrc : BitVec 32) (index : BitVec 64) : Block := fun i =>
  if i.val < 4 then kS.getD i 0
  else if i.val < 8 then UInt8.ofNat (ssrc >>> ((7 - i.val) * 8)).toNat ^^^ kS.getD i 0
  else if i.val < 10 then kS.getD i 0
  else if i.val < 14 then UInt8.ofNat (index >>> ((13 - i.val) * 8)).toNat ^^^ kS.getD i 0
  else 0

/-- The F8 initial vector: four zero octets, the index with the E flag, and the first
eight octets at `rtp`. -/
def f8Iv (rtp : Octets) (index : BitVec 64) : Block :=
  Block.ofOctets ([0, 0, 0, 0] ++ bigEndian 4 (index ||| 0x80000000).toNat ++ slice rtp 0 8)

/-- `srtcpEncrypt(rtp, len, index, ssrc)`: the first `len` octets of the memory at `rtp`
are transformed in place. -/
def srtcpEncrypt (ctx : CryptoContextCtrl) (rtp : Octets) (len : ℕ) (index : BitVec 64)
    (ssrc : BitVec 32) : Option (Octets × List Block) :=
  (ctx.keys.transform P (cmIv ctx.kS ssrc index) (f8Iv rtp index) (slice rtp 0 len)).map
    (fun (out, blocks) => (writeAt rtp 0 out, blocks))

/-- `srtcpAuthenticate(rtp, len, index, tag)`: the octets at `tag` afterwards, which were
`old` before. -/
def srtcpAuthenticate (ctx : CryptoContextCtrl) (rtp : Octets) (len : ℕ) (index : BitVec 32)
    (old : Octets) : Option Octets :=
  ctx.keys.authenticate P (slice rtp 0 len ++ bigEndian 4 index.toNat) old

variable {P}

/-- **`srtcpEncrypt`** replaces the octets it is told to and nothing behind them. -/
theorem srtcpEncrypt_eq {ctx : CryptoContextCtrl} {data rest out : Octets} {index : BitVec 64}
    {ssrc : BitVec 32} {blocks : List Block}
    (hout : ctx.keys.transform P (cmIv ctx.kS ssrc index) (f8Iv (data ++ rest) index) data
      = some (out, blocks)) (hlen : out.length = data.length) :
    ctx.srtcpEncrypt P (data ++ rest) data.length index ssrc = some (out ++ rest, blocks) := by
  have hwrite : writeAt (data ++ rest) 0 out = out ++ rest :=
    writeAt_eq [] data out rest rfl rfl hlen
  rw [srtcpEncrypt, slice_append_left _ _ rfl, hout, Option.map_some]
  simp only [hwrite]

end CryptoContextCtrl

open CryptoContextCtrl

namespace QueueRTCPManager

variable (T : ShiftUnit) (P : Primitives)

/-- The SSRC of the sender, behind the first header word of a compound packet. -/
def senderSSRC (pkt : Octets) : BitVec 32 := BitVec.ofNat 32 (ofBigEndian (slice pkt 4 4))

/-- The index as it stands in a packet: with the E flag set. -/
def withEFlag (index : BitVec 32) : BitVec 32 := index ||| 0x80000000

/-- `protect(pkt, len, pcc)` with the member `srtcpIndex`: the return value, the memory at
`pkt` and the next `srtcpIndex`. -/
def protect (srtcpIndex : BitVec 32) (pkt : Octets) (len : ℕ) (pcc : CryptoContextCtrl) :
    Option (ℤ × Octets × BitVec 32) :=
  let ssrc := senderSSRC pkt
  (pcc.srtcpEncrypt P (pkt.drop 8) (len - 8) (srtcpIndex.setWidth 64) ssrc).bind
    (fun (rtp, _) =>
      let encIndex := withEFlag srtcpIndex
      let pkt := writeAt (pkt.take 8 ++ rtp) len (bigEndian 4 encIndex.toNat)
      let old := slice pkt (len + 4) pcc.getTagLength
      (pcc.srtcpAuthenticate P pkt len encIndex old).map (fun tag =>
        (((len + pcc.getTagLength + 4 : ℕ) : ℤ), writeAt pkt (len + 4) tag,
          (srtcpIndex + 1) &&& ~~~0x80000000)))

/-- `unprotect(pkt, len, pcc)` for a context that is there: the return value (`-2` if the
replay check failed, `-1` if authentication failed), the memory at `pkt`, and the context.
`payloadLen` is a `uint32`. -/
def unprotect (pkt : Octets) (len : ℕ) (pcc : CryptoContextCtrl) :
    Option (ℤ × Octets × CryptoContextCtrl) :=
  let payloadLen := BitVec.ofNat 32 len
    - BitVec.ofNat 32 (pcc.getTagLength + pcc.getMkiLength + 4)
  let ssrc := senderSSRC pkt
  let encIndex := BitVec.ofNat 32 (ofBigEndian (slice pkt payloadLen.toNat 4))
  let remoteIndex := encIndex &&& ~~~0x80000000
  -- the index is read before it is authenticated
  if pcc.checkReplay T remoteIndex = false then some (-2, pkt, pcc)
  else
    let tag := slice pkt (len - pcc.getTagLength) pcc.getTagLength
    match pcc.srtcpAuthenticate P pkt payloadLen.toNat encIndex
        (List.replicate pcc.getTagLength 0) with
    | none => none
    | some mac =>
        if tag ≠ mac then some (-1, pkt, pcc)
        else
          let decrypted :=
            -- without the E flag the packet was sent in the clear
            if encIndex &&& 0x80000000 ≠ 0 then
              (pcc.srtcpEncrypt P (pkt.drop 8) (payloadLen - 8).toNat (remoteIndex.setWidth 64)
                ssrc).map (fun (rtp, _) => pkt.take 8 ++ rtp)
            else some pkt
          decrypted.map (fun pkt => (payloadLen.toInt, pkt, pcc.update T remoteIndex))

/-! ## One packet -/

/-- Below `2^31` the E flag adds the top bit, and taking it off gives the index back. -/
theorem withEFlag_spec {index : BitVec 32} (h : index.toNat < 2 ^ 31) :
    withEFlag index &&& ~~~0x80000000 = index ∧ withEFlag index &&& 0x80000000 ≠ 0 := by
  have hflag : (0x80000000 : BitVec 32) = BitVec.twoPow 32 31 := by decide
  have htop : index.getLsbD 31 = false := Nat.testBit_lt_two_pow h
  unfold withEFlag
  rw [hflag]
  constructor
  · apply BitVec.eq_of_getLsbD_eq
    intro i hi
    rw [BitVec.getLsbD_and, BitVec.getLsbD_or, BitVec.getLsbD_not, BitVec.getLsbD_twoPow]
    by_cases h31 : i = 31
    · subst h31
      rw [htop]
      simp
    · simp [hi, Ne.symm h31]
  · intro hzero
    have hbit := congrArg (fun x => x.getLsbD 31) hzero
    simp at hbit

/-- The sender's SSRC is among the first eight octets. -/
theorem senderSSRC_append {hdr : Octets} (hhdr : hdr.length = 8) (a b : Octets) :
    senderSSRC (hdr ++ a ++ b) = senderSSRC hdr := by
  rw [senderSSRC, senderSSRC, slice, slice, List.append_assoc,
    List.drop_append_of_le_length (by omega), List.take_append_of_le_length]
  rw [List.length_drop]
  omega

variable {T P} {ctx : CryptoContextCtrl}

/-- **`protect`**: the packet with its rear part transformed, the index with the E flag,
and the tag of both. -/
theorem protect_eq (hkeyed : ctx.keys.Keyed) {index : BitVec 32} {hdr data room out : Octets}
    {blocks : List Block} (hhdr : hdr.length = 8) (hroom : 4 + ctx.getTagLength ≤ room.length)
    (hout : ctx.keys.transform P (cmIv ctx.kS (senderSSRC hdr) (index.setWidth 64))
      (f8Iv (data ++ room) (index.setWidth 64)) data = some (out, blocks))
    (hlen : out.length = data.length) :
    protect P index (hdr ++ data ++ room) (hdr.length + data.length) ctx =
      some (((hdr.length + data.length + ctx.getTagLength + 4 : ℕ) : ℤ),
        hdr ++ out ++ bigEndian 4 (withEFlag index).toNat
          ++ ctx.keys.macTag P (hdr ++ out ++ bigEndian 4 (withEFlag index).toNat)
          ++ room.drop (4 + ctx.getTagLength),
        (index + 1) &&& ~~~0x80000000) := by
  have htotal : (hdr ++ out).length = hdr.length + data.length := by
    rw [List.length_append, hlen]
  have hdrop : (hdr ++ data ++ room).drop 8 = data ++ room := by
    rw [List.append_assoc, ← hhdr, List.drop_left]
  have htake : (hdr ++ data ++ room).take 8 = hdr := by
    rw [List.append_assoc, ← hhdr, List.take_left]
  have hssrc : senderSSRC (hdr ++ data ++ room) = senderSSRC hdr :=
    senderSSRC_append hhdr _ _
  -- the room, divided into the places of index and tag and what is left
  obtain ⟨r₁, r₂, r₃, rfl, hr₁, hr₂⟩ : ∃ r₁ r₂ r₃, room = r₁ ++ (r₂ ++ r₃) ∧ r₁.length = 4 ∧
      r₂.length = ctx.getTagLength := by
    refine ⟨room.take 4, (room.drop 4).take ctx.getTagLength,
      (room.drop 4).drop ctx.getTagLength, ?_, ?_, ?_⟩
    · rw [List.take_append_drop, List.take_append_drop]
    · rw [List.length_take]; omega
    · rw [List.length_take, List.length_drop]; omega
  have henc := srtcpEncrypt_eq hout hlen
  have hauth : ctx.srtcpAuthenticate P
      (hdr ++ out ++ bigEndian 4 (withEFlag index).toNat ++ (r₂ ++ r₃)) (hdr.length + data.length)
      (withEFlag index) r₂
      = some (ctx.keys.macTag P (hdr ++ out ++ bigEndian 4 (withEFlag index).toNat)) := by
    rw [srtcpAuthenticate, List.append_assoc (hdr ++ out), slice_append_left _ _ htotal.symm]
    exact SessionKeys.authenticate_eq hkeyed _ hr₂
  have hindex : writeAt (hdr ++ (out ++ (r₁ ++ (r₂ ++ r₃)))) (hdr.length + data.length)
      (bigEndian 4 (withEFlag index).toNat)
      = hdr ++ out ++ bigEndian 4 (withEFlag index).toNat ++ (r₂ ++ r₃) := by
    refine writeAt_eq (hdr ++ out) r₁ _ (r₂ ++ r₃) ?_ htotal.symm ?_
    · simp only [List.append_assoc]
    · rw [length_bigEndian, hr₁]
  have hpos : hdr.length + data.length + 4
      = (hdr ++ out ++ bigEndian 4 (withEFlag index).toNat).length := by
    rw [List.length_append, htotal, length_bigEndian]
  have hold : slice (hdr ++ out ++ bigEndian 4 (withEFlag index).toNat ++ (r₂ ++ r₃))
      (hdr.length + data.length + 4) ctx.getTagLength = r₂ := by
    rw [← List.append_assoc _ r₂ r₃]
    exact slice_append_mid _ r₂ r₃ hpos hr₂.symm
  have hrest : (r₁ ++ (r₂ ++ r₃)).drop (4 + ctx.getTagLength) = r₃ := by
    rw [← List.append_assoc, ← hr₁, ← hr₂, ← List.length_append, List.drop_left]
  rw [protect, hdrop, htake, hssrc, show hdr.length + data.length - 8 = data.length by omega, henc,
    Option.bind_some]
  simp only
  rw [hindex, hold, hauth, Option.map_some, hrest]
  rw [writeAt_eq _ r₂ _ r₃ (List.append_assoc _ r₂ r₃).symm hpos
    (by rw [SessionKeys.length_macTag hkeyed, hr₂]; rfl)]

/-- **`unprotect`** on such a packet: if the replay check passes, the rear part is
transformed with the receiver's initial vector. -/
theorem unprotect_eq (hkeyed : ctx.keys.Keyed) {index : BitVec 32} (hindex : index.toNat < 2 ^ 31)
    (hcheck : ctx.checkReplay T index = true) {hdr enc tag out : Octets} {blocks : List Block}
    (hhdr : hdr.length = 8) (hlt : enc.length < 2 ^ 31 - 32)
    (htag : tag = ctx.keys.macTag P (hdr ++ enc ++ bigEndian 4 (withEFlag index).toNat))
    (hout : ctx.keys.transform P (cmIv ctx.kS (senderSSRC hdr) (index.setWidth 64))
      (f8Iv (enc ++ bigEndian 4 (withEFlag index).toNat ++ tag) (index.setWidth 64)) enc
        = some (out, blocks))
    (hlen : out.length = enc.length) :
    unprotect T P (hdr ++ enc ++ bigEndian 4 (withEFlag index).toNat ++ tag)
        (hdr ++ enc ++ bigEndian 4 (withEFlag index).toNat ++ tag).length ctx =
      some (((hdr.length + enc.length : ℕ) : ℤ),
        hdr ++ out ++ bigEndian 4 (withEFlag index).toNat ++ tag, ctx.update T index) := by
  have htaglen : tag.length = ctx.getTagLength := by
    rw [htag]
    exact SessionKeys.length_macTag hkeyed _
  have htag20 : ctx.getTagLength ≤ 20 := ctx.tagLength_le
  obtain ⟨hoff, hon⟩ := withEFlag_spec hindex
  set flagged := withEFlag index with hflagged
  set pkt := hdr ++ enc ++ bigEndian 4 flagged.toNat ++ tag with hpkt
  have hbody : (hdr ++ enc).length = 8 + enc.length := by rw [List.length_append, hhdr]
  have hpktlen : pkt.length = 8 + enc.length + 4 + ctx.getTagLength := by
    rw [hpkt, List.length_append, List.length_append, hbody, length_bigEndian, htaglen]
  have hpayload : BitVec.ofNat 32 pkt.length
      - BitVec.ofNat 32 (ctx.getTagLength + ctx.getMkiLength + 4)
      = BitVec.ofNat 32 (8 + enc.length) := by
    rw [hpktlen, show 8 + enc.length + 4 + ctx.getTagLength
      = 8 + enc.length + (ctx.getTagLength + ctx.getMkiLength + 4) by
        rw [getMkiLength]; omega, BitVec.ofNat_add, BitVec.add_sub_cancel]
  have hnat : (BitVec.ofNat 32 (8 + enc.length)).toNat = 8 + enc.length := by
    rw [BitVec.toNat_ofNat]
    omega
  have hrear : (BitVec.ofNat 32 (8 + enc.length) - 8).toNat = enc.length := by
    rw [Nat.add_comm, BitVec.ofNat_add]
    show (BitVec.ofNat 32 enc.length + 8#32 - 8#32).toNat = _
    rw [BitVec.add_sub_cancel, BitVec.toNat_ofNat]
    omega
  have hint : (BitVec.ofNat 32 (8 + enc.length)).toInt = ((hdr.length + enc.length : ℕ) : ℤ) := by
    rw [BitVec.toInt_eq_toNat_of_lt (by omega), hnat, hhdr]
  have hread : BitVec.ofNat 32 (ofBigEndian (slice pkt (8 + enc.length) 4)) = flagged := by
    rw [hpkt, slice_append_mid (hdr ++ enc) _ tag hbody.symm (length_bigEndian 4 _).symm,
      ofBigEndian_bigEndian 4 _ flagged.isLt, BitVec.ofNat_toNat, BitVec.setWidth_eq]
  have hreceived : slice pkt (pkt.length - ctx.getTagLength) ctx.getTagLength = tag := by
    refine slice_append_right _ tag ?_ htaglen.symm
    rw [hpktlen, List.length_append, hbody, length_bigEndian]
    omega
  have hmac : ctx.srtcpAuthenticate P pkt (8 + enc.length) flagged
      (List.replicate ctx.getTagLength 0) = some tag := by
    rw [srtcpAuthenticate, hpkt, List.append_assoc (hdr ++ enc), slice_append_left _ _ hbody.symm,
      htag]
    exact SessionKeys.authenticate_eq hkeyed _ List.length_replicate
  have hsplit : pkt = hdr ++ (enc ++ (bigEndian 4 flagged.toNat ++ tag)) := by
    rw [hpkt]
    simp only [List.append_assoc]
  have hdrop : pkt.drop 8 = enc ++ (bigEndian 4 flagged.toNat ++ tag) := by
    rw [hsplit, ← hhdr, List.drop_left]
  have htake : pkt.take 8 = hdr := by rw [hsplit, ← hhdr, List.take_left]
  have hssrc : senderSSRC pkt = senderSSRC hdr := by
    rw [hpkt, List.append_assoc (hdr ++ enc)]
    exact senderSSRC_append hhdr _ _
  rw [List.append_assoc] at hout
  have hdec := srtcpEncrypt_eq hout hlen
  rw [unprotect, hpayload]
  simp only [hnat, hread, hoff, hcheck, hmac, hreceived, hssrc, hdrop, htake, hrear, hint]
  rw [if_neg (by decide), if_neg (not_not.mpr rfl), if_pos hon, hdec]
  simp only [Option.map_some, List.append_assoc]

end QueueRTCPManager

/-! ## Compound packets -/

/-- A compound packet in the send buffer: its octets, at least the first header word and
the SSRC of the sender, with a length that the callers keep in a `uint16`; and behind them
room for index and tag. -/
structure CompoundPacket where
  octets : Octets
  room : Octets
  eight_le : 8 ≤ octets.length
  length_lt : octets.length < 2 ^ 16
  room_le : 24 ≤ room.length

namespace CompoundPacket

/-- The octets that stay in the clear. -/
def header (p : CompoundPacket) : Octets := p.octets.take 8

/-- The octets that are transformed. -/
def body (p : CompoundPacket) : Octets := p.octets.drop 8

@[simp] theorem length_header (p : CompoundPacket) : p.header.length = 8 := by
  have h := p.eight_le
  rw [header, List.length_take]
  omega

@[simp] theorem length_body (p : CompoundPacket) : p.body.length = p.octets.length - 8 :=
  List.length_drop

theorem header_append_body (p : CompoundPacket) : p.header ++ p.body = p.octets :=
  List.take_append_drop 8 p.octets

/-- The datagram of the packet under an index, when `out` has taken the place of its
body. -/
def datagram (P : Primitives) (K : SessionKeys) (index : BitVec 32) (p : CompoundPacket)
    (out : Octets) : Octets :=
  p.header ++ out ++ bigEndian 4 (QueueRTCPManager.withEFlag index).toNat
    ++ K.macTag P (p.header ++ out ++ bigEndian 4 (QueueRTCPManager.withEFlag index).toNat)

/-- Behind the header of the datagram stands the new body. -/
theorem take_drop_datagram {P : Primitives} {K : SessionKeys} {index : BitVec 32}
    (p : CompoundPacket) {out : Octets} (h : 8 ≤ out.length) :
    ((p.datagram P K index out).drop 8).take 8 = out.take 8 := by
  rw [datagram, List.append_assoc (p.header ++ out), List.append_assoc p.header, ← p.length_header,
    List.drop_left, List.take_append_of_le_length (by rw [p.length_header]; exact h)]

/-- The sender's counter-mode initial vector for the packet. -/
def cmIv (K : SessionKeys) (index : BitVec 32) (p : CompoundPacket) : Block :=
  CryptoContextCtrl.cmIv K.kS (QueueRTCPManager.senderSSRC p.header) (index.setWidth 64)

end CompoundPacket

namespace QueueRTCPManager

variable {T : ShiftUnit} {P : Primitives} {ctx : CryptoContextCtrl} {index : BitVec 32}
  {p : CompoundPacket} {out back : Octets} {blocks : List Block}

/-- `protect` on a compound packet in its buffer: what it returns are the octets of the
datagram. -/
theorem protect_compound (hkeyed : ctx.keys.Keyed)
    (hout : ctx.keys.transform P (p.cmIv ctx.keys index)
      (f8Iv (p.body ++ p.room) (index.setWidth 64)) p.body = some (out, blocks))
    (hlen : out.length = p.body.length) :
    ∃ ret pkt, protect P index (p.octets ++ p.room) p.octets.length ctx
        = some (ret, pkt, (index + 1) &&& ~~~0x80000000) ∧
      pkt.take ret.toNat = p.datagram P ctx.keys index out := by
  have h8 := p.eight_le
  have htag : ctx.getTagLength ≤ 20 := ctx.tagLength_le
  have hroom := p.room_le
  have hprot := protect_eq hkeyed p.length_header (by omega) hout hlen
  rw [p.header_append_body, p.length_header, p.length_body,
    show 8 + (p.octets.length - 8) = p.octets.length by omega] at hprot
  refine ⟨_, _, hprot, ?_⟩
  rw [Int.toNat_natCast]
  refine List.take_left' ?_
  have htaglen := SessionKeys.length_macTag (P := P) hkeyed
    (p.header ++ out ++ bigEndian 4 (withEFlag index).toNat)
  rw [List.length_append, htaglen, List.length_append, List.length_append, p.length_header, hlen,
    p.length_body, length_bigEndian]
  show _ = p.octets.length + ctx.tagLength + 4
  have hkeytag : ctx.keys.tagLength = ctx.tagLength := rfl
  omega

/-- `unprotect` on the datagram of a compound packet. -/
theorem unprotect_compound (hkeyed : ctx.keys.Keyed) (hindex : index.toNat < 2 ^ 31)
    (hcheck : ctx.checkReplay T index = true) (hlen : out.length = p.body.length)
    (hback : ctx.keys.transform P (p.cmIv ctx.keys index)
      (f8Iv ((p.datagram P ctx.keys index out).drop 8) (index.setWidth 64)) out
        = some (back, blocks)) (hlen' : back.length = out.length) :
    ∃ pkt, unprotect T P (p.datagram P ctx.keys index out)
        (p.datagram P ctx.keys index out).length ctx
        = some ((p.octets.length : ℤ), pkt, ctx.update T index) ∧
      pkt.take p.octets.length = p.header ++ back := by
  have h8 := p.eight_le
  have hlt := p.length_lt
  have hrest : (p.datagram P ctx.keys index out).drop 8
      = out ++ bigEndian 4 (withEFlag index).toNat
        ++ ctx.keys.macTag P (p.header ++ out ++ bigEndian 4 (withEFlag index).toNat) := by
    rw [CompoundPacket.datagram, List.append_assoc (p.header ++ out), List.append_assoc p.header,
      ← p.length_header, List.drop_left, List.append_assoc out]
  rw [hrest] at hback
  have hun := unprotect_eq hkeyed hindex hcheck p.length_header
    (by rw [hlen, p.length_body]; omega) rfl hback hlen'
  have htotal : p.header.length + out.length = p.octets.length := by
    rw [p.length_header, hlen, p.length_body]
    omega
  rw [htotal] at hun
  refine ⟨_, hun, ?_⟩
  rw [List.append_assoc (p.header ++ back)]
  refine List.take_left' ?_
  rw [List.length_append, hlen', htotal]

end QueueRTCPManager

/-! ## Runs in counter mode -/

namespace QueueRTCPManager

variable (T : ShiftUnit) (P : Primitives)

/-- Protecting one compound packet after the other, from an `srtcpIndex` on: the
datagrams. -/
def protectAll (pcc : CryptoContextCtrl) : BitVec 32 → List CompoundPacket → Option (List Octets)
  | _, [] => some []
  | index, p :: l =>
      match protect P index (p.octets ++ p.room) p.octets.length pcc with
      | none => none
      | some (ret, pkt, index') => (protectAll pcc index' l).map (pkt.take ret.toNat :: ·)

/-- Receiving one datagram after the other: the return values of `unprotect`, and the
octets that are then taken for the compound packet. -/
def unprotectAll : CryptoContextCtrl → List Octets → Option (List (ℤ × Octets))
  | _, [] => some []
  | pcc, b :: l =>
      match unprotect T P b b.length pcc with
      | none => none
      | some (ret, pkt, pcc') => (unprotectAll pcc' l).map ((ret, pkt.take ret.toNat) :: ·)

variable {T P}

/-- The `srtcpIndex` of the `k`-th packet. -/
def indexOf (k : ℕ) : BitVec 32 := BitVec.ofNat 32 (k % 2 ^ 31)

theorem toNat_indexOf (k : ℕ) : (indexOf k).toNat = k % 2 ^ 31 := by
  rw [indexOf, BitVec.toNat_ofNat]
  omega

/-- The index goes up by one and starts again behind `2^31 - 1`. -/
theorem next_indexOf (k : ℕ) : (indexOf k + 1) &&& ~~~0x80000000 = indexOf (k + 1) := by
  have hmask : (~~~0x80000000 : BitVec 32).toNat = 2 ^ 31 - 1 := by decide
  have hone : (1 : BitVec 32).toNat = 1 := rfl
  apply BitVec.eq_of_toNat_eq
  rw [BitVec.toNat_and, hmask, Nat.and_two_pow_sub_one_eq_mod, BitVec.toNat_add, toNat_indexOf,
    toNat_indexOf, hone]
  omega

variable (T P)

/-- `unprotect` on the datagram `b` returns the length of the compound packet `p`, restores
its octets and notes the index. -/
def Restores (rctx : CryptoContextCtrl) (index : BitVec 32) (p : CompoundPacket) (b : Octets) :
    Prop :=
  ∃ pkt, unprotect T P b b.length rctx
      = some ((p.octets.length : ℤ), pkt, rctx.update T index) ∧
    pkt.take p.octets.length = p.octets

/-- Every receiver with the keys `K` whose replay check lets the index pass takes `b` for
the compound packet `p`. -/
def Opens (K : SessionKeys) (index : BitVec 32) (p : CompoundPacket) (b : Octets) : Prop :=
  ∀ rctx : CryptoContextCtrl, rctx.keys = K → rctx.checkReplay T index = true →
    Restores T P rctx index p b

variable {T P}

/-- **One packet in counter mode** is protected so that the receivers open it. -/
theorem protect_counterMode {sctx : CryptoContextCtrl} (hkeyed : sctx.keys.Keyed)
    (hmode : sctx.keys.CounterMode) {index : BitVec 32} (hindex : index.toNat < 2 ^ 31)
    (p : CompoundPacket) :
    ∃ ret pkt, protect P index (p.octets ++ p.room) p.octets.length sctx
        = some (ret, pkt, (index + 1) &&& ~~~0x80000000) ∧
      Opens T P sctx.keys index p (pkt.take ret.toNat) := by
  have hlt := p.length_lt
  have hshort : sctx.keys.CounterMode → p.body.length < 2 ^ 20 := by
    intro _
    rw [p.length_body]
    omega
  obtain ⟨out, blocks, hout, hlen, hback⟩ := SessionKeys.transform_transform (P := P) hkeyed
    (p.cmIv sctx.keys index) (f8Iv (p.body ++ p.room) (index.setWidth 64)) hshort
  obtain ⟨ret, pkt, hprot, hpkt⟩ := protect_compound hkeyed hout hlen
  refine ⟨ret, pkt, hprot, fun rctx hkeys hcheck => ?_⟩
  -- in counter mode the F8 vector does not matter
  rw [SessionKeys.transform_counterMode P hmode, ← SessionKeys.transform_counterMode P hmode _
    (f8Iv ((p.datagram P sctx.keys index out).drop 8) (index.setWidth 64))] at hback
  rw [← hkeys] at hkeyed hback hpkt
  obtain ⟨pkt', hun, hrest⟩ := unprotect_compound hkeyed hindex hcheck hlen hback hlen.symm
  rw [hpkt]
  exact ⟨pkt', hun, hrest.trans p.header_append_body⟩

/-- **A whole list protected**: the datagrams carry successive indices. -/
theorem protectAll_eq {sctx : CryptoContextCtrl} (hkeyed : sctx.keys.Keyed)
    (hmode : sctx.keys.CounterMode) (l : List CompoundPacket) :
    ∃ sent, protectAll P sctx 0 l = some sent ∧ sent.length = l.length ∧
      ∀ k p, l[k]? = some p →
        ∃ b, sent[k]? = some b ∧ Opens T P sctx.keys (indexOf k) p b := by
  have hcons : ∀ (k : ℕ) (index : BitVec 32) (p : CompoundPacket) (l : List CompoundPacket),
      index = indexOf k → True →
      ∃ b index', protectAll P sctx index (p :: l) = (protectAll P sctx index' l).map (b :: ·) ∧
        Opens T P sctx.keys (indexOf k) p b ∧ index' = indexOf (k + 1) := by
    rintro k index p l rfl -
    have hindex : (indexOf k).toNat < 2 ^ 31 := by
      rw [toNat_indexOf]
      omega
    obtain ⟨ret, pkt, hprot, hopens⟩ := protect_counterMode (T := T) (P := P) hkeyed hmode
      hindex p
    refine ⟨pkt.take ret.toNat, _, ?_, hopens, next_indexOf k⟩
    rw [protectAll, hprot]
  obtain ⟨sent, hsent, hlen, hall⟩ := exists_outputs (protectAll P sctx) (fun _ => rfl)
    hcons l (fun _ _ => trivial) (show (0 : BitVec 32) = indexOf 0 from rfl)
  simp only [Nat.zero_add] at hall
  exact ⟨sent, hsent, hlen, hall⟩

/-- After a packet the replay check lets every other index pass. -/
theorem checkReplay_update {rctx : CryptoContextCtrl} (hpol : rctx.nullPolicy = false)
    {index index' : BitVec 32} (hne : index' ≠ index) :
    (rctx.update T index).checkReplay T index' = true :=
  (checkReplay_eq_true_iff (by rw [update_nullPolicy]; exact hpol) index').mpr (Or.inl hne)

/-- **A delivery.**  For positions `ks` in order and less than `2^31` apart, every datagram
is opened, if the replay check lets the first one pass. -/
theorem unprotectAll_opens {K : SessionKeys} (hmode : K.CounterMode) {l : List CompoundPacket}
    {sent : List Octets}
    (hsent : ∀ k p, l[k]? = some p → ∃ b, sent[k]? = some b ∧ Opens T P K (indexOf k) p b)
    (ks : List ℕ) (hks : ∀ k ∈ ks, k < l.length)
    (hchain : ks.IsChain (fun a b => a < b ∧ b < a + 2 ^ 31)) {rctx : CryptoContextCtrl}
    (hkeys : rctx.keys = K)
    (hfirst : ∀ k ∈ ks.head?, rctx.checkReplay T (indexOf k) = true) :
    unprotectAll T P rctx (ks.map (fun k => sent.getD k []))
      = some (ks.map (fun k => ((((l.map CompoundPacket.octets).getD k []).length : ℤ),
          (l.map CompoundPacket.octets).getD k []))) := by
  refine run_map_eq (unprotectAll T P)
    (fun ctx k => ctx.keys = K ∧ ctx.checkReplay T (indexOf k) = true)
    (fun _ => rfl) ?_ ks hks hchain (fun k hk => ⟨hkeys, hfirst k hk⟩)
  rintro ctx k rest ⟨hkeys, hcheck⟩ hk
  have hget : l[k]? = some l[k] := List.getElem?_eq_getElem hk
  have hoctets : (l.map CompoundPacket.octets).getD k [] = l[k].octets := by
    rw [List.getD_eq_getElem?_getD, List.getElem?_map, hget]
    rfl
  obtain ⟨b, hb, hopens⟩ := hsent k l[k] hget
  have hbget : sent.getD k [] = b := by
    rw [List.getD_eq_getElem?_getD, hb]
    rfl
  obtain ⟨pkt, hun, hpkt⟩ := hopens ctx hkeys hcheck
  refine ⟨ctx.update T (indexOf k), ?_, ?_⟩
  · rw [unprotectAll, hbget, hun, hoctets]
    simp only
    rw [Int.toNat_natCast, hpkt]
  · -- fewer than `2^31` packets further on the index is another one
    rintro j ⟨hgt, hnear⟩ -
    refine ⟨hkeys, checkReplay_update ?_ (fun heq => ?_)⟩
    · rw [nullPolicy, decide_eq_false_iff_not]
      rw [← hkeys] at hmode
      exact fun hnull => hmode.ealg_ne_null hnull.2
    · have hmod := congrArg BitVec.toNat heq
      rw [toNat_indexOf, toNat_indexOf] at hmod
      omega

end QueueRTCPManager

/-- **SRTCP round trip in counter mode.**  Sender and receiver share their session keys in
a counter mode.  The sender protects a list of compound packets, the indices starting at 0
and wrapping at `2^31`; the receiver, which has accepted nothing yet and may hold anything
in `s_l`, is handed some of the datagrams, in order and less than `2^31` apart.  Then
`unprotect` returns the original length and restores the original octets of each one. -/
theorem srtcp_cm_round_trip (T : ShiftUnit) (P : Primitives) {sctx rctx : CryptoContextCtrl}
    (hmode : sctx.keys.CounterMode) (hkeyed : sctx.keys.Keyed) (hkeys : sctx.keys = rctx.keys)
    (hwin : rctx.replayWindow = 0) (l : List CompoundPacket) (ks : List ℕ)
    (hks : ∀ k ∈ ks, k < l.length) (hchain : ks.IsChain (fun a b => a < b ∧ b < a + 2 ^ 31)) :
    ∃ sent, QueueRTCPManager.protectAll P sctx 0 l = some sent ∧ sent.length = l.length ∧
      QueueRTCPManager.unprotectAll T P rctx (ks.map (fun k => sent.getD k []))
        = some (ks.map (fun k => ((((l.map CompoundPacket.octets).getD k []).length : ℤ),
            (l.map CompoundPacket.octets).getD k []))) := by
  obtain ⟨sent, hsent, hlen, hall⟩ := QueueRTCPManager.protectAll_eq (T := T) (P := P) hkeyed
    hmode l
  refine ⟨sent, hsent, hlen, ?_⟩
  refine QueueRTCPManager.unprotectAll_opens hmode hall ks hks hchain hkeys.symm ?_
  intro k _
  by_cases hpol : rctx.nullPolicy = true
  · rw [checkReplay, if_pos hpol]
  · rw [checkReplay_eq_true_iff (Bool.eq_false_iff.mpr hpol), hwin]
    exact Or.inr (by decide)

/-- The session keys of the concrete runs. -/
def CryptoContextCtrl.keyed (ctx : CryptoContextCtrl) : CryptoContextCtrl :=
  { ctx with
    cipher := ctx.cipher.map (fun c => { c with key := some (List.replicate 16 7) })
    f8Cipher := ctx.f8Cipher.map (fun c => { c with key := some (List.replicate 16 9) })
    macCtx := some (.sha1Hmac [1, 2, 3]) }

/-- A compound packet for concrete runs: an RR without blocks of the SSRC `0x1122`, and
behind it as many zeros as given. -/
def CompoundPacket.sample (n : ℕ) (h : n < 1000) : CompoundPacket where
  octets := [0x80, 201, 0, 1, 0, 0, 0x11, 0x22] ++ List.replicate n 0
  room := List.replicate 24 0
  eight_le := by simp
  length_lt := by simp; omega
  room_le := by simp

/-- Three compound packets of different lengths. -/
def CompoundPacket.samples : List CompoundPacket :=
  [.sample 0 (by decide), .sample 20 (by decide), .sample 4 (by decide)]

/-- The theorem at a run with a loss, `s_l` holding the index of the first packet. -/
theorem srtcp_cm_round_trip_loss :
    ∃ sent, QueueRTCPManager.protectAll .additive (CryptoContextCtrl.aesCmSha1 0x1122 0).keyed 0
        CompoundPacket.samples = some sent ∧ sent.length = 3 ∧
      QueueRTCPManager.unprotectAll .x86 .additive (CryptoContextCtrl.aesCmSha1 0x1122 0).keyed
          ([0, 2].map (fun k => sent.getD k []))
        = some ([0, 2].map (fun k =>
            ((((CompoundPacket.samples.map CompoundPacket.octets).getD k []).length : ℤ),
              (CompoundPacket.samples.map CompoundPacket.octets).getD k []))) :=
  srtcp_cm_round_trip .x86 .additive (Or.inl rfl) (by decide) rfl rfl CompoundPacket.samples
    [0, 2] (by decide) (by decide)

/-! ## F8 mode -/

namespace CompoundPacket

variable (P : Primitives) (K : SessionKeys) (index : BitVec 32) (p : CompoundPacket)

/-- The key stream for the body of the packet, when the initial vector is made from the
octets `head`. -/
def f8Mask (head : Octets) : Octets :=
  K.f8KeyStream P (f8Iv head (index.setWidth 64)) p.body.length

/-- The eight octets of the body that the sender puts into the initial vector. -/
def plainHead : Octets := p.body.take 8

/-- The octets that they have become when the receiver puts them into its initial
vector. -/
def sentHead : Octets := xorOctets p.plainHead ((p.f8Mask P K index p.plainHead).take 8)

/-- The two key streams agree. -/
def F8Agree : Prop := p.f8Mask P K index p.plainHead = p.f8Mask P K index (p.sentHead P K index)

instance : Decidable (p.F8Agree P K index) := inferInstanceAs (Decidable (_ = _))

end CompoundPacket

namespace QueueRTCPManager

/-- Only the first eight octets count for the F8 initial vector. -/
theorem f8Iv_take (rtp : Octets) (index : BitVec 64) :
    f8Iv (rtp.take 8) index = f8Iv rtp index := by
  rw [f8Iv, f8Iv, slice, slice, List.drop_zero, List.drop_zero, List.take_take, Nat.min_self]

/-- The F8 initial vector determines eight octets. -/
theorem f8Iv_inj {head head' : Octets} (h : head.length = 8) (h' : head'.length = 8)
    {index : BitVec 64} (heq : f8Iv head index = f8Iv head' index) : head = head' := by
  have hslice : ∀ l : Octets, l.length = 8 → slice l 0 8 = l := by
    intro l hl
    rw [slice, List.drop_zero, List.take_of_length_le (by omega)]
  have hlist := congrArg Block.toOctets heq
  rw [f8Iv, f8Iv, hslice head h, hslice head' h', Block.toOctets_ofOctets (by simp [h]),
    Block.toOctets_ofOctets (by simp [h'])] at hlist
  exact List.append_cancel_left hlist

variable {T : ShiftUnit} {P : Primitives} {sctx rctx : CryptoContextCtrl}

/-- **One packet in F8 mode**: it is opened exactly if the key streams of sender and
receiver agree. -/
theorem protect_f8Mode (hkeyed : sctx.keys.Keyed) (hmode : sctx.keys.F8Mode)
    (hkeys : sctx.keys = rctx.keys) {index : BitVec 32} (hindex : index.toNat < 2 ^ 31)
    (hcheck : rctx.checkReplay T index = true) (p : CompoundPacket) (h16 : 16 ≤ p.octets.length) :
    ∃ ret pkt, protect P index (p.octets ++ p.room) p.octets.length sctx
        = some (ret, pkt, (index + 1) &&& ~~~0x80000000) ∧
      (Restores T P rctx index p (pkt.take ret.toNat) ↔ p.F8Agree P sctx.keys index) := by
  have h8 : 8 ≤ p.body.length := by
    rw [p.length_body]
    omega
  -- the sender's initial vector, key stream and output
  have hiv : f8Iv (p.body ++ p.room) (index.setWidth 64)
      = f8Iv p.plainHead (index.setWidth 64) := by
    rw [← f8Iv_take, List.take_append_of_le_length h8]
    rfl
  set mask := p.f8Mask P sctx.keys index p.plainHead with hmask
  set out := xorOctets p.body mask with hout
  have hmasklen : mask.length = p.body.length := SessionKeys.length_f8KeyStream hkeyed hmode _ _
  have hlen : out.length = p.body.length := by
    rw [hout, length_xorOctets, hmasklen, Nat.min_self]
  have henc : sctx.keys.transform P (p.cmIv sctx.keys index)
      (f8Iv (p.body ++ p.room) (index.setWidth 64)) p.body = some (out, []) := by
    rw [SessionKeys.transform_f8KeyStream hkeyed hmode, hiv, hout, hmask]
    rfl
  obtain ⟨ret, pkt, hprot, hpkt⟩ := protect_compound hkeyed henc hlen
  refine ⟨ret, pkt, hprot, ?_⟩
  -- the receiver's
  have hiv' : f8Iv ((p.datagram P sctx.keys index out).drop 8) (index.setWidth 64)
      = f8Iv (p.sentHead P sctx.keys index) (index.setWidth 64) := by
    rw [← f8Iv_take, p.take_drop_datagram (hlen ▸ h8), hout, take_xorOctets]
    rfl
  set mask' := p.f8Mask P sctx.keys index (p.sentHead P sctx.keys index) with hmask'
  have hmasklen' : mask'.length = p.body.length := SessionKeys.length_f8KeyStream hkeyed hmode _ _
  have hdec : sctx.keys.transform P (p.cmIv sctx.keys index)
      (f8Iv ((p.datagram P sctx.keys index out).drop 8) (index.setWidth 64)) out
        = some (xorOctets out mask', []) := by
    rw [SessionKeys.transform_f8KeyStream hkeyed hmode, hiv', hlen, hmask']
    rfl
  have hlen' : (xorOctets out mask').length = out.length := by
    rw [length_xorOctets, hmasklen', hlen, Nat.min_self]
  rw [hkeys] at hkeyed hdec
  obtain ⟨pkt', hun, hpkt'⟩ := unprotect_compound hkeyed hindex hcheck hlen hdec hlen'
  rw [← hkeys, ← hpkt] at hun
  have hrest : Restores T P rctx index p (pkt.take ret.toNat) ↔ xorOctets out mask' = p.body := by
    constructor
    · rintro ⟨pkt₂, hun₂, hpkt₂⟩
      rw [hun] at hun₂
      obtain rfl : pkt' = pkt₂ := congrArg Prod.fst (congrArg Prod.snd (Option.some_inj.mp hun₂))
      rw [hpkt', ← p.header_append_body] at hpkt₂
      exact List.append_cancel_left hpkt₂
    · intro heq
      rw [heq, p.header_append_body] at hpkt'
      exact ⟨pkt', hun, hpkt'⟩
  -- the sender's key stream restores the body, so the receiver's must be the same one
  have hself : xorOctets out mask = p.body := xorOctets_xorOctets _ _ hmasklen.ge
  rw [hrest, ← hself, xorOctets_right_inj out mask' mask (by omega) (by omega), hlen,
    List.take_of_length_le hmasklen'.le, List.take_of_length_le hmasklen.le]
  exact eq_comm

/-- **For permutations the key streams agree only if the first eight octets go out
unchanged**: otherwise the two initial vectors differ. -/
theorem f8Agree_iff (hP : P.Permutes) {K : SessionKeys} (hK : K.F8Keyed) (hkeyed : K.Keyed)
    (hmode : K.F8Mode) (index : BitVec 32) (p : CompoundPacket) (h24 : 24 ≤ p.octets.length) :
    p.F8Agree P K index ↔ (p.f8Mask P K index p.plainHead).take 8 = List.replicate 8 0 := by
  have hbody := p.length_body
  have hhead : p.plainHead.length = 8 := by
    rw [CompoundPacket.plainHead, List.length_take]
    omega
  have hmask : 8 ≤ (p.f8Mask P K index p.plainHead).length := by
    rw [CompoundPacket.f8Mask, SessionKeys.length_f8KeyStream hkeyed hmode]
    omega
  have hmask8 : ((p.f8Mask P K index p.plainHead).take 8).length = 8 := by
    rw [List.length_take]
    omega
  have hsent : (p.sentHead P K index).length = 8 := by
    rw [CompoundPacket.sentHead, length_xorOctets, hhead, hmask8, Nat.min_self]
  have hzero : p.sentHead P K index = p.plainHead ↔
      (p.f8Mask P K index p.plainHead).take 8 = List.replicate 8 0 := by
    have hinj := xorOctets_right_inj p.plainHead ((p.f8Mask P K index p.plainHead).take 8)
      (List.replicate p.plainHead.length 0) (by omega) (by rw [List.length_replicate])
    rw [xorOctets_zeros_right, hhead, List.take_take, Nat.min_self] at hinj
    exact hinj
  rw [← hzero]
  constructor
  · intro hagree
    have hiv := SessionKeys.f8KeyStream_inj hP hK (by omega) hagree
    exact (f8Iv_inj hhead hsent hiv).symm
  · intro hsame
    rw [CompoundPacket.F8Agree, hsame]

end QueueRTCPManager

/-- An SRTCP context with AES in F8 mode and HMAC-SHA1; `s_l` starts with `sL`. -/
def CryptoContextCtrl.aesF8Sha1 (ssrc sL : BitVec 32) : CryptoContextCtrl :=
  CryptoContextCtrl.new ssrc sL .aesF8 .sha1Hmac (List.replicate 16 0) (List.replicate 14 0)
    16 20 14 10 demoTagLength_le

/-- A compound packet of 24 octets. -/
def CompoundPacket.sample24 : CompoundPacket := .sample 16 (by decide)
