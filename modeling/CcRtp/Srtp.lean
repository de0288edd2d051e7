/-
# SRTP protection of RTP packets

Models `CryptoContext::srtpEncrypt`, `CryptoContext::srtpAuthenticate`
(`src/CryptoContext.cpp`), `OutgoingRTPPkt::protect` and `IncomingRTPPkt::unprotect`
(`src/rtppkt.cpp`).

A call that does not return is `none`.  `protect` also reports the blocks handed to the
block cipher in counter mode.

The initial vectors are the two helper functions `cmIv` and `f8Iv`.  In counter mode the
vector is made from the index the caller passes; in F8 mode from the packet's own header
and the *stored* rollover counter.

Main results:

* `unprotect_setGuessedRoc`, `unprotect_rejected` : a packet rejected by a context that
  has seen a packet before leaves nothing behind that a later call would read;
* `rejected_packets_exact` : rejected packets leave the state alone exactly then, and can
  be dropped from any run.
-/
import CcRtp.RtpPacket

/-! ## The functions of the source -/

namespace CryptoContext

variable (P : Primitives)

/-- The counter-mode initial vector: the session salt, with the SSRC and the index XORed
into it, and two zero octets for the block counter. -/
def cmIv (kS : Octets) (ssrc : BitVec 32) (index : BitVec 64) : Block := fun i =>
  if i.val < 4 then kS.getD i 0
  else if i.val < 8 then UInt8.ofNat (ssrc >>> ((7 - i.val) * 8)).toNat ^^^ kS.getD i 0
  else if i.val < 14 then UInt8.ofNat (index >>> ((13 - i.val) * 8)).toNat ^^^ kS.getD i 0
  else 0

/-- The F8 initial vector: the first twelve octets of the packet, the first of them
cleared, and the rollover counter. -/
def f8Iv (rawPacket : Octets) (roc : BitVec 32) : Block :=
  Block.ofOctets ((slice rawPacket 0 12).set 0 0 ++ bigEndian 4 roc.toNat)

/-- What `srtpEncrypt` does to the payload octets of a packet. -/
def cipherPayload (ctx : CryptoContext) (rawPacket data : Octets) (index : BitVec 64)
    (ssrc : BitVec 32) : Option (Octets × List Block) :=
  ctx.keys.transform P (cmIv ctx.kS ssrc index) (f8Iv rawPacket ctx.roc) data

/-- `srtpEncrypt(rtp, index, ssrc)`: payload and padding are transformed in place. -/
def srtpEncrypt (ctx : CryptoContext) (rtp : RTPPacket) (index : BitVec 64) (ssrc : BitVec 32) :
    Option (RTPPacket × List Block) :=
  let pad : BitVec 32 := if rtp.isPadded then BitVec.ofNat 32 rtp.getPaddingSize.toNat else 0
  let data := slice rtp.buffer rtp.hdrSize.toNat (rtp.payloadSize + pad).toNat
  (ctx.cipherPayload P rtp.buffer data index ssrc).map (fun (out, blocks) =>
    (rtp.setbuffer out rtp.hdrSize.toNat, blocks))

/-- `srtpAuthenticate(rtp, roc, tag)`: the octets at `tag` afterwards, which were `old`
before. -/
def srtpAuthenticate (ctx : CryptoContext) (rtp : RTPPacket) (roc : BitVec 32) (old : Octets) :
    Option Octets :=
  ctx.keys.authenticate P (rtp.rawPacket ++ bigEndian 4 roc.toNat) old

/-- `setRoc` -/
def setRoc (ctx : CryptoContext) (roc : BitVec 32) : CryptoContext := { ctx with roc := roc }

end CryptoContext

open CryptoContext

/-- `OutgoingRTPPkt::protect(ssrc, pcc)` -/
def OutgoingRTPPkt.protect (P : Primitives) (p : OutgoingRTPPkt) (ssrc : BitVec 32)
    (ctx : CryptoContext) : Option (OutgoingRTPPkt × CryptoContext × List Block) :=
  let index := joinIndex ctx.roc p.cachedSeqNum
  (ctx.srtpEncrypt P p index ssrc).bind (fun (p, blocks) =>
    let old := slice p.buffer p.srtpDataOffset.toNat ctx.getTagLength
    (ctx.srtpAuthenticate P p ctx.roc old).map (fun tag =>
      let p := p.setbuffer tag p.srtpDataOffset.toNat
      -- the last packet of the period
      let ctx := if p.cachedSeqNum = 0xFFFF then ctx.setRoc (ctx.roc + 1) else ctx
      (p, ctx, blocks)))

namespace IncomingRTPPkt

variable (T : ShiftUnit) (P : Primitives)

/-- The packet with the SRTP trailer taken off its sizes. -/
def withoutTrailer (p : IncomingRTPPkt) (trailer : BitVec 32) : IncomingRTPPkt :=
  { p with total := p.total - trailer, payloadSize := p.payloadSize - trailer }

/-- The part of `unprotect` behind the replay check. -/
def unprotectFresh (p : IncomingRTPPkt) (tag : Octets) (ctx : CryptoContext) :
    Option (ℤ × IncomingRTPPkt × CryptoContext) :=
  let (guessedIndex, ctx) := ctx.guessIndex p.cachedSeqNum
  -- the tag covers the guessed rollover counter, not the stored one
  let guessedRoc := (guessedIndex >>> 16).setWidth 32
  match ctx.srtpAuthenticate P p.toRTPPacket guessedRoc (List.replicate ctx.getTagLength 0) with
  | none => none
  | some mac =>
      if tag ≠ mac then some (-1, p, ctx)
      else (ctx.srtpEncrypt P p.toRTPPacket guessedIndex p.cachedSSRC).map (fun (rtp, _) =>
        (1, { p with toRTPPacket := rtp }, ctx.update T p.cachedSeqNum))

/-- The octets behind `total` and `payloadSize` that belong to SRTP. -/
def srtpTrailer (ctx : CryptoContext) : BitVec 32 :=
  BitVec.ofNat 32 (ctx.getTagLength + ctx.getMkiLength)

/-- The authentication tag of a received packet. -/
def receivedTag (p : IncomingRTPPkt) (ctx : CryptoContext) : Octets :=
  slice p.buffer (p.total - srtpTrailer ctx + BitVec.ofNat 32 ctx.getMkiLength).toNat
    ctx.getTagLength

/-- `unprotect(pcc)` for a context that is there (without one it returns at once): `1`
if all went well, `-1` if authentication failed, `-2` if the replay check failed. -/
def unprotect (p : IncomingRTPPkt) (ctx : CryptoContext) :
    Option (ℤ × IncomingRTPPkt × CryptoContext) :=
  let tag := p.receivedTag ctx
  let p := p.withoutTrailer (srtpTrailer ctx)
  match ctx.checkReplay T p.cachedSeqNum with
  -- either way the check has initialised `s_l` on the first packet
  | (false, ctx) => some (-2, p, ctx)
  | (true, ctx) => unprotectFresh T P p tag ctx

/-- `unprotect` for one packet after the other: the return values and the packets as they
are left. -/
def unprotectAll : CryptoContext → List IncomingRTPPkt → Option (List (ℤ × IncomingRTPPkt))
  | _, [] => some []
  | ctx, p :: l =>
      match unprotect T P p ctx with
      | none => none
      | some (code, p', ctx') => (unprotectAll ctx' l).map ((code, p') :: ·)

/-! ## Rejected packets -/

variable {T P} {ctx ctx' : CryptoContext} {p p' : IncomingRTPPkt} {code : ℤ}

/-- A packet that passes the replay check. -/
theorem unprotect_of_check (hcheck : (ctx.checkReplay T p.cachedSeqNum).1 = true) :
    unprotect T P p ctx = unprotectFresh T P (p.withoutTrailer (srtpTrailer ctx))
      (p.receivedTag ctx) (ctx.checkReplay T p.cachedSeqNum).2 := by
  have hseq : (p.withoutTrailer (srtpTrailer ctx)).cachedSeqNum = p.cachedSeqNum := rfl
  rw [unprotect]
  simp only [hseq]
  rcases hc : ctx.checkReplay T p.cachedSeqNum with ⟨ok, ctx₀⟩
  rw [hc] at hcheck
  cases hcheck
  rfl

/-- A packet that passes the authentication too. -/
theorem unprotectFresh_of_mac {tag : Octets} {index : BitVec 64} {ctx₁ : CryptoContext}
    {rtp : RTPPacket} {blocks : List Block}
    (hguess : ctx.guessIndex p.cachedSeqNum = (index, ctx₁))
    (hmac : ctx₁.srtpAuthenticate P p.toRTPPacket ((index >>> 16).setWidth 32)
      (List.replicate ctx₁.getTagLength 0) = some tag)
    (henc : ctx₁.srtpEncrypt P p.toRTPPacket index p.cachedSSRC = some (rtp, blocks)) :
    unprotectFresh T P p tag ctx
      = some (1, { p with toRTPPacket := rtp }, ctx₁.update T p.cachedSeqNum) := by
  rw [unprotectFresh, hguess]
  simp only [hmac]
  rw [if_neg (not_not.mpr rfl), henc]
  rfl

/-- **The outcomes of the part behind the replay check.** -/
theorem unprotectFresh_cases {tag : Octets}
    (h : unprotectFresh T P p tag ctx = some (code, p', ctx')) :
    ∃ mac, (ctx.guessIndex p.cachedSeqNum).2.srtpAuthenticate P p.toRTPPacket
        (((ctx.guessIndex p.cachedSeqNum).1 >>> 16).setWidth 32)
        (List.replicate (ctx.guessIndex p.cachedSeqNum).2.getTagLength 0) = some mac ∧
      ((tag ≠ mac ∧ code = -1 ∧ ctx' = (ctx.guessIndex p.cachedSeqNum).2) ∨
        (tag = mac ∧ code = 1 ∧
          ctx' = (ctx.guessIndex p.cachedSeqNum).2.update T p.cachedSeqNum)) := by
  unfold unprotectFresh at h
  simp only at h
  split at h
  · cases h
  · next mac hmac =>
      refine ⟨mac, hmac, ?_⟩
      by_cases htag : tag = mac
      · rw [if_neg (not_not.mpr htag), Option.map_eq_some_iff] at h
        obtain ⟨⟨rtp, blocks⟩, -, heq⟩ := h
        cases heq
        exact Or.inr ⟨htag, rfl, rfl⟩
      · rw [if_pos htag] at h
        cases h
        exact Or.inl ⟨htag, rfl, rfl⟩

/-- **The outcomes of `unprotect`**: the replay check fails, or what comes behind it. -/
theorem unprotect_cases (h : unprotect T P p ctx = some (code, p', ctx')) :
    ((ctx.checkReplay T p.cachedSeqNum).1 = false ∧ code = -2 ∧
        ctx' = (ctx.checkReplay T p.cachedSeqNum).2) ∨
      ((ctx.checkReplay T p.cachedSeqNum).1 = true ∧
        unprotectFresh T P (p.withoutTrailer (srtpTrailer ctx)) (p.receivedTag ctx)
          (ctx.checkReplay T p.cachedSeqNum).2 = some (code, p', ctx')) := by
  unfold unprotect at h
  simp only at h
  have hseq : (p.withoutTrailer (srtpTrailer ctx)).cachedSeqNum = p.cachedSeqNum := rfl
  rw [hseq] at h
  rcases hcheck : ctx.checkReplay T p.cachedSeqNum with ⟨ok, ctx₁⟩
  rw [hcheck] at h
  cases ok with
  | false =>
      cases h
      exact Or.inl ⟨rfl, rfl, rfl⟩
  | true => exact Or.inr ⟨rfl, h⟩

/-- The answer does not depend on `guessed_roc`, and neither does the context left
behind. -/
theorem unprotect_setGuessedRoc (p : IncomingRTPPkt) (ctx : CryptoContext) (g : BitVec 32) :
    unprotect T P p (ctx.setGuessedRoc g) = unprotect T P p ctx := by
  have hfresh : ∀ q tag, unprotectFresh T P q tag (ctx.setGuessedRoc g)
      = unprotectFresh T P q tag ctx := by
    intro q tag
    rw [unprotectFresh, unprotectFresh, guessIndex_setGuessedRoc]
  by_cases hpol : ctx.nullPolicy = true
  · have hpol' : (ctx.setGuessedRoc g).nullPolicy = true := hpol
    rw [unprotect, unprotect, checkReplay, checkReplay, if_pos hpol, if_pos hpol']
    exact hfresh _ _
  · rw [unprotect, unprotect, checkReplay_setGuessedRoc T ctx g _ (Bool.eq_false_iff.mpr hpol)]
    rfl

/-- The same for whole runs. -/
theorem unprotectAll_setGuessedRoc (l : List IncomingRTPPkt) (ctx : CryptoContext)
    (g : BitVec 32) : unprotectAll T P (ctx.setGuessedRoc g) l = unprotectAll T P ctx l := by
  cases l with
  | nil => rfl
  | cons p l => rw [unprotectAll, unprotectAll, unprotect_setGuessedRoc]

/-- After any packet the sequence number is set. -/
theorem unprotect_seqNumSet (h : unprotect T P p ctx = some (code, p', ctx')) :
    ctx'.seqNumSet = true := by
  rcases unprotect_cases h with ⟨hno, -, rfl⟩ | ⟨-, hfresh⟩
  · by_cases hpol : ctx.nullPolicy = true
    · rw [checkReplay, if_pos hpol] at hno
      cases hno
    · exact checkReplay_seqNumSet T ctx _ (Bool.eq_false_iff.mpr hpol)
  · obtain ⟨mac, -, ⟨-, -, rfl⟩ | ⟨-, -, rfl⟩⟩ := unprotectFresh_cases hfresh
    · exact guessIndex_seqNumSet _ _
    · exact update_seqNumSet T _ _

/-- **A rejected packet** leaves at most a different `guessed_roc` behind, once a packet
has been seen. -/
theorem unprotect_rejected (hset : ctx.seqNumSet = true) (hcode : code ≠ 1)
    (h : unprotect T P p ctx = some (code, p', ctx')) : ∃ g, ctx' = ctx.setGuessedRoc g := by
  obtain ⟨g, hg⟩ := checkReplay_snd_of_set T hset p.cachedSeqNum
  rcases unprotect_cases h with ⟨-, -, rfl⟩ | ⟨-, hfresh⟩
  · exact ⟨g, hg⟩
  · rw [hg] at hfresh
    obtain ⟨mac, -, ⟨-, -, hctx⟩ | ⟨-, hone, -⟩⟩ := unprotectFresh_cases hfresh
    · rw [guessIndex_setGuessedRoc, guessIndex_of_set hset] at hctx
      exact ⟨_, hctx⟩
    · exact absurd hone hcode

/-- **Rejected packets can be dropped from a run**, if none of them comes first: the
packets marked in `l` were all rejected, and the others get the same answers without
them. -/
theorem unprotectAll_drop_rejected (l : List (IncomingRTPPkt × Bool)) :
    ∀ (ctx : CryptoContext) (rs : List (ℤ × IncomingRTPPkt)),
      (ctx.seqNumSet = true ∨ ∀ a ∈ l.head?, a.2 = false) →
      unprotectAll T P ctx (l.map Prod.fst) = some rs →
      (∀ x ∈ l.zip rs, x.1.2 = true → x.2.1 ≠ 1) →
      unprotectAll T P ctx ((l.filter (fun a => !a.2)).map Prod.fst)
        = some (((l.zip rs).filter (fun x => !x.1.2)).map Prod.snd) := by
  induction l with
  | nil =>
      intro ctx rs _ _ _
      rfl
  | cons a l ih =>
      intro ctx rs hfirst hrun hrej
      obtain ⟨p, forged⟩ := a
      rw [List.map_cons, unprotectAll] at hrun
      split at hrun
      · cases hrun
      · next code p' ctx' hstep =>
          obtain ⟨rs', hrest, rfl⟩ := Option.map_eq_some_iff.mp hrun
          have hset' := unprotect_seqNumSet hstep
          have hrej' : ∀ x ∈ l.zip rs', x.1.2 = true → x.2.1 ≠ 1 := by
            intro x hx
            exact hrej x (by rw [List.zip_cons_cons]; exact List.mem_cons_of_mem _ hx)
          have hind := ih ctx' rs' (Or.inl hset') hrest hrej'
          cases forged with
          | false =>
              simp only [List.filter_cons, List.zip_cons_cons, Bool.not_false, if_true,
                List.map_cons]
              rw [unprotectAll, hstep]
              simp only
              rw [hind]
              rfl
          | true =>
              -- the context differs from `ctx` in `guessed_roc` alone
              have hset : ctx.seqNumSet = true := by
                rcases hfirst with hset | hfirst
                · exact hset
                · cases hfirst (p, true) rfl
              have hcode := hrej ((p, true), (code, p')) (by simp) rfl
              obtain ⟨g, rfl⟩ := unprotect_rejected hset hcode hstep
              rw [unprotectAll_setGuessedRoc] at hind
              simp only [List.filter_cons, List.zip_cons_cons, Bool.not_true]
              exact hind

end IncomingRTPPkt

/-- **Rejected packets leave no trace exactly after the first packet.**  If `unprotect`
returns `-1` or `-2`, the sequence number state, the rollover counter and the replay
window are what they were before if and only if the context had seen a packet; and from
every run whose first packet is not one of them, rejected packets can be dropped without
any other packet getting a different answer. -/
theorem rejected_packets_exact (T : ShiftUnit) (P : Primitives) :
    (∀ (ctx ctx' : CryptoContext) (p p' : IncomingRTPPkt) (code : ℤ),
      p.unprotect T P ctx = some (code, p', ctx') → code = -1 ∨ code = -2 →
        ((ctx'.seqNumSet = ctx.seqNumSet ∧ ctx'.sL = ctx.sL ∧ ctx'.roc = ctx.roc ∧
          ctx'.replayWindow = ctx.replayWindow) ↔ ctx.seqNumSet = true)) ∧
      ∀ (ctx : CryptoContext) (l : List (IncomingRTPPkt × Bool)) (rs : List (ℤ × IncomingRTPPkt)),
        (ctx.seqNumSet = true ∨ ∀ a ∈ l.head?, a.2 = false) →
        IncomingRTPPkt.unprotectAll T P ctx (l.map Prod.fst) = some rs →
        (∀ x ∈ l.zip rs, x.1.2 = true → x.2.1 ≠ 1) →
        IncomingRTPPkt.unprotectAll T P ctx ((l.filter (fun a => !a.2)).map Prod.fst)
          = some (((l.zip rs).filter (fun x => !x.1.2)).map Prod.snd) := by
  constructor
  · intro ctx ctx' p p' code h hcode
    constructor
    · intro hsame
      rw [← hsame.1]
      exact IncomingRTPPkt.unprotect_seqNumSet h
    · intro hset
      have hne : code ≠ 1 := by
        rcases hcode with rfl | rfl <;> decide
      obtain ⟨g, rfl⟩ := IncomingRTPPkt.unprotect_rejected hset hne h
      exact ⟨rfl, rfl, rfl, rfl⟩
  · intro ctx l rs hfirst hrun hforged
    exact IncomingRTPPkt.unprotectAll_drop_rejected l ctx rs hfirst hrun hforged

/-! ## A forged first packet -/

/-- The session keys of the concrete runs: a block cipher key and a MAC key. -/
def CryptoContext.keyed (ctx : CryptoContext) : CryptoContext :=
  { ctx with
    cipher := ctx.cipher.map (fun c => { c with key := some (List.replicate 16 7) })
    f8Cipher := ctx.f8Cipher.map (fun c => { c with key := some (List.replicate 16 9) })
    macCtx := some (.sha1Hmac [1, 2, 3]) }

/-- A datagram with one octet of payload, the given sequence number and a tag of ten
zeros. -/
def forgedDatagram (seq : BitVec 16) : Octets :=
  [0x80, 0] ++ bigEndian 2 seq.toNat ++ bigEndian 4 0 ++ bigEndian 4 0x1122 ++ [42]
    ++ List.replicate 10 0

/-- The datagram the sender makes of the same payload, sequence number and SSRC. -/
def authenticDatagram (seq : BitVec 16) : Option Octets :=
  let ctx := (CryptoContext.aesCmSha1 0x1122 0).keyed
  let p := OutgoingRTPPkt.fillHeader (OutgoingRTPPkt.plain [42] 0 (some ctx)) 0 seq 0 0x1122 false
  (p.protect .additive 0x1122 ctx).map (fun r => r.1.rawPacketSrtp)

/-- The theorem at a forged packet that comes first, and at one between two authentic packets. -/
theorem rejected_packets_exact_forged :
    (∃ p' ctx', (IncomingRTPPkt.ofBlock (forgedDatagram 60000)).unprotect .x86 .additive
          (CryptoContext.aesCmSha1 0x1122 0).keyed = some (-1, p', ctx') ∧
        ((ctx'.seqNumSet = (CryptoContext.aesCmSha1 0x1122 0).keyed.seqNumSet ∧
            ctx'.sL = (CryptoContext.aesCmSha1 0x1122 0).keyed.sL ∧
            ctx'.roc = (CryptoContext.aesCmSha1 0x1122 0).keyed.roc ∧
            ctx'.replayWindow = (CryptoContext.aesCmSha1 0x1122 0).keyed.replayWindow) ↔
          (CryptoContext.aesCmSha1 0x1122 0).keyed.seqNumSet = true)) ∧
      ∃ b b' r r' forged, authenticDatagram 100 = some b ∧ authenticDatagram 101 = some b' ∧
        (IncomingRTPPkt.unprotectAll .x86 .additive (CryptoContext.aesCmSha1 0x1122 0).keyed
          [.ofBlock b, .ofBlock (forgedDatagram 60000), .ofBlock b'] = some [r, forged, r'] ∧
            forged.1 = -1) ∧
        IncomingRTPPkt.unprotectAll .x86 .additive (CryptoContext.aesCmSha1 0x1122 0).keyed
          [.ofBlock b, .ofBlock b'] = some [r, r'] := by
  obtain ⟨hone, hrun⟩ := rejected_packets_exact .x86 .additive
  constructor
  · have hcode : ((IncomingRTPPkt.ofBlock (forgedDatagram 60000)).unprotect .x86 .additive
        (CryptoContext.aesCmSha1 0x1122 0).keyed).map Prod.fst = some (-1) := by
      decide
    obtain ⟨⟨code, p', ctx'⟩, hunprotect, rfl⟩ := Option.map_eq_some_iff.mp hcode
    exact ⟨p', ctx', hunprotect, hone _ ctx' _ p' (-1) hunprotect (Or.inl rfl)⟩
  · have hcodes : (authenticDatagram 100).bind (fun b => (authenticDatagram 101).bind (fun b' =>
        (IncomingRTPPkt.unprotectAll .x86 .additive (CryptoContext.aesCmSha1 0x1122 0).keyed
          [.ofBlock b, .ofBlock (forgedDatagram 60000), .ofBlock b']).map (List.map Prod.fst)))
        = some [1, -1, 1] := by
      decide
    obtain ⟨b, hb, hcodes⟩ := Option.bind_eq_some_iff.mp hcodes
    obtain ⟨b', hb', hcodes⟩ := Option.bind_eq_some_iff.mp hcodes
    obtain ⟨rs, hrs, hcodes⟩ := Option.map_eq_some_iff.mp hcodes
    obtain ⟨r, rs, rfl, hr, hcodes⟩ := List.map_eq_cons_iff.mp hcodes
    obtain ⟨forged, rs, rfl, hforged, hcodes⟩ := List.map_eq_cons_iff.mp hcodes
    obtain ⟨r', rs, rfl, hr', hcodes⟩ := List.map_eq_cons_iff.mp hcodes
    obtain rfl := List.map_eq_nil_iff.mp hcodes
    refine ⟨b, b', r, r', forged, hb, hb', ⟨hrs, hforged⟩, ?_⟩
    refine hrun _ [(.ofBlock b, false), (.ofBlock (forgedDatagram 60000), true),
      (.ofBlock b', false)]
      [r, forged, r'] (Or.inr ?_) hrs ?_
    · rintro a ⟨⟩
      rfl
    · intro x hx hmarked
      rcases List.mem_cons.mp hx with rfl | hx
      · cases hmarked
      · rcases List.mem_cons.mp hx with rfl | hx
        · rw [hforged]
          decide
        · rcases List.mem_cons.mp hx with rfl | hx
          · cases hmarked
          · cases hx

/-- **A forged first packet locks authentic packets out.**  On its own the authentic
packet 100 is accepted; after a forged packet 60000, which is rejected but fixes `s_l`,
it is taken for one of the next rollover period and fails authentication. -/
theorem forged_first_packet_locks_out :
    (CryptoContext.aesCmSha1 0x1122 0).keyed.seqNumSet = false ∧
      ((IncomingRTPPkt.ofBlock (forgedDatagram 60000)).unprotect .x86 .additive
        (CryptoContext.aesCmSha1 0x1122 0).keyed).map
          (fun r => (r.1, r.2.2.seqNumSet, r.2.2.sL)) = some (-1, true, 60000) ∧
      (authenticDatagram 100).bind (fun b => (IncomingRTPPkt.unprotectAll .x86 .additive
        (CryptoContext.aesCmSha1 0x1122 0).keyed [IncomingRTPPkt.ofBlock b]).map
          (List.map Prod.fst)) = some [1] ∧
      (authenticDatagram 100).bind (fun b => (IncomingRTPPkt.unprotectAll .x86 .additive
        (CryptoContext.aesCmSha1 0x1122 0).keyed
        [IncomingRTPPkt.ofBlock (forgedDatagram 60000), IncomingRTPPkt.ofBlock b]).map
          (List.map Prod.fst)) = some [-1, -1] := by
  decide
