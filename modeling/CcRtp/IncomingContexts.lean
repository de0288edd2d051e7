/-
# The crypto contexts of the incoming queue

Models the registry of crypto contexts of `IncomingDataQueue` and the part of
`takeInDataPacket` (`src/incqueue.cpp`) up to the call of `unprotect`.  A packet is
processed with the context of its SSRC.  If there is none, one is made from the template,
which is the context of SSRC 0 in the same registry.

Beside each context stands the mark whether `deriveSrtpKeys` has been run on it.  The mark
is history: no function looks at it.

* `nodup_ssrcs_takeInAll` : no two contexts of the registry ever share an SSRC;
* `incoming_contexts_exact` : along every run of datagrams, the packets are processed with
  derived contexts of their own SSRC exactly as long as none of them carries SSRC 0.
-/
import CcRtp.Srtp
import CcRtp.KeyDerivation
import CcRtp.OutgoingQueue

open CryptoContext

/-- The members of the queue that the processing of SRTP reads and writes. -/
structure IncomingDataQueue where
  maxRecvPacketSize : ℕ
  cryptoContexts : List (Tracked CryptoContext)

/-! ## The functions of the source -/

namespace IncomingDataQueue

variable (T : ShiftUnit) (P : Primitives)

/-- `getInQueueCryptoContext(ssrc)` -/
def getInQueueCryptoContext (q : IncomingDataQueue) (ssrc : BitVec 32) :
    Option (Tracked CryptoContext) :=
  q.cryptoContexts.find? (fun t => t.obj.ssrcCtx = ssrc)

/-- `setInQueueCryptoContext(cc)`: the first context of the same SSRC is taken out, the
new one appended. -/
def setInQueueCryptoContext (q : IncomingDataQueue) (cc : Tracked CryptoContext) :
    IncomingDataQueue :=
  { q with
    cryptoContexts :=
      q.cryptoContexts.eraseP (fun t => t.obj.ssrcCtx = cc.obj.ssrcCtx) ++ [cc] }

/-- The registry after a call on a context that was found in it. -/
def storeContext (q : IncomingDataQueue) (cc : Tracked CryptoContext) : IncomingDataQueue :=
  { q with
    cryptoContexts := q.cryptoContexts.set
      (q.cryptoContexts.findIdx (fun t => t.obj.ssrcCtx = cc.obj.ssrcCtx)) cc }

/-- The octets with the padding bit of the first one cleared: the padding length is
encrypted too, so it is looked at after decryption only. -/
def clearPaddingBit : Octets → Octets
  | [] => []
  | o :: rest => (o &&& ~~~0x20) :: rest

/-- The packet of a datagram, unless it is too large or its header is not valid. -/
def incomingPacket (q : IncomingDataQueue) (datagram : Octets) : Option IncomingRTPPkt :=
  if datagram.length > q.maxRecvPacketSize then none
  else
    let packet := IncomingRTPPkt.ofBlock (clearPaddingBit datagram)
    if packet.headerValid then some packet else none

/-- The context for an SSRC, which is made from the template of SSRC 0 if it is not there.
`none` if `deriveSrtpKeys` does not return. -/
def contextFor (q : IncomingDataQueue) (ssrc : BitVec 32) :
    Option (Option (Tracked CryptoContext) × IncomingDataQueue) :=
  match q.getInQueueCryptoContext ssrc with
  | some t => some (some t, q)
  | none =>
      match q.getInQueueCryptoContext 0 with
      | none => some (none, q)
      | some template =>
          -- with rollover counter, key derivation rate and index 0
          ((template.obj.newCryptoContextForSSRC ssrc 0 0).deriveSrtpKeys P 0).map (fun cc =>
            (some ⟨cc, true⟩, q.setInQueueCryptoContext ⟨cc, true⟩))

/-- The call of `unprotect` that `takeInDataPacket` makes for a datagram, if it makes
one: the packet and the context. -/
def unprotectCall (q : IncomingDataQueue) (datagram : Octets) :
    Option (IncomingRTPPkt × Tracked CryptoContext) :=
  (q.incomingPacket datagram).bind (fun packet =>
    (q.contextFor P packet.cachedSSRC).bind (fun r => r.1.map (fun t => (packet, t))))

/-- `takeInDataPacket` for a datagram: the queue as it leaves it, as far as the crypto
contexts go. -/
def takeInDataPacket (q : IncomingDataQueue) (datagram : Octets) : Option IncomingDataQueue :=
  match q.incomingPacket datagram with
  | none => some q
  | some packet =>
      (q.contextFor P packet.cachedSSRC).bind (fun (pcc, q) =>
        match pcc with
        | none => some q
        -- whatever `unprotect` answers, it has worked on the registered context
        | some t => (packet.unprotect T P t.obj).map (fun (_, _, cc) =>
            q.storeContext ⟨cc, t.spent⟩))

/-- One datagram in a run: a call that did not return is the end of it. -/
def takeInStep (s : Option IncomingDataQueue) (datagram : Octets) : Option IncomingDataQueue :=
  s.bind (fun q => q.takeInDataPacket T P datagram)

/-- One datagram after the other. -/
def takeInAll (q : IncomingDataQueue) (datagrams : List Octets) : Option IncomingDataQueue :=
  datagrams.foldl (takeInStep T P) (some q)

/-- The SSRCs of the registered contexts. -/
def ssrcs (q : IncomingDataQueue) : List (BitVec 32) :=
  q.cryptoContexts.map (fun t => t.obj.ssrcCtx)

end IncomingDataQueue

/-! ## The registry -/

/-- Entries that the test refuses may be exchanged for one another. -/
theorem find?_set_of_not {α : Type*} {p : α → Bool} {l : List α} {i : ℕ} {x y : α}
    (hx : l[i]? = some x) (hpx : p x = false) (hpy : p y = false) :
    (l.set i y).find? p = l.find? p := by
  induction l generalizing i with
  | nil => rfl
  | cons a l ih =>
      cases i with
      | zero =>
          rw [List.getElem?_cons_zero, Option.some_inj] at hx
          rw [List.set_cons_zero, List.find?_cons, List.find?_cons, hx, hpx, hpy]
      | succ i =>
          rw [List.getElem?_cons_succ] at hx
          rw [List.set_cons_succ, List.find?_cons, List.find?_cons, ih hx]

/-- An entry may be exchanged for one that looks the same. -/
theorem map_set_of_eq {α β : Type*} {f : α → β} {l : List α} {i : ℕ} {x y : α}
    (hx : l[i]? = some x) (hxy : f y = f x) : (l.set i y).map f = l.map f := by
  induction l generalizing i with
  | nil => rfl
  | cons a l ih =>
      cases i with
      | zero =>
          rw [List.getElem?_cons_zero, Option.some_inj] at hx
          rw [List.set_cons_zero, List.map_cons, List.map_cons, hxy, hx]
      | succ i =>
          rw [List.getElem?_cons_succ] at hx
          rw [List.set_cons_succ, List.map_cons, List.map_cons, ih hx]

/-- What is found stands at the first index where the test succeeds. -/
theorem getElem?_findIdx_of_find? {α : Type*} {p : α → Bool} {l : List α} {x : α}
    (h : l.find? p = some x) : l[l.findIdx p]? = some x := by
  induction l with
  | nil => cases h
  | cons a l ih =>
      rw [List.find?_cons] at h
      rw [List.findIdx_cons]
      cases ha : p a with
      | true =>
          rw [ha] at h
          exact h
      | false =>
          rw [ha] at h
          exact ih h

namespace IncomingDataQueue

variable {T : ShiftUnit} {P : Primitives} {q q' : IncomingDataQueue} {ssrc : BitVec 32}
  {t t' : Tracked CryptoContext}

/-- The context that is found belongs to the SSRC. -/
theorem ssrcCtx_of_getInQueueCryptoContext (h : q.getInQueueCryptoContext ssrc = some t) :
    t.obj.ssrcCtx = ssrc := by
  have hp := List.find?_some h
  exact of_decide_eq_true hp

/-- Where a context stands that is stored back. -/
theorem getElem?_of_getInQueueCryptoContext (h : q.getInQueueCryptoContext ssrc = some t)
    (hssrc : t'.obj.ssrcCtx = ssrc) :
    q.cryptoContexts[q.cryptoContexts.findIdx
      (fun t => t.obj.ssrcCtx = t'.obj.ssrcCtx)]? = some t := by
  subst hssrc
  exact getElem?_findIdx_of_find? h

/-- A context of a new SSRC is appended. -/
theorem cryptoContexts_setInQueueCryptoContext
    (h : q.getInQueueCryptoContext t.obj.ssrcCtx = none) :
    (q.setInQueueCryptoContext t).cryptoContexts = q.cryptoContexts ++ [t] := by
  rw [setInQueueCryptoContext]
  simp only
  rw [List.eraseP_of_forall_not (List.find?_eq_none.mp h)]

/-- A new context is found. -/
theorem getInQueueCryptoContext_setInQueueCryptoContext
    (h : q.getInQueueCryptoContext t.obj.ssrcCtx = none) :
    (q.setInQueueCryptoContext t).getInQueueCryptoContext t.obj.ssrcCtx = some t := by
  have hq := h
  rw [getInQueueCryptoContext] at h
  rw [getInQueueCryptoContext, cryptoContexts_setInQueueCryptoContext hq, List.find?_append, h,
    Option.none_or, List.find?_cons, decide_eq_true rfl]

/-- Other contexts are found as before. -/
theorem getInQueueCryptoContext_setInQueueCryptoContext_of_ne
    (h : q.getInQueueCryptoContext t.obj.ssrcCtx = none) (hssrc : t.obj.ssrcCtx ≠ ssrc) :
    (q.setInQueueCryptoContext t).getInQueueCryptoContext ssrc
      = q.getInQueueCryptoContext ssrc := by
  rw [getInQueueCryptoContext, cryptoContexts_setInQueueCryptoContext h, List.find?_append,
    List.find?_cons, decide_eq_false hssrc, List.find?_nil, Option.or_none]
  rfl

/-- Registering a context leaves the SSRCs distinct. -/
theorem nodup_ssrcs_setInQueueCryptoContext (h : q.ssrcs.Nodup) (t : Tracked CryptoContext) :
    (q.setInQueueCryptoContext t).ssrcs.Nodup := by
  have herase : (q.cryptoContexts.eraseP (fun t' => t'.obj.ssrcCtx = t.obj.ssrcCtx)).map
      (fun t => t.obj.ssrcCtx) = q.ssrcs.erase t.obj.ssrcCtx := by
    rw [ssrcs, List.erase_eq_eraseP', List.eraseP_map]
    congr 1
  rw [ssrcs, setInQueueCryptoContext]
  simp only
  rw [List.map_append, herase, List.map_singleton]
  refine List.Nodup.append (h.erase _) (List.nodup_singleton _) ?_
  rw [List.disjoint_singleton]
  exact h.not_mem_erase

/-- Storing a context back leaves the SSRCs as they are. -/
theorem ssrcs_storeContext (h : q.getInQueueCryptoContext ssrc = some t)
    (hssrc : t'.obj.ssrcCtx = ssrc) : (q.storeContext t').ssrcs = q.ssrcs := by
  rw [ssrcs, storeContext]
  refine map_set_of_eq (getElem?_of_getInQueueCryptoContext h hssrc) ?_
  rw [hssrc, ssrcCtx_of_getInQueueCryptoContext h]

/-- Storing a context back does not touch the others. -/
theorem getInQueueCryptoContext_storeContext_of_ne {other : BitVec 32}
    (h : q.getInQueueCryptoContext ssrc = some t) (hssrc : t'.obj.ssrcCtx = ssrc)
    (hne : ssrc ≠ other) :
    (q.storeContext t').getInQueueCryptoContext other = q.getInQueueCryptoContext other := by
  have ht := ssrcCtx_of_getInQueueCryptoContext h
  rw [storeContext, getInQueueCryptoContext]
  refine find?_set_of_not (getElem?_of_getInQueueCryptoContext h hssrc) ?_ ?_
  · rw [ht]
    exact decide_eq_false hne
  · rw [hssrc]
    exact decide_eq_false hne

end IncomingDataQueue

/-! ## What `unprotect` leaves alone -/

namespace CryptoContext

theorem ssrcCtx_guessIndex (ctx : CryptoContext) (newSeqNb : BitVec 16) :
    (ctx.guessIndex newSeqNb).2.ssrcCtx = ctx.ssrcCtx := by
  rw [guessIndex, setGuessedRoc, initSeqNum]
  split_ifs <;> rfl

theorem ssrcCtx_checkReplay (T : ShiftUnit) (ctx : CryptoContext) (newSeqNb : BitVec 16) :
    (ctx.checkReplay T newSeqNb).2.ssrcCtx = ctx.ssrcCtx := by
  have hinit : (ctx.initSeqNum newSeqNb).ssrcCtx = ctx.ssrcCtx := by
    unfold initSeqNum
    split_ifs <;> rfl
  unfold checkReplay
  simp only
  split_ifs
  · rfl
  all_goals exact (ssrcCtx_guessIndex _ _).trans hinit

theorem ssrcCtx_update (T : ShiftUnit) (ctx : CryptoContext) (newSeqNb : BitVec 16) :
    (ctx.update T newSeqNb).ssrcCtx = ctx.ssrcCtx :=
  ssrcCtx_guessIndex ctx newSeqNb

end CryptoContext

/-- **`unprotect` changes neither the SSRC nor the session keys of the context.** -/
theorem IncomingRTPPkt.unprotect_ssrcCtx_keys {T : ShiftUnit} {P : Primitives}
    {ctx ctx' : CryptoContext} {p p' : IncomingRTPPkt} {code : ℤ}
    (h : p.unprotect T P ctx = some (code, p', ctx')) :
    ctx'.ssrcCtx = ctx.ssrcCtx ∧ ctx'.keys = ctx.keys := by
  have hcheck : (ctx.checkReplay T p.cachedSeqNum).2.ssrcCtx = ctx.ssrcCtx :=
    ssrcCtx_checkReplay T ctx _
  rcases unprotect_cases h with ⟨-, -, rfl⟩ | ⟨-, hfresh⟩
  · exact ⟨hcheck, keys_checkReplay T ctx _⟩
  · obtain ⟨mac, -, ⟨-, -, rfl⟩ | ⟨-, -, rfl⟩⟩ := unprotectFresh_cases hfresh
    · exact ⟨(ssrcCtx_guessIndex _ _).trans hcheck, by simp⟩
    · exact ⟨(ssrcCtx_update T _ _).trans ((ssrcCtx_guessIndex _ _).trans hcheck), by simp⟩

theorem CryptoContext.ssrcCtx_deriveSrtpKeys {P : Primitives} {ctx cc : CryptoContext}
    {index : BitVec 64} (h : ctx.deriveSrtpKeys P index = some cc) : cc.ssrcCtx = ctx.ssrcCtx := by
  obtain ⟨m, -, rfl⟩ := Option.map_eq_some_iff.mp h
  rfl

/-! ## One datagram -/

namespace IncomingDataQueue

variable {T : ShiftUnit} {P : Primitives} {q q' : IncomingDataQueue} {ssrc : BitVec 32}
  {t : Tracked CryptoContext} {template : CryptoContext} {datagram : Octets}

/-- **Where the context for an SSRC comes from**: from the registry, from nowhere, or from
the template. -/
theorem contextFor_cases {pcc : Option (Tracked CryptoContext)}
    (h : q.contextFor P ssrc = some (pcc, q')) :
    (q' = q ∧ q.getInQueueCryptoContext ssrc = pcc ∧
        (pcc = none → q.getInQueueCryptoContext 0 = none)) ∨
      ∃ template cc, q.getInQueueCryptoContext ssrc = none ∧
        q.getInQueueCryptoContext 0 = some template ∧
        (template.obj.newCryptoContextForSSRC ssrc 0 0).deriveSrtpKeys P 0 = some cc ∧
        pcc = some ⟨cc, true⟩ ∧ q' = q.setInQueueCryptoContext ⟨cc, true⟩ := by
  unfold contextFor at h
  split at h
  · next t ht =>
      cases h
      exact Or.inl ⟨rfl, ht, fun hnone => by cases hnone⟩
  · next hnone =>
      split at h
      · next hzero =>
          cases h
          exact Or.inl ⟨rfl, hnone, fun _ => hzero⟩
      · next template hzero =>
          obtain ⟨cc, hcc, heq⟩ := Option.map_eq_some_iff.mp h
          cases heq
          exact Or.inr ⟨template, cc, hnone, hzero, hcc, rfl, rfl⟩

/-- The context that is handed out stands in the registry under the SSRC. -/
theorem getInQueueCryptoContext_of_contextFor (h : q.contextFor P ssrc = some (some t, q')) :
    q'.getInQueueCryptoContext ssrc = some t := by
  rcases contextFor_cases h with ⟨rfl, hget, -⟩ | ⟨template, cc, hnone, -, hcc, ht, rfl⟩
  · exact hget
  · cases ht
    have hssrc : cc.ssrcCtx = ssrc := ssrcCtx_deriveSrtpKeys hcc
    subst hssrc
    exact getInQueueCryptoContext_setInQueueCryptoContext (t := ⟨cc, true⟩) hnone

/-- **What a datagram does to the registry.** -/
theorem takeInDataPacket_cases (h : q.takeInDataPacket T P datagram = some q') :
    q' = q ∨ ∃ packet t q₁ code p' cc, q.incomingPacket datagram = some packet ∧
      q.contextFor P packet.cachedSSRC = some (some t, q₁) ∧
      packet.unprotect T P t.obj = some (code, p', cc) ∧ q' = q₁.storeContext ⟨cc, t.spent⟩ := by
  unfold takeInDataPacket at h
  split at h
  · cases h
    exact Or.inl rfl
  · next packet hpacket =>
      obtain ⟨⟨pcc, q₁⟩, hctx, hrest⟩ := Option.bind_eq_some_iff.mp h
      cases pcc with
      | none =>
          cases hrest
          rcases contextFor_cases hctx with ⟨rfl, -, -⟩ | ⟨_, cc, -, -, -, hpcc, -⟩
          · exact Or.inl rfl
          · cases hpcc
      | some t =>
          obtain ⟨⟨code, p', cc⟩, hun, heq⟩ := Option.map_eq_some_iff.mp hrest
          cases heq
          exact Or.inr ⟨packet, t, q₁, code, p', cc, hpacket, hctx, hun, rfl⟩

/-- A datagram leaves the SSRCs distinct. -/
theorem nodup_ssrcs_takeInDataPacket (hq : q.ssrcs.Nodup)
    (h : q.takeInDataPacket T P datagram = some q') : q'.ssrcs.Nodup := by
  rcases takeInDataPacket_cases h with rfl | ⟨packet, t, q₁, code, p', cc, -, hctx, hun, rfl⟩
  · exact hq
  · have hget := getInQueueCryptoContext_of_contextFor hctx
    have hssrc : cc.ssrcCtx = packet.cachedSSRC := by
      rw [(IncomingRTPPkt.unprotect_ssrcCtx_keys hun).1]
      exact ssrcCtx_of_getInQueueCryptoContext hget
    have hssrcs : (q₁.storeContext ⟨cc, t.spent⟩).ssrcs = q₁.ssrcs :=
      ssrcs_storeContext hget hssrc
    rw [hssrcs]
    rcases contextFor_cases hctx with ⟨rfl, -, -⟩ | ⟨_, cc, -, -, -, -, rfl⟩
    · exact hq
    · exact nodup_ssrcs_setInQueueCryptoContext hq _

/-- **The registry never holds two contexts with the same SSRC.** -/
theorem nodup_ssrcs_takeInAll (hq : q.ssrcs.Nodup) {datagrams : List Octets}
    (h : q.takeInAll T P datagrams = some q') : q'.ssrcs.Nodup := by
  have hstep : ∀ (s : Option IncomingDataQueue) (datagram : Octets), (∀ r ∈ s, r.ssrcs.Nodup) →
      True → ∀ r ∈ takeInStep T P s datagram, r.ssrcs.Nodup := by
    intro s datagram hs _ r hr
    obtain ⟨q₀, hq₀, hr⟩ := Option.bind_eq_some_iff.mp hr
    exact nodup_ssrcs_takeInDataPacket (hs q₀ hq₀) hr
  have hstart : ∀ r ∈ some q, r.ssrcs.Nodup := by
    rintro r ⟨⟩
    exact hq
  exact foldl_of_invariant hstep hstart (alongRun_of_forall_mem (fun _ _ => trivial)) q' h

/-! ## Runs of datagrams -/

variable (P template)

/-- A context on which `deriveSrtpKeys` has been run, made from the template for the SSRC,
with the session keys that this gave. -/
structure KeyedFor (ssrc : BitVec 32) (t : Tracked CryptoContext) : Prop where
  ssrc_eq : t.obj.ssrcCtx = ssrc
  derived : t.spent = true
  keys : ∃ cc, (template.newCryptoContextForSSRC ssrc 0 0).deriveSrtpKeys P 0 = some cc ∧
    t.obj.keys = cc.keys

/-- The call of `unprotect` for a datagram, if there is one, gets a keyed context of the
packet's SSRC, and not the template. -/
def ProcessedKeyed (q : IncomingDataQueue) (datagram : Octets) : Prop :=
  ∀ packet t, q.unprotectCall P datagram = some (packet, t) →
    KeyedFor P template packet.cachedSSRC t ∧ t ≠ ⟨template, false⟩

/-- The datagram does not pose as one of the template's SSRC. -/
def AvoidsTemplate (q : IncomingDataQueue) (datagram : Octets) : Prop :=
  ∀ packet ∈ q.incomingPacket datagram, packet.cachedSSRC ≠ 0

instance (q : IncomingDataQueue) (datagram : Octets) : Decidable (q.AvoidsTemplate datagram) :=
  inferInstanceAs (Decidable (∀ packet ∈ q.incomingPacket datagram, packet.cachedSSRC ≠ 0))

/-- The template stands under SSRC 0 as it was registered, and keyed contexts under the
other SSRCs. -/
structure TemplateRegistry (q : IncomingDataQueue) : Prop where
  template_eq : q.getInQueueCryptoContext 0 = some ⟨template, false⟩
  keyed : ∀ ssrc t, ssrc ≠ 0 → q.getInQueueCryptoContext ssrc = some t → KeyedFor P template ssrc t

variable {P template}

/-- Registering the context of a new SSRC. -/
theorem TemplateRegistry.contextFor (hq : TemplateRegistry P template q) (hne : ssrc ≠ 0)
    (h : q.contextFor P ssrc = some (some t, q')) : TemplateRegistry P template q' := by
  rcases contextFor_cases h with ⟨rfl, -, -⟩ | ⟨tmpl, cc, hnone, hzero, hcc, ht, rfl⟩
  · exact hq
  · have hssrc : cc.ssrcCtx = ssrc := ssrcCtx_deriveSrtpKeys hcc
    subst hssrc
    have htmpl : tmpl = ⟨template, false⟩ := by
      rw [hq.template_eq, Option.some_inj] at hzero
      exact hzero.symm
    subst htmpl
    refine ⟨?_, ?_⟩
    · rw [getInQueueCryptoContext_setInQueueCryptoContext_of_ne (t := ⟨cc, true⟩) hnone hne]
      exact hq.template_eq
    · intro other t' hother hget
      by_cases heq : cc.ssrcCtx = other
      · subst heq
        rw [getInQueueCryptoContext_setInQueueCryptoContext (t := ⟨cc, true⟩) hnone] at hget
        cases hget
        exact ⟨rfl, rfl, cc, hcc, rfl⟩
      · rw [getInQueueCryptoContext_setInQueueCryptoContext_of_ne (t := ⟨cc, true⟩) hnone heq]
          at hget
        exact hq.keyed other t' hother hget

/-- Storing back what `unprotect` left of a context. -/
theorem TemplateRegistry.storeContext (hq : TemplateRegistry P template q) (hne : ssrc ≠ 0)
    (hget : q.getInQueueCryptoContext ssrc = some t) {cc : CryptoContext}
    (hssrc : cc.ssrcCtx = t.obj.ssrcCtx) (hkeys : cc.keys = t.obj.keys) :
    TemplateRegistry P template (q.storeContext ⟨cc, t.spent⟩) := by
  have hcc : cc.ssrcCtx = ssrc := hssrc.trans (ssrcCtx_of_getInQueueCryptoContext hget)
  have hothers : ∀ other, ssrc ≠ other →
      (q.storeContext ⟨cc, t.spent⟩).getInQueueCryptoContext other
        = q.getInQueueCryptoContext other :=
    fun other hne => getInQueueCryptoContext_storeContext_of_ne hget hcc hne
  refine ⟨?_, ?_⟩
  · exact (hothers 0 hne).trans hq.template_eq
  · intro other t' hother hget'
    by_cases heq : ssrc = other
    · subst heq
      have hfound : (q.storeContext ⟨cc, t.spent⟩).getInQueueCryptoContext ssrc
          = some ⟨cc, t.spent⟩ := by
        subst hcc
        exact find?_set_findIdx hget (decide_eq_true rfl)
      rw [hfound] at hget'
      cases hget'
      obtain ⟨-, hderived, c, hc, hck⟩ := hq.keyed ssrc t hne hget
      exact ⟨hcc, hderived, c, hc, hkeys.trans hck⟩
    · rw [hothers other heq] at hget'
      exact hq.keyed other t' hother hget'

/-- **The step lemma**: datagrams of other SSRCs keep the registry in order. -/
theorem TemplateRegistry.takeInDataPacket (hq : TemplateRegistry P template q)
    (havoid : q.AvoidsTemplate datagram) (h : q.takeInDataPacket T P datagram = some q') :
    TemplateRegistry P template q' := by
  rcases takeInDataPacket_cases h with rfl | ⟨packet, t, q₁, code, p', cc, hp, hctx, hun, rfl⟩
  · exact hq
  · have hne := havoid packet hp
    obtain ⟨hssrc, hkeys⟩ := IncomingRTPPkt.unprotect_ssrcCtx_keys hun
    exact (hq.contextFor hne hctx).storeContext hne (getInQueueCryptoContext_of_contextFor hctx)
      hssrc hkeys

/-- **One datagram is processed with a keyed context exactly if it avoids SSRC 0.** -/
theorem TemplateRegistry.processedKeyed_iff (hq : TemplateRegistry P template q)
    (datagram : Octets) : ProcessedKeyed P template q datagram ↔ q.AvoidsTemplate datagram := by
  constructor
  · intro h packet hpacket hzero
    -- the lookup for SSRC 0 finds the template
    have hctx : q.contextFor P packet.cachedSSRC = some (some ⟨template, false⟩, q) := by
      rw [IncomingDataQueue.contextFor, hzero, hq.template_eq]
    have hcall : q.unprotectCall P datagram = some (packet, ⟨template, false⟩) := by
      rw [unprotectCall, hpacket, Option.bind_some, hctx]
      rfl
    exact absurd rfl (h packet _ hcall).2
  · intro h packet t hcall
    obtain ⟨packet', hpacket, hrest⟩ := Option.bind_eq_some_iff.mp hcall
    obtain ⟨⟨pcc, q₁⟩, hctx, hpcc⟩ := Option.bind_eq_some_iff.mp hrest
    obtain ⟨t', ht', heq⟩ := Option.map_eq_some_iff.mp hpcc
    cases heq
    simp only at ht'
    subst ht'
    have hne := h packet hpacket
    have hkeyed :=
      (hq.contextFor hne hctx).keyed _ t hne (getInQueueCryptoContext_of_contextFor hctx)
    refine ⟨hkeyed, ?_⟩
    rintro rfl
    cases hkeyed.derived

/-- The queue on which nothing but the template has been registered. -/
def withTemplate (template : CryptoContext) (maxRecvPacketSize : ℕ) : IncomingDataQueue :=
  IncomingDataQueue.setInQueueCryptoContext ⟨maxRecvPacketSize, []⟩ ⟨template, false⟩

theorem templateRegistry_withTemplate (P : Primitives) (hzero : template.ssrcCtx = 0)
    (maxRecvPacketSize : ℕ) :
      TemplateRegistry P template (withTemplate template maxRecvPacketSize) := by
  refine ⟨?_, ?_⟩
  · exact List.find?_cons_of_pos (decide_eq_true hzero)
  · intro ssrc t hne hget
    have hnone : (withTemplate template maxRecvPacketSize).getInQueueCryptoContext ssrc = none :=
      List.find?_cons_of_neg (fun h => hne (hzero ▸ (of_decide_eq_true h).symm))
    rw [hnone] at hget
    cases hget

end IncomingDataQueue

open IncomingDataQueue in
/-- **Packets are processed with keyed contexts of their own SSRC exactly as long as none
of them carries SSRC 0.**  A queue starts with a template under SSRC 0.  Every call of
`unprotect` in a run of datagrams gets a context of the packet's SSRC on which
`deriveSrtpKeys` has been run, and never the template, if and only if no packet with a
valid header has the SSRC 0.  The SSRCs in the registry are distinct in any case. -/
theorem incoming_contexts_exact (T : ShiftUnit) (P : Primitives) (template : CryptoContext)
    (hzero : template.ssrcCtx = 0) (maxRecvPacketSize : ℕ) (datagrams : List Octets) :
    (AlongRun (takeInStep T P) (fun s d => ∀ q ∈ s, ProcessedKeyed P template q d)
        (some (withTemplate template maxRecvPacketSize)) datagrams ↔
      AlongRun (takeInStep T P) (fun s d => ∀ q ∈ s, q.AvoidsTemplate d)
        (some (withTemplate template maxRecvPacketSize)) datagrams) ∧
      ∀ q, (withTemplate template maxRecvPacketSize).takeInAll T P datagrams = some q →
        q.ssrcs.Nodup := by
  constructor
  · have hiff : ∀ (s : Option IncomingDataQueue) (d : Octets),
        (∀ q ∈ s, TemplateRegistry P template q) → True →
        ((∀ q ∈ s, ProcessedKeyed P template q d) ↔ ∀ q ∈ s, q.AvoidsTemplate d) := by
      intro s d hs _
      exact forall₂_congr (fun q hq => (hs q hq).processedKeyed_iff d)
    have hkeep : ∀ (s : Option IncomingDataQueue) (d : Octets),
        (∀ q ∈ s, TemplateRegistry P template q) → True → (∀ q ∈ s, q.AvoidsTemplate d) →
        ∀ q ∈ takeInStep T P s d, TemplateRegistry P template q := by
      intro s d hs _ havoid q hq
      obtain ⟨q₀, hq₀, hstep⟩ := Option.bind_eq_some_iff.mp hq
      exact (hs q₀ hq₀).takeInDataPacket (havoid q₀ hq₀) hstep
    have hstart : ∀ q ∈ some (withTemplate template maxRecvPacketSize),
        TemplateRegistry P template q := by
      rintro q ⟨⟩
      exact templateRegistry_withTemplate P hzero maxRecvPacketSize
    exact alongRun_iff_of_invariant hiff hkeep hstart
      (alongRun_of_forall_mem (fun _ _ => trivial))
  · intro q hq
    have hstart : (withTemplate template maxRecvPacketSize).ssrcs.Nodup := List.nodup_singleton _
    exact nodup_ssrcs_takeInAll hstart hq

/-- A datagram with the given SSRC, one octet of payload and a tag of ten zeros. -/
def datagramOf (ssrc : BitVec 32) : Octets :=
  [0x80, 0] ++ bigEndian 2 7 ++ bigEndian 4 0 ++ bigEndian 4 ssrc.toNat ++ [42]
    ++ List.replicate 10 0

open IncomingDataQueue in
/-- Two datagrams of one SSRC and one of another. -/
theorem incoming_contexts_exact_two_sources :
    (KeyPolicy.sample.context 0 0 0).ssrcCtx = 0 ∧
      AlongRun (takeInStep .x86 .additive)
        (fun s d => ∀ q ∈ s, ProcessedKeyed .additive (KeyPolicy.sample.context 0 0 0) q d)
        (some (withTemplate (KeyPolicy.sample.context 0 0 0) 65534))
        [datagramOf 0x1122, datagramOf 0x3344, datagramOf 0x1122] :=
  ⟨rfl, (incoming_contexts_exact .x86 .additive (KeyPolicy.sample.context 0 0 0) rfl 65534
    [datagramOf 0x1122, datagramOf 0x3344, datagramOf 0x1122]).1.mpr (by decide)⟩

open IncomingDataQueue in
/-- **A packet with SSRC 0 is processed with the template**, whose session keys nobody has
derived; without a MAC object the call of `unprotect` does not return. -/
theorem ssrc_zero_processed_with_template :
    ((withTemplate (KeyPolicy.sample.context 0 0 0) 65534).unprotectCall .additive
        (datagramOf 0)).map Prod.snd = some ⟨KeyPolicy.sample.context 0 0 0, false⟩ ∧
      ((withTemplate (KeyPolicy.sample.context 0 0 0) 65534).takeInDataPacket .x86 .additive
        (datagramOf 0)).isNone = true ∧
      ¬ AlongRun (takeInStep .x86 .additive)
        (fun s d => ∀ q ∈ s, ProcessedKeyed .additive (KeyPolicy.sample.context 0 0 0) q d)
        (some (withTemplate (KeyPolicy.sample.context 0 0 0) 65534)) [datagramOf 0] := by
  have hcall : ((withTemplate (KeyPolicy.sample.context 0 0 0) 65534).unprotectCall .additive
      (datagramOf 0)).map Prod.snd = some ⟨KeyPolicy.sample.context 0 0 0, false⟩ := by
    decide
  refine ⟨hcall, by decide, ?_⟩
  rintro ⟨h, -⟩
  obtain ⟨⟨packet, t⟩, hpt, ht⟩ := Option.map_eq_some_iff.mp hcall
  exact (h _ rfl packet t hpt).2 ht
