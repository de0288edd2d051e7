/-
# The reports of a source

A source has a sender info and the time of its arrival, and a receiver info.  While a compound is
taken in, these are written by `onGotSR`, by `onGotRR` and by the statements around them, and
they are lost when the check finds the local SSRC in a new collision and `initStats` is called.

* `RestartsFor` : what packets leave of the reports if only the check touches them;
* `restartsFor_checkSSRCInRTCPPkt` : the check itself;
* `restartsFor_walkLoops` : the three loops, for sender reports;
* `sent_firstReport` : the first packet.
-/
import CcRtp.RtcpWalk

/-- What a source has reported. -/
structure SourceReports where
  senderInfo : Option Octets
  receiverInfo : Option Octets
  lastRTCPSRTime : Timeval

/-- The sender info, and when it arrived. -/
def SourceReports.sent (r : SourceReports) : Option Octets × Timeval :=
  (r.senderInfo, r.lastRTCPSRTime)

def ControlSource.reports (s : ControlSource) : SourceReports :=
  ⟨s.senderInfo, s.receiverInfo, s.lastRTCPSRTime⟩

namespace QueueRTCPManager

open RTCPPacket

variable {m m' m'' : QueueRTCPManager} {buf : Memory} {len rounds : ℕ} {src ssrc : BitVec 32}
  {na : InetAddress} {tp : BitVec 16} {w w' : Walk} {α : Type*} {g : SourceReports → α}
  {l l' : List (BitVec 32)}

/-! ## New collisions of the local source -/

/-- The local source has another address than the given one, which is not known to conflict. -/
def NewCollision (m : QueueRTCPManager) (na : InetAddress) (tp : BitVec 16) : Prop :=
  ((m.source m.localSSRC).controlTransportPort ≠ tp ∨ (m.source m.localSSRC).networkAddress ≠ na) ∧
    (m.searchControlConflict na tp).isSome = false

instance : Decidable (m.NewCollision na tp) := inferInstanceAs (Decidable (_ ∧ _))

/-- Without a change of addresses, the collisions are new as before. -/
theorem SameAddresses.newCollision_iff (h : SameAddresses m m') (na : InetAddress)
    (tp : BitVec 16) :
    m'.NewCollision na tp ↔ m.NewCollision na tp := by
  have haddresses := h.addresses m.localSSRC
  simp only [QueueRTCPManager.addresses, Prod.mk.injEq] at haddresses
  obtain ⟨hna, htp, -⟩ := haddresses
  rw [NewCollision, NewCollision, searchControlConflict, searchControlConflict, h.localSSRC,
    h.conflicts, hna, htp]

/-- **What packets with the given SSRCs leave of the reports** if only the check touches them: if
the local SSRC is among them, and in a new collision, the local source begins anew. -/
structure RestartsFor (g : SourceReports → α) (na : InetAddress) (tp : BitVec 16)
    (l : List (BitVec 32)) (m m' : QueueRTCPManager) : Prop where
  localSSRC : m'.localSSRC = m.localSSRC
  newCollision : m'.NewCollision na tp → m.NewCollision na tp
  stays : m.localSSRC ∉ l → m.NewCollision na tp → m'.NewCollision na tp
  reports : ∀ x, g (m'.source x).reports
    = if x = m.localSSRC ∧ x ∈ l ∧ m.NewCollision na tp then g ControlSource.new.reports
      else g (m.source x).reports

namespace RestartsFor

/-- Nothing happens. -/
theorem refl (m : QueueRTCPManager) : RestartsFor g na tp [] m m := by
  refine ⟨rfl, id, fun _ => id, fun x => ?_⟩
  rw [if_neg (fun h => List.not_mem_nil h.2.1)]

/-- The order of the packets, and how often they come, does not matter. -/
theorem congr (h : RestartsFor g na tp l m m') (hl : ∀ x, x ∈ l' ↔ x ∈ l) :
    RestartsFor g na tp l' m m' := by
  refine ⟨h.localSSRC, h.newCollision, fun hnot => h.stays (fun hmem => hnot ((hl _).mpr hmem)),
    fun x => ?_⟩
  rw [h.reports x]
  exact if_congr (and_congr_right (fun _ => and_congr_left (fun _ => (hl x).symm))) rfl rfl

/-- **Packets one behind the other.** -/
theorem trans (h : RestartsFor g na tp l m m') (h' : RestartsFor g na tp l' m' m'') :
    RestartsFor g na tp (l ++ l') m m'' := by
  refine ⟨h'.localSSRC.trans h.localSSRC, fun hnew => h.newCollision (h'.newCollision hnew), ?_,
    fun x => ?_⟩
  · intro hnot hnew
    rw [List.mem_append, not_or] at hnot
    exact h'.stays (h.localSSRC.symm ▸ hnot.2) (h.stays hnot.1 hnew)
  · rw [h'.reports x, h.reports x, h.localSSRC]
    by_cases hx : x = m.localSSRC
    · by_cases hnew : m.NewCollision na tp
      · by_cases hl : x ∈ l
        · -- what has begun anew does so again, or stays
          have hlost : x = m.localSSRC ∧ x ∈ l ∧ m.NewCollision na tp := ⟨hx, hl, hnew⟩
          rw [if_pos hlost, ite_self, if_pos ⟨hx, List.mem_append_left l' hl, hnew⟩]
        · have hstays := h.stays (hx ▸ hl) hnew
          refine if_congr ?_ rfl (if_neg (fun hr => hl hr.2.1))
          rw [List.mem_append, or_iff_right hl]
          exact and_congr_right (fun _ => and_congr_right (fun _ => iff_of_true hstays hnew))
      · rw [if_neg (fun hr => hnew (h.newCollision hr.2.2)), if_neg (fun hr => hnew hr.2.2),
          if_neg (fun hr => hnew hr.2.2)]
    · rw [if_neg (fun hr => hx hr.1), if_neg (fun hr => hx hr.1), if_neg (fun hr => hx hr.1)]

end RestartsFor

/-- Nothing that the check looks at has changed, and no report. -/
theorem SameAddresses.restartsFor (h : SameAddresses m m')
    (hreports : ∀ x, g (m'.source x).reports = g (m.source x).reports) :
    RestartsFor g na tp [] m m' := by
  refine ⟨h.localSSRC, (h.newCollision_iff na tp).mp, fun _ => (h.newCollision_iff na tp).mpr,
    fun x => ?_⟩
  rw [hreports, if_neg (fun hr => List.not_mem_nil hr.2.1)]

/-- Introducing participants restarts nothing. -/
theorem Introduces.restartsFor (h : Introduces m m') : RestartsFor g na tp [] m m' := by
  refine h.sameAddresses.restartsFor (fun x => ?_)
  have hreports := congrArg (fun s => g s.reports) (h.anonymous x)
  exact hreports

/-- **The check of a packet.** -/
theorem restartsFor_checkSSRCInRTCPPkt (g : SourceReports → α) (m : QueueRTCPManager)
    (ssrc : BitVec 32) (isNew : Bool) (na : InetAddress) (tp : BitVec 16) :
    RestartsFor g na tp [ssrc] m (m.checkSSRCInRTCPPkt ssrc isNew na tp).2 := by
  have hkept : (∀ x, x = m.localSSRC → x = ssrc → ¬ m.NewCollision na tp) →
      RestartsFor g na tp [ssrc] m m := by
    intro hno
    refine ⟨rfl, id, fun _ => id, fun x => ?_⟩
    rw [if_neg (fun hr => hno x hr.1 (List.mem_singleton.mp hr.2.1) hr.2.2)]
  rw [checkSSRCInRTCPPkt]
  split_ifs with hcreated hmismatch hremote
  · exact hkept (fun x hlocal hx => absurd (hx.symm.trans hlocal) hcreated.2)
  · -- another source takes over the address
    rw [remoteCollision]
    split_ifs
    · exact hkept (fun x hlocal hx => absurd (hx.symm.trans hlocal) hremote)
    · have hlocal : (m.modifySource ssrc (fun s => { s with
          prevConflict := some ⟨na, 0, tp⟩
          controlTransportPort := tp
          networkAddress := na })).source m.localSSRC = m.source m.localSSRC :=
        m.source_modifySource_of_ne (Ne.symm hremote) _
      have hiff : (m.modifySource ssrc (fun s => { s with
          prevConflict := some ⟨na, 0, tp⟩
          controlTransportPort := tp
          networkAddress := na })).NewCollision na tp ↔ m.NewCollision na tp := by
        rw [NewCollision, NewCollision]
        show ((QueueRTCPManager.source _ m.localSSRC).controlTransportPort ≠ tp ∨
          (QueueRTCPManager.source _ m.localSSRC).networkAddress ≠ na) ∧ _ ↔ _
        rw [hlocal]
        rfl
      refine ⟨rfl, hiff.mp, fun _ => hiff.mpr, fun x => ?_⟩
      rw [if_neg (fun hr => hremote ((List.mem_singleton.mp hr.2.1).symm.trans hr.1))]
      by_cases hx : x = ssrc
      · rw [hx, source_modifySource_self]
        rfl
      · rw [source_modifySource_of_ne m hx]
  · -- the local source begins anew
    push Not at hremote
    subst hremote
    rw [localCollision]
    split_ifs with hknown
    · exact hkept (fun x _ _ hnew => by rw [hnew.2] at hknown; cases hknown)
    · have hnew : m.NewCollision na tp := ⟨hmismatch, Bool.eq_false_iff.mpr hknown⟩
      refine ⟨(m.addConflict (m.source m.localSSRC)).sameAddresses_dispatchBYE.localSSRC,
        fun _ => hnew, fun hnot => absurd (List.mem_singleton_self _) hnot, fun x => ?_⟩
      by_cases hx : x = m.localSSRC
      · subst hx
        rw [if_pos ⟨rfl, List.mem_singleton_self _, hnew⟩, source_modifySource_self]
        rfl
      · rw [if_neg (fun hr => hx hr.1), source_modifySource_of_ne _ hx, source_dispatchBYE]
        rfl
  · exact hkept (fun x hlocal hx hnew => hmismatch (hx ▸ hlocal ▸ hnew.1))

/-- The look for collisions restarts the local source at most, if the packet has its SSRC. -/
theorem restartsFor_checkPacket (g : SourceReports → α) (buf : Memory) (na : InetAddress)
    (tp : BitVec 16) (w : Walk) :
    RestartsFor g na tp [getSSRC buf w.pointer] w.manager (checkPacket buf na tp w).2 :=
  (w.manager.introduces_getSourceBySSRC _).restartsFor.trans
    (restartsFor_checkSSRCInRTCPPkt g _ _ _ na tp)

/-! ## The three loops -/

/-- Receiver reports leave the sender reports. -/
theorem restartsFor_reportBody (h : reportBody buf src na tp w = some w') :
    RestartsFor SourceReports.sent na tp [getSSRC buf w.pointer] w.manager w'.manager := by
  have hcheck := restartsFor_checkPacket SourceReports.sent buf na tp w
  rw [reportBody_eq, Option.some_inj] at h
  subst h
  dsimp only [advance]
  set m := (checkPacket buf na tp w).2
  split_ifs
  · refine hcheck.trans ((m.sameAddresses_onGotRR src buf w.pointer).restartsFor (fun x => ?_))
    rw [onGotRR_eq]
    split_ifs
    · by_cases hx : x = src
      · rw [hx, source_modifySource_self]
        rfl
      · rw [source_modifySource_of_ne m hx]
    · rfl
  · exact hcheck

/-- A round over the descriptions restarts no more than that. -/
theorem restartsFor_descriptionBody (g : SourceReports → α)
    (h : descriptionBody rounds buf src na tp w = some w') :
    RestartsFor g na tp [getSSRC buf w.pointer] w.manager w'.manager := by
  have hcheck := restartsFor_checkPacket g buf na tp w
  rw [descriptionBody_eq] at h
  split_ifs at h
  · obtain ⟨⟨cname, m'⟩, hsdes, rfl⟩ := Option.map_eq_some_iff.mp h
    exact hcheck.trans (introduces_chunkLoop _ hsdes).restartsFor
  · cases h
    exact hcheck

/-- So does a round over the BYE packets. -/
theorem restartsFor_byeBody (g : SourceReports → α) {pkt : ℕ}
    (h : byeBody buf na tp pkt w = some w') :
    RestartsFor g na tp [getSSRC buf pkt] w.manager w'.manager := by
  have hcheck := restartsFor_checkPacket g buf na tp { w with pointer := pkt }
  rw [byeBody_eq, Option.some_inj] at h
  subst h
  split_ifs
  · exact hcheck.trans (introduces_getBYE _ buf pkt w.pointer).restartsFor
  · exact hcheck

/-- **A loop whose rounds go from packet to packet**: what the rounds keep, with the packets passed
so far. -/
theorem whileLoop_passed (types : UInt8 → Bool) (os : List ℕ) (Inv : List ℕ → Walk → Prop)
    {cond : Walk → Bool} {body : Walk → Option Walk}
    (hcond : ∀ w, cond w = true ↔ w.pointer < len ∧ types (type buf w.pointer) = true)
    (hbody : ∀ done w w', w.pointer ∈ os → Inv done w → body w = some w' →
      w'.pointer = w.pointer + getLength buf w.pointer ∧ Inv (done ++ [w.pointer]) w')
    (rounds : ℕ) : ∀ (done : List ℕ) {w w' : Walk},
      (∀ p ∈ passedPackets buf len types w.pointer, p ∈ os) → Inv done w →
      whileLoop cond body rounds w = some w' →
      Inv (done ++ passedPackets buf len types w.pointer) w' := by
  have hend : ∀ {done : List ℕ} {w w' : Walk} {rounds : ℕ}, cond w = false → Inv done w →
      whileLoop cond body rounds w = some w' →
      Inv (done ++ passedPackets buf len types w.pointer) w' := by
    intro done w w' rounds hfalse hinv h
    rw [whileLoop_of_false hfalse, Option.some_inj] at h
    subst h
    rw [passedPackets, if_neg (fun hc => by rw [(hcond w).mpr hc] at hfalse; cases hfalse),
      List.append_nil]
    exact hinv
  induction rounds with
  | zero =>
      intro done w w' _ hinv h
      cases hc : cond w with
      | false => exact hend hc hinv h
      | true =>
          rw [whileLoop, if_pos hc] at h
          cases h
  | succ rounds ih =>
      intro done w w' hos hinv h
      cases hc : cond w with
      | false => exact hend hc hinv h
      | true =>
          rw [whileLoop, if_pos hc] at h
          obtain ⟨u, hu, hrest⟩ := Option.bind_eq_some_iff.mp h
          rw [passedPackets, if_pos ((hcond w).mp hc)] at hos ⊢
          obtain ⟨hpointer, hround⟩ := hbody done w u (hos _ List.mem_cons_self) hinv hu
          rw [← hpointer] at hos ⊢
          rw [List.append_cons]
          exact ih _ (fun p hp => hos p (List.mem_cons_of_mem _ hp)) hround hrest

/-- What such a loop leaves of the reports. -/
theorem restartsFor_whileLoop {types : UInt8 → Bool} {cond : Walk → Bool}
    {body : Walk → Option Walk}
    (hcond : ∀ w, cond w = true ↔ w.pointer < len ∧ types (type buf w.pointer) = true)
    (hbody : ∀ w w', body w = some w' → w'.pointer = w.pointer + getLength buf w.pointer ∧
      RestartsFor g na tp [getSSRC buf w.pointer] w.manager w'.manager)
    (h : whileLoop cond body rounds w = some w') :
    RestartsFor g na tp ((passedPackets buf len types w.pointer).map (getSSRC buf))
      w.manager w'.manager := by
  refine whileLoop_passed types _
    (fun done v => RestartsFor g na tp (done.map (getSSRC buf)) w.manager v.manager) hcond
    (fun done v v' _ hv hv' => ?_) rounds [] (fun _ hp => hp) (.refl _) h
  obtain ⟨hpointer, hround⟩ := hbody v v' hv'
  refine ⟨hpointer, ?_⟩
  rw [List.map_append, List.map_singleton]
  exact hv.trans hround

/-- The loop over the reports, by the rule for loops that pass packets. -/
theorem restartsFor_reportLoop
    (h : whileLoop (fun w => w.pointer < len ∧ type buf w.pointer = tRR)
      (reportBody buf src na tp) rounds w = some w') :
    RestartsFor SourceReports.sent na tp
      ((passedPackets buf len (fun t => t = tRR) w.pointer).map (getSSRC buf))
      w.manager w'.manager := by
  refine restartsFor_whileLoop (fun w => ?_) (fun w w' hbody => ?_) h
  · rw [decide_eq_true_iff, decide_eq_true_iff]
  · exact ⟨(goesOn_of_reportBody hbody).pointer, restartsFor_reportBody hbody⟩

/-- The loop over the descriptions, by the same rule. -/
theorem restartsFor_descriptionLoop (g : SourceReports → α)
    (h : whileLoop
        (fun w => w.pointer < len ∧ (type buf w.pointer = tSDES ∨ type buf w.pointer = tAPP))
      (descriptionBody rounds buf src na tp) rounds w = some w') :
    RestartsFor g na tp
      ((passedPackets buf len (fun t => t = tSDES ∨ t = tAPP) w.pointer).map (getSSRC buf))
      w.manager w'.manager := by
  refine restartsFor_whileLoop (fun w => ?_) (fun w w' hbody => ?_) h
  · rw [decide_eq_true_iff, decide_eq_true_iff]
  · exact ⟨(goesOn_of_descriptionBody hbody).pointer, restartsFor_descriptionBody g hbody⟩

/-- The loop over BYE packets looks at one packet, or at none. -/
theorem restartsFor_walkByes (g : SourceReports → α)
    (h : walkByes rounds buf len na tp w = some w') :
    RestartsFor g na tp
      ((if w.pointer < len ∧ type buf w.pointer = tBYE then [w.pointer] else []).map (getSSRC buf))
      w.manager w'.manager := by
  by_cases hbye : w.pointer < len ∧ type buf w.pointer = tBYE
  · rw [if_pos hbye, List.map_singleton]
    set cond : Walk → Bool := fun v => v.pointer < len ∧ type buf w.pointer = tBYE with hconds
    have hloop : whileLoop cond (byeBody buf na tp w.pointer) rounds w = some w' := h
    have hcond : cond w = true := decide_eq_true hbye
    obtain ⟨u, rounds', hu, hrest⟩ := exists_round_of_whileLoop hcond hloop
    refine (whileLoop_invariant
      (fun v : Walk => RestartsFor g na tp [getSSRC buf w.pointer] w.manager v.manager)
      (fun v v' hv _ hv' => ?_) rounds' (restartsFor_byeBody g hu) hrest).1
    refine (hv.trans (restartsFor_byeBody g hv')).congr (fun x => ?_)
    rw [List.mem_append, or_self]
  · rw [walkByes_of_not w hbye, Option.some_inj] at h
    subst h
    rw [if_neg hbye]
    exact .refl _

/-- The packets that are checked behind the first report. -/
def checkedPackets (buf : Memory) (len : ℕ) : List ℕ :=
  let p := if type buf 0 = tSR then getLength buf 0 else 0
  passedPackets buf len (fun t => t = tRR) p
    ++ passedPackets buf len (fun t => t = tSDES ∨ t = tAPP)
      (passPackets buf len (fun t => t = tRR) p)
    ++ (if byeOffset buf len < len ∧ type buf (byeOffset buf len) = tBYE then [byeOffset buf len]
      else [])

/-- **The three loops**, and what they leave of the sender reports. -/
theorem restartsFor_walkLoops
    (hpointer : w.pointer = if type buf 0 = tSR then getLength buf 0 else 0)
    (h : walkLoops rounds buf len src na tp w = some w') :
    RestartsFor SourceReports.sent na tp ((checkedPackets buf len).map (getSSRC buf))
      w.manager w'.manager := by
  rw [walkLoops_eq_bind] at h
  obtain ⟨w₂, h₂, h₃⟩ := Option.bind_eq_some_iff.mp h
  obtain ⟨w₁, h₁, h₂'⟩ := Option.bind_eq_some_iff.mp h₂
  have hp₁ := (reportLoop_spec h₁).1
  have hp₂ := pointer_walkReports h₂
  have hreports := restartsFor_reportLoop h₁
  have hdescriptions := restartsFor_descriptionLoop SourceReports.sent h₂'
  have hbyes := restartsFor_walkByes SourceReports.sent h₃
  rw [hpointer] at hp₁ hp₂ hreports
  rw [hp₁] at hdescriptions
  rw [show w₂.pointer = byeOffset buf len from hp₂] at hbyes
  rw [checkedPackets, List.map_append, List.map_append]
  exact (hreports.trans hdescriptions).trans hbyes

/-! ## The first packet -/

/-- The look for collisions does not read the clock. -/
theorem clock_checkSSRCInRTCPPkt (m : QueueRTCPManager) (ssrc : BitVec 32) (isNew : Bool)
    (na : InetAddress) (tp : BitVec 16) :
    (m.checkSSRCInRTCPPkt ssrc isNew na tp).2.clock = m.clock := by
  rcases m.checkSSRCInRTCPPkt_cases ssrc isNew na tp with hsame | ⟨-, hremote⟩ | ⟨-, hrenewed⟩
  · rw [hsame]
  · rw [hremote]
    rfl
  · rw [hrenewed]
    have hbye : (m.addConflict (m.source ssrc)).dispatchBYE.clock = m.clock := by
      unfold dispatchBYE
      split_ifs <;> rfl
    exact hbye

/-- **The sender reports behind the first packet.**  The time of its source is that of the packet,
whatever the packet is, and whatever the check says. -/
theorem sent_firstReport (buf : Memory) (m : QueueRTCPManager) (src : BitVec 32) (na : InetAddress)
    (tp : BitVec 16) (x : BitVec 32) :
    ((firstReport buf src na tp (m.registerFirst src na tp).1
        (m.registerFirst src na tp).2).manager.source x).reports.sent
      = if x = src then
          (if type buf 0 = tSR then some (buf.octets 8 20) else (m.source src).senderInfo, m.clock)
        else (m.source x).reports.sent := by
  have hregistered : ((m.registerFirst src na tp).2.source x).reports.sent
      = (m.source x).reports.sent :=
    kept_registerFirst (fun s => s.reports.sent) (fun _ _ _ _ => rfl) m src na tp x
  have hclock := (m.registerFirst_spec src na tp).2.2
  set m₁ := (m.registerFirst src na tp).2
  have hrecorded : ((m₁.recordSRTime src).source x).reports.sent
      = if x = src then ((m.source src).senderInfo, m.clock) else (m.source x).reports.sent := by
    split_ifs with hx
    · subst hx
      rw [recordSRTime, source_modifySource_self, ← hclock]
      exact congrArg (fun r => (Prod.fst r, m₁.clock)) hregistered
    · rw [recordSRTime, source_modifySource_of_ne m₁ hx]
      exact hregistered
  unfold firstReport
  split_ifs with hsr hx hx
  · -- the source of a sender report
    subst hx
    set r := (m₁.recordSRTime x).checkSSRCInRTCPPkt x (m.registerFirst x na tp).1 na tp with hr
    have htime : ((if r.1 then r.2.recordSRTime x else r.2).source x).lastRTCPSRTime = m.clock := by
      split_ifs with hok
      · rw [recordSRTime, source_modifySource_self, hr, clock_checkSSRCInRTCPPkt]
        exact hclock
      · rcases checkSSRCInRTCPPkt_frame ControlSource.lastRTCPSRTime (fun _ _ _ _ => rfl)
          (m₁.recordSRTime x) x (m.registerFirst x na tp).1 na tp x with hsame | ⟨-, -, htrue, -⟩
        · rw [if_pos rfl] at hrecorded
          exact hsame.trans (congrArg Prod.snd hrecorded)
        · exact absurd htrue hok
    dsimp only [onGotSR]
    rw [source_modifySource_self]
    exact congrArg (fun t => (some (buf.octets (0 + 8) 20), t)) htime
  · -- another source
    set r :=
      (m₁.recordSRTime src).checkSSRCInRTCPPkt src (m.registerFirst src na tp).1 na tp with hr
    have hchecked := (restartsFor_checkSSRCInRTCPPkt SourceReports.sent (m₁.recordSRTime src) src
      (m.registerFirst src na tp).1 na tp).reports x
    rw [if_neg (fun h => hx (List.mem_singleton.mp h.2.1)), hrecorded, if_neg hx] at hchecked
    dsimp only [onGotSR]
    rw [source_modifySource_of_ne _ hx, ← hchecked]
    split_ifs
    · rw [recordSRTime, source_modifySource_of_ne _ hx]
    · rfl
  · rw [hrecorded, if_pos hx]
  · rw [hrecorded, if_neg hx]

/-- The local source is in a new collision although the address of the first packet's source is
taken over if the source is new or has no control port yet. -/
def CollisionBegins (m : QueueRTCPManager) (na : InetAddress) (tp : BitVec 16) (src : BitVec 32) :
    Prop :=
  m.NewCollision na tp ∧ ¬ (m.localSSRC = src ∧ (m.sources src = none ∨
    ((m.source src).controlTransportPort = 0 ∧ (m.source src).networkAddress = na)))

instance : Decidable (m.CollisionBegins na tp src) := inferInstanceAs (Decidable (_ ∧ _))

/-- Once the source is registered, what it collides with is what it collided with before. -/
theorem newCollision_registerFirst (m : QueueRTCPManager) (src : BitVec 32) (na : InetAddress)
    (tp : BitVec 16) :
    (m.registerFirst src na tp).2.NewCollision na tp ↔ m.CollisionBegins na tp src := by
  obtain ⟨hlocal, hconflicts, -⟩ := m.registerFirst_spec src na tp
  rw [CollisionBegins, NewCollision, NewCollision, searchControlConflict, searchControlConflict,
    elsewhere_registerFirst, hlocal, hconflicts, and_right_comm]

/-- **The first packet** leaves the receiver infos, unless the check begins anew. -/
theorem restartsFor_firstReport (buf : Memory) (m : QueueRTCPManager) (src : BitVec 32)
    (na : InetAddress) (tp : BitVec 16) :
    RestartsFor SourceReports.receiverInfo na tp (if type buf 0 = tSR then [src] else [])
      (m.registerFirst src na tp).2
      (firstReport buf src na tp (m.registerFirst src na tp).1
        (m.registerFirst src na tp).2).manager := by
  have hmodified : ∀ (m' : QueueRTCPManager) (f : ControlSource → ControlSource),
      (∀ s, addresses (f s) = addresses s) → (∀ s, (f s).receiverInfo = s.receiverInfo) →
      RestartsFor SourceReports.receiverInfo na tp [] m' (m'.modifySource src f) := by
    intro m' f haddresses hinfo
    refine (m'.sameAddresses_modifySource src f haddresses).restartsFor (fun x => ?_)
    by_cases hx : x = src
    · rw [hx, source_modifySource_self]
      exact hinfo _
    · rw [source_modifySource_of_ne m' hx]
  have hrecord : ∀ m' : QueueRTCPManager,
      RestartsFor SourceReports.receiverInfo na tp [] m' (m'.recordSRTime src) :=
    fun m' => hmodified m' _ (fun _ => rfl) (fun _ => rfl)
  set m₁ := (m.registerFirst src na tp).2
  unfold firstReport
  split_ifs with hsr
  · have hchecked := restartsFor_checkSSRCInRTCPPkt SourceReports.receiverInfo (m₁.recordSRTime src)
      src (m.registerFirst src na tp).1 na tp
    set r :=
      (m₁.recordSRTime src).checkSSRCInRTCPPkt src (m.registerFirst src na tp).1 na tp with hr
    have hrecorded : RestartsFor SourceReports.receiverInfo na tp [] r.2
        (if r.1 then r.2.recordSRTime src else r.2) := by
      split_ifs
      · exact hrecord r.2
      · exact .refl r.2
    refine ((hrecord m₁).trans hchecked).trans (hrecorded.trans ?_)
    dsimp only [onGotSR]
    refine hmodified _ _ ?_ ?_
    · intro s
      rfl
    · intro s
      rfl
  · exact hrecord m₁

/-- The first packet may end a new collision of the local source, if it is a sender report of
it. -/
theorem newCollision_firstReport (buf : Memory) (m : QueueRTCPManager) (src : BitVec 32)
    (na : InetAddress) (tp : BitVec 16) (w : Walk)
    (hw : w =
      firstReport buf src na tp (m.registerFirst src na tp).1 (m.registerFirst src na tp).2) :
    w.manager.localSSRC = m.localSSRC ∧
      (w.manager.NewCollision na tp → m.CollisionBegins na tp src) ∧
      ((type buf 0 = tSR → src ≠ m.localSSRC) →
        m.CollisionBegins na tp src → w.manager.NewCollision na tp) := by
  have hfirst := restartsFor_firstReport buf m src na tp
  have hlocal := (m.registerFirst_spec src na tp).1
  rw [← hw] at hfirst
  rw [← newCollision_registerFirst]
  refine ⟨hfirst.localSSRC.trans hlocal, hfirst.newCollision, fun hne => hfirst.stays ?_⟩
  rw [hlocal]
  split_ifs with hsr
  · exact fun hmem => hne hsr (List.mem_singleton.mp hmem).symm
  · exact List.not_mem_nil

/-- The check of the local SSRC fails in a known conflict only. -/
theorem known_of_rejected {isNew : Bool} (h : (m.checkSSRCInRTCPPkt ssrc isNew na tp).1 = false)
    (hlocal : ssrc = m.localSSRC) : (m.searchControlConflict na tp).isSome = true := by
  rw [checkSSRCInRTCPPkt] at h
  split_ifs at h with hcreated hmismatch hremote
  · exact absurd hlocal hremote
  · rw [localCollision] at h
    split_ifs at h with hknown
    exact hknown

/-- An accepted compound begins with a report. -/
theorem first_of_accepted (hlen : len + 2 ^ 18 < 2 ^ 32)
    (haccept : RTCPCompoundHandler.checkCompoundRTCPHeader buf len = some true) :
    0 < len ∧ (type buf 0 = tSR ∨ type buf 0 = tRR) := by
  obtain ⟨ok, hok, hiff⟩ := RTCPCompoundHandler.checkCompoundRTCPHeader_eq buf hlen
  rw [haccept, Option.some_inj] at hok
  rcases hiff.mp hok.symm with ⟨p, ps, hsplits, hstarts, -⟩ | ⟨p, ps, last, hsplits, hstarts, -⟩
  · obtain ⟨hpos, htype⟩ := type_of_splits hsplits
    rw [htype]
    exact ⟨hpos, hstarts.2.2⟩
  · obtain ⟨hpos, htype⟩ := type_of_splits hsplits
    rw [htype]
    exact ⟨hpos, hstarts.2.2⟩

end QueueRTCPManager

/-! ## Compounds that are received -/

/-- The octets of a compound, with where it comes from and when it arrives.  The buffer for them
is of the size of the path MTU, a `uint16`. -/
structure ReceivedCompound where
  buf : Memory
  len : ℕ
  networkAddress : InetAddress
  transportPort : BitVec 16
  time : Timeval
  short : len < 2 ^ 16

namespace QueueRTCPManager

/-- The compound is taken in when it arrives. -/
def receive (rounds : ℕ) (m : QueueRTCPManager) (c : ReceivedCompound) : Option QueueRTCPManager :=
  (takeInControlPacket rounds { m with clock := c.time } c.buf c.len c.networkAddress
    c.transportPort).map Walk.manager

/-- The same, and something is noted down about the compound. -/
def receiveNoting {β : Type*} (note : QueueRTCPManager → ReceivedCompound → List β) (rounds : ℕ)
    (s : QueueRTCPManager × List β) (c : ReceivedCompound) : Option (QueueRTCPManager × List β) :=
  (receive rounds s.1 c).map (fun m => (m, s.2 ++ note s.1 c))

/-- A compound that is not accepted changes nothing. -/
theorem receive_of_rejected {rounds : ℕ} {m m' : QueueRTCPManager} {c : ReceivedCompound}
    (h : receive rounds m c = some m')
    (hreject : RTCPCompoundHandler.checkCompoundRTCPHeader c.buf c.len ≠ some true) :
    m' = { m with clock := c.time } := by
  obtain ⟨w, hw, rfl⟩ := Option.map_eq_some_iff.mp h
  rw [takeInControlPacket] at hw
  obtain ⟨ok, hok, hwalk⟩ := Option.bind_eq_some_iff.mp hw
  cases ok with
  | true => exact absurd hok hreject
  | false =>
      cases hwalk
      rfl

end QueueRTCPManager
