/-
# SRTP replay protection and index synchronisation over whole runs

Runs of a receiver's `CryptoContext` under packets that arrive in any order.  Packets
are known here by their true 48-bit index; the context only ever sees the sequence
number, the low half of it.

`Receiver` is the context with the list of indices accepted so far as history;
`Receiver.present` is one packet (`checkReplay`, then `update` if the packet passed
and is authentic).  `Synced` is the invariant: the stored pair is the highest accepted
index and the replay window marks the accepted ones below it.

The late branch of `update` shifts by a negative count, its forward branch by the
whole jump, and `checkReplay` shifts by 64 at the far edge of the window.
`StaysInWindow` says that none of these happens, and `replayProtected_iff` that the
replay protection is exact just as long.

`Delivery` and `synchronised_iff` do the same for the pair `(roc, s_l)`: a late packet
from before a sequence-number wrap that passes the replay check replaces `s_l`.

`roc_moves_by_at_most_one_iff` says what `update` does to the rollover counter alone.
-/
import CcRtp.CryptoContext
import CcRtp.AlongRun

open CryptoContext

/-! ## Runs of presented packets -/

/-- A packet as presented to the receiver: its true index, and whether its
authentication tag will turn out right. -/
structure Presented where
  index : ℕ
  authentic : Bool
  deriving DecidableEq, Repr

/-- A receiver: its context, and as history the indices accepted so far. -/
structure Receiver where
  ctx : CryptoContext
  accepted : List ℕ

namespace Receiver

variable (T : ShiftUnit)

/-- The answer of `checkReplay` to the packet. -/
def accepts (r : Receiver) (p : Presented) : Bool := (r.ctx.checkReplay T (seqOf p.index)).1

/-- One packet: `checkReplay`, and `update` if it accepts and the packet is
authentic. -/
def present (r : Receiver) (p : Presented) : Receiver :=
  let ctx := (r.ctx.checkReplay T (seqOf p.index)).2
  if r.accepts T p && p.authentic then
    ⟨ctx.update T (seqOf p.index), p.index :: r.accepted⟩
  else ⟨ctx, r.accepted⟩

/-- The shift counts used on the replay window for the packet. -/
def shifts (r : Receiver) (p : Presented) : List ℤ :=
  r.ctx.checkReplayShifts (seqOf p.index) ++
    if r.accepts T p && p.authentic then
      (r.ctx.checkReplay T (seqOf p.index)).2.updateShifts (seqOf p.index)
    else []

/-- The packet's index has 48 bits and lies within `2^15 - 1` of the highest index
accepted so far; the first one has the context's rollover counter. -/
def InReach (r : Receiver) (p : Presented) : Prop :=
  p.index < 2 ^ 48 ∧
    match r.accepted.max? with
    | none => p.index / 2 ^ 16 = r.ctx.roc.toNat
    | some h => h < p.index + 2 ^ 15 ∧ p.index < h + 2 ^ 15

/-- **The property of one packet**: `checkReplay` accepts it exactly if it lies above
the highest accepted index, or at most 63 below it and was not accepted before; and
every shift count used lies in `0..63`. -/
def ReplayProtected (r : Receiver) (p : Presented) : Prop :=
  (r.accepts T p = true ↔ Acceptable 64 r.accepted p.index) ∧
    ∀ c ∈ r.shifts T p, 0 ≤ c ∧ c ≤ 63

/-- The packet is not exactly 64 below the highest accepted index; and if it is
authentic, it is at most 63 above it, and when it is 1 to 63 below it was accepted
before. -/
def StaysInWindow (r : Receiver) (p : Presented) : Prop :=
  match r.accepted.max? with
  | none => True
  | some h => p.index + 64 ≠ h ∧
      (p.authentic = true → p.index ≤ h + 63 ∧
        (p.index < h → h ≤ p.index + 63 → p.index ∈ r.accepted))

instance (r : Receiver) (p : Presented) : Decidable (r.InReach p) :=
  match hm : r.accepted.max? with
  | none => decidable_of_iff (p.index < 2 ^ 48 ∧ p.index / 2 ^ 16 = r.ctx.roc.toNat)
      (by rw [InReach, hm])
  | some h => decidable_of_iff
      (p.index < 2 ^ 48 ∧ h < p.index + 2 ^ 15 ∧ p.index < h + 2 ^ 15) (by rw [InReach, hm])

instance (r : Receiver) (p : Presented) : Decidable (r.StaysInWindow p) :=
  match hm : r.accepted.max? with
  | none => decidable_of_iff True (by rw [StaysInWindow, hm])
  | some h => decidable_of_iff (p.index + 64 ≠ h ∧ (p.authentic = true → p.index ≤ h + 63 ∧
      (p.index < h → h ≤ p.index + 63 → p.index ∈ r.accepted))) (by rw [StaysInWindow, hm])

instance (r : Receiver) (p : Presented) : Decidable (r.ReplayProtected T p) :=
  inferInstanceAs (Decidable (_ ∧ _))

/-- **The invariant**: the context stores the highest accepted index, and its window
marks the accepted ones below it. -/
structure Synced (r : Receiver) (h : ℕ) : Prop where
  policy : r.ctx.nullPolicy = false
  set : r.ctx.seqNumSet = true
  index : r.ctx.index = h
  highest : r.accepted.max? = some h
  marks : Marks r.ctx.replayWindow h r.accepted
  nodup : r.accepted.Nodup

namespace Synced

variable {T} {r : Receiver} {h : ℕ}

theorem mem (hs : r.Synced h) : h ∈ r.accepted :=
  (List.max?_eq_some_iff.mp hs.highest).1

theorem le (hs : r.Synced h) : ∀ a ∈ r.accepted, a ≤ h :=
  (List.max?_eq_some_iff.mp hs.highest).2

theorem near {p : Presented} (hs : r.Synced h) (hp : r.InReach p) :
    p.index < 2 ^ 48 ∧ r.ctx.index < p.index + 2 ^ 15 ∧ p.index < r.ctx.index + 2 ^ 15 := by
  obtain ⟨hlt, hmatch⟩ := hp
  rw [hs.highest] at hmatch
  rw [hs.index]
  exact ⟨hlt, hmatch⟩

/-- What `checkReplay` answers and leaves behind in a synchronised state. -/
theorem checkReplay_eq (hs : r.Synced h) {p : Presented} (hp : r.InReach p) :
    r.ctx.checkReplay T (seqOf p.index)
      = (decide (h < p.index ∨ (h ≤ p.index + 64
            ∧ T.shr64 r.ctx.replayWindow ((h : ℤ) - p.index) &&& 0x1 = 0)),
          r.ctx.setGuessedRoc (BitVec.ofNat 32 (p.index / 2 ^ 16))) := by
  obtain ⟨hlt, hnear⟩ := hs.near hp
  rw [checkReplay_near T hs.policy hs.set hlt hnear, hs.index]

/-- Within the window the answer is whether the index is new. -/
theorem accepts_iff (hs : r.Synced h) {p : Presented} (hp : r.InReach p)
    (hedge : p.index + 64 ≠ h) :
    r.accepts T p = true ↔ h < p.index ∨ (p.index ∉ r.accepted ∧ h < p.index + 64) := by
  rw [accepts, hs.checkReplay_eq hp, decide_eq_true_iff]
  by_cases hahead : h < p.index
  · simp [hahead]
  by_cases hold : h ≤ p.index + 64
  · have hcast : (h : ℤ) - p.index = ((h - p.index : ℕ) : ℤ) := by omega
    have hbit := hs.marks.bit_clear (k := h - p.index) (by omega) (by omega)
    rw [show h - (h - p.index) = p.index by omega] at hbit
    rw [hcast, T.shr64_of_lt _ _ (by omega)]
    simp only [BitVec.ofNat_eq_ofNat] at hbit ⊢
    rw [hbit]
    constructor
    · rintro (hc | ⟨-, hnew⟩)
      · omega
      · exact Or.inr ⟨hnew, by omega⟩
    · rintro (hc | ⟨hnew, -⟩)
      · omega
      · exact Or.inr ⟨hold, hnew⟩
  · constructor
    · rintro (hc | ⟨hc, -⟩) <;> omega
    · rintro (hc | ⟨-, hc⟩) <;> omega

/-- The shift counts of the packet. -/
theorem shifts_eq (hs : r.Synced h) {p : Presented} (hp : r.InReach p) :
    r.shifts T p = (if p.index ≤ h ∧ h ≤ p.index + 64 then [(h : ℤ) - p.index] else []) ++
      if r.accepts T p && p.authentic then [(p.index : ℤ) - h] else [] := by
  obtain ⟨hlt, hnear⟩ := hs.near hp
  have hdelta : (r.ctx.checkReplay T (seqOf p.index)).2.updateShifts (seqOf p.index)
      = [(p.index : ℤ) - h] := by
    rw [hs.checkReplay_eq hp, updateShifts, guessDelta_near (by simpa using hs.set) hlt
      (by simpa using hnear), setGuessedRoc_index, hs.index]
  rw [shifts, hdelta, checkReplayShifts_near hs.policy hs.set hlt hnear, hs.index]

/-- **Exactness of one step**: the packet is handled as it should be exactly if it
stays in the window. -/
theorem replayProtected_iff (hs : r.Synced h) {p : Presented} (hp : r.InReach p) :
    r.ReplayProtected T p ↔ r.StaysInWindow p := by
  have hstay : r.StaysInWindow p ↔ p.index + 64 ≠ h ∧
      (p.authentic = true → p.index ≤ h + 63 ∧
        (p.index < h → h ≤ p.index + 63 → p.index ∈ r.accepted)) := by
    rw [StaysInWindow, hs.highest]
  rw [hstay, ReplayProtected, acceptable_iff_of_max hs.mem hs.le, hs.shifts_eq hp]
  by_cases hedge : p.index + 64 = h
  · -- the far edge: the check itself shifts by 64
    rw [if_pos (by omega)]
    constructor
    · rintro ⟨-, hshift⟩
      have := hshift ((h : ℤ) - p.index) (by simp)
      omega
    · rintro ⟨hne, -⟩
      exact absurd hedge hne
  have hacc := hs.accepts_iff (T := T) hp hedge
  simp only [hacc, true_and, ne_eq, hedge, not_false_eq_true]
  by_cases hup : r.accepts T p && p.authentic
  · -- `update` is called: its count is the whole distance, with its sign
    rw [if_pos hup]
    obtain ⟨hok, hauth⟩ := Bool.and_eq_true_iff.mp hup
    have hcase := hacc.mp hok
    simp only [hauth, forall_const, List.mem_append, List.mem_singleton]
    constructor
    · intro hshift
      have hdelta := hshift ((p.index : ℤ) - h) (Or.inr rfl)
      exact ⟨by omega, fun hlt _ => by omega⟩
    · rintro ⟨hle, hlate⟩ c (hc | rfl)
      · split_ifs at hc with hin
        · simp only [List.mem_singleton] at hc
          omega
        · simp at hc
      · rcases hcase with hahead | ⟨hnew, hin⟩
        · omega
        · -- a new index below the head would have to be an accepted one
          have hpos : p.index = h ∨ h < p.index := by
            by_contra hneg
            exact hnew (hlate (by omega) (by omega))
          rcases hpos with heq | hgt <;> omega
  · -- only the check shifts, and by less than 64
    rw [if_neg hup, List.append_nil]
    constructor
    · intro _ hauth
      have hno : ¬ r.accepts T p = true := fun hok => hup (by rw [hok, hauth]; rfl)
      rw [hacc] at hno
      refine ⟨by omega, fun hlt hin => ?_⟩
      by_contra hnew
      exact hno (Or.inr ⟨hnew, by omega⟩)
    · intro _ c hc
      split_ifs at hc with hin
      · simp only [List.mem_singleton] at hc
        omega
      · simp at hc

/-- A step that stays in the window keeps the invariant. -/
theorem present (hs : r.Synced h) {p : Presented} (hp : r.InReach p)
    (hstay : r.StaysInWindow p) : ∃ h', (r.present T p).Synced h' := by
  obtain ⟨hlt, hnear⟩ := hs.near hp
  rw [StaysInWindow, hs.highest] at hstay
  obtain ⟨hedge, hstay⟩ := hstay
  have hacc := hs.accepts_iff (T := T) hp hedge
  rw [Receiver.present, hs.checkReplay_eq hp]
  simp only
  split_ifs with hup
  · obtain ⟨hok, hauth⟩ := Bool.and_eq_true_iff.mp hup
    obtain ⟨hle, hlate⟩ := hstay hauth
    -- a new index within the window is not late, so the head moves to it
    have hahead : h < p.index := by
      rcases hacc.mp hok with hahead | ⟨hnew, hin⟩
      · exact hahead
      · by_contra hneg
        rcases lt_or_eq_of_le (not_lt.mp hneg) with hlt' | heq
        · exact hnew (hlate hlt' (by omega))
        · exact hnew (heq ▸ hs.mem)
    set ctx := r.ctx.setGuessedRoc (BitVec.ofNat 32 (p.index / 2 ^ 16)) with hctx
    have hidx : ctx.index = h := hs.index
    have hset : ctx.seqNumSet = true := hs.set
    have hupd := update_near T hset hlt hnear (advance_ahead ctx hlt hnear.2 (by omega))
    refine ⟨p.index, ?_⟩
    rw [hupd]
    refine ⟨hs.policy, hs.set, ?_, ?_, ?_, ?_⟩
    · show (BitVec.ofNat 32 (p.index / 2 ^ 16)).toNat * 2 ^ 16 + (seqOf p.index).toNat = p.index
      rw [toNat_seqOf, BitVec.toNat_ofNat]
      omega
    · rw [List.max?_eq_some_iff]
      refine ⟨List.mem_cons_self, fun b hb => ?_⟩
      rcases List.mem_cons.mp hb with rfl | hb
      · exact le_refl _
      · exact le_of_lt (lt_of_le_of_lt (hs.le b hb) hahead)
    · have hcast : (p.index : ℤ) - ctx.index = ((p.index - h : ℕ) : ℤ) := by omega
      have hadv := hs.marks.advance hs.le (d := p.index - h) (by omega)
      rw [show h + (p.index - h) = p.index by omega] at hadv
      show Marks (shiftWindow T r.ctx.replayWindow ((p.index : ℤ) - ctx.index)) p.index _
      rw [shiftWindow, if_pos (by omega), hcast, T.shl64_of_lt _ _ (by omega)]
      exact hadv
    · refine List.nodup_cons.mpr ⟨fun hmem => ?_, hs.nodup⟩
      have := hs.le _ hmem
      omega
  · exact ⟨h, hs.policy, hs.set, hs.index, hs.highest, hs.marks, hs.nodup⟩

end Synced

/-- The receiver is in step with the packets accepted so far. -/
def InSync (r : Receiver) : Prop := ∃ h, r.Synced h

/-- The first packet, if authentic, is accepted and brings the receiver in step. -/
theorem present_first {ctx : CryptoContext} (hpol : ctx.nullPolicy = false) (hf : ctx.Fresh)
    {p : Presented} (hp : (⟨ctx, []⟩ : Receiver).InReach p) (hauth : p.authentic = true) :
    (⟨ctx, []⟩ : Receiver).ReplayProtected T p ∧
      ((⟨ctx, []⟩ : Receiver).present T p).Synced p.index := by
  obtain ⟨hlt, hroc⟩ := hp
  obtain ⟨hcheck, hshifts⟩ := checkReplay_first (T := T) hpol hf hlt hroc
  obtain ⟨hupd, hupdshifts⟩ := update_first (T := T) hf hlt hroc
  have hok : (⟨ctx, []⟩ : Receiver).accepts T p = true := by
    rw [accepts, hcheck]
  constructor
  · refine ⟨⟨fun _ => Or.inl (by simp), fun _ => hok⟩, ?_⟩
    intro c hc
    rw [shifts, hok, hauth, hcheck, hshifts, hupdshifts] at hc
    simp only [Bool.and_self, if_true, List.mem_append, List.mem_singleton] at hc
    omega
  · rw [present, hok, hauth, hcheck]
    simp only [Bool.and_self, if_true]
    rw [hupd]
    exact ⟨hpol, rfl, firstSeen_index hroc, by simp, marks_one p.index, by simp⟩

end Receiver

/-- **Replay protection over whole runs.**  For packets in any order whose indices stay
within reach, the first of them authentic: every packet is handled as replay protection
asks for, with all shift counts in `0..63`, exactly if every packet stays in the window;
and then no index is accepted twice. -/
theorem replay_protection_exact (T : ShiftUnit) {ctx : CryptoContext}
    (hpol : ctx.nullPolicy = false) (hf : ctx.Fresh) (l : List Presented)
    (hreach : AlongRun (Receiver.present T) Receiver.InReach ⟨ctx, []⟩ l)
    (hfirst : ∀ p ∈ l.head?, p.authentic = true) :
    (AlongRun (Receiver.present T) (Receiver.ReplayProtected T) ⟨ctx, []⟩ l ↔
        AlongRun (Receiver.present T) Receiver.StaysInWindow ⟨ctx, []⟩ l) ∧
      (AlongRun (Receiver.present T) Receiver.StaysInWindow ⟨ctx, []⟩ l →
        (l.foldl (Receiver.present T) ⟨ctx, []⟩).accepted.Nodup) := by
  cases l with
  | nil => exact ⟨Iff.rfl, fun _ => List.nodup_nil⟩
  | cons p l =>
      -- the first packet brings the receiver in step, the rules for runs do the rest
      obtain ⟨hp, hl⟩ := hreach
      obtain ⟨hprot, hsync⟩ := Receiver.present_first T hpol hf hp (hfirst p rfl)
      have hstay : (⟨ctx, []⟩ : Receiver).StaysInWindow p := trivial
      have hkeep : ∀ (r : Receiver) (q : Presented), r.InSync → r.InReach q → r.StaysInWindow q →
          (r.present T q).InSync := fun r q ⟨_, hs⟩ hq hw => hs.present hq hw
      have hinit : ((⟨ctx, []⟩ : Receiver).present T p).InSync := ⟨p.index, hsync⟩
      constructor
      · have hrun := alongRun_iff_of_invariant
          (fun r q ⟨_, hs⟩ hq => hs.replayProtected_iff (T := T) hq) hkeep hinit hl
        exact ⟨fun h => ⟨hstay, hrun.mp h.2⟩, fun h => ⟨hprot, hrun.mpr h.2⟩⟩
      · rintro ⟨-, hw⟩
        obtain ⟨h, hs⟩ := foldl_of_invariant (fun r q hr hq => hkeep r q hr hq.1 hq.2) hinit
          (hl.and hw)
        exact hs.nodup

/-- The theorem at a run with a jump inside the window, a replay, a forged packet and a
packet that is too old. -/
theorem replay_protection_exact_inWindow :
    AlongRun (Receiver.present .x86) (Receiver.ReplayProtected .x86)
      ⟨aesCmSha1 0x1122 0, []⟩
      [⟨100, true⟩, ⟨103, true⟩, ⟨100, true⟩, ⟨90, false⟩, ⟨20, true⟩] :=
  (replay_protection_exact .x86 (by decide) (new_fresh _ _ _ _ _ _ _ _ _ _ _ _) _
    (by decide) (by decide)).1.mpr (by decide)

/-- **A late packet is accepted twice.**  On x86-64 the packets 100, 99 and 99 again are
all accepted: `update` shifts by `-1` and sets a bit far up in the window instead of the
one of index 99. -/
theorem late_packet_accepted_twice :
    (aesCmSha1 0x1122 0).nullPolicy = false ∧ (aesCmSha1 0x1122 0).Fresh ∧
      AlongRun (Receiver.present .x86) Receiver.InReach ⟨aesCmSha1 0x1122 0, []⟩
        [⟨100, true⟩, ⟨99, true⟩, ⟨99, true⟩] ∧
      ¬ AlongRun (Receiver.present .x86) (Receiver.ReplayProtected .x86)
        ⟨aesCmSha1 0x1122 0, []⟩ [⟨100, true⟩, ⟨99, true⟩, ⟨99, true⟩] ∧
      ([⟨100, true⟩, ⟨99, true⟩, ⟨99, true⟩].foldl (Receiver.present .x86)
        ⟨aesCmSha1 0x1122 0, []⟩).accepted = [99, 99, 100] := by
  refine ⟨by decide, new_fresh _ _ _ _ _ _ _ _ _ _ _ _, by decide, by decide, by decide⟩

/-! ## Synchronisation of the index -/

/-- A receiver of authentic packets: its context, and as history the indices delivered
so far. -/
structure Delivery where
  ctx : CryptoContext
  delivered : List ℕ

namespace Delivery

variable (T : ShiftUnit)

/-- The answer of `checkReplay` to the packet with index `i`. -/
def accepts (d : Delivery) (i : ℕ) : Bool := (d.ctx.checkReplay T (seqOf i)).1

/-- What `guessIndex` returns for the packet, after the replay check. -/
def guess (d : Delivery) (i : ℕ) : BitVec 64 × CryptoContext :=
  (d.ctx.checkReplay T (seqOf i)).2.guessIndex (seqOf i)

/-- One authentic packet, as `unprotect` handles it: `checkReplay`, `guessIndex`,
`update`; a packet that fails the replay check goes no further. -/
def deliver (d : Delivery) (i : ℕ) : Delivery :=
  ⟨if d.accepts T i then (d.guess T i).2.update T (seqOf i)
    else (d.ctx.checkReplay T (seqOf i)).2, i :: d.delivered⟩

/-- The packet's index has 48 bits and lies within `2^15 - 1` of the highest index
delivered so far; the first one has the context's rollover counter. -/
def InReach (d : Delivery) (i : ℕ) : Prop :=
  i < 2 ^ 48 ∧
    match d.delivered.max? with
    | none => i / 2 ^ 16 = d.ctx.roc.toNat
    | some h => h < i + 2 ^ 15 ∧ i < h + 2 ^ 15

/-- **The property of one packet**: its index is guessed right, and afterwards the pair
`(roc, s_l)` is the maximum of the delivered indices. -/
def Synchronised (d : Delivery) (i : ℕ) : Prop :=
  (d.guess T i).1 = BitVec.ofNat 64 i ∧
    (i :: d.delivered).max? = some (d.deliver T i).ctx.index

/-- The packet is not one from an earlier rollover period that passes the replay
check. -/
def NotFromBeforeWrap (d : Delivery) (i : ℕ) : Prop :=
  ∀ h ∈ d.delivered.max?, d.accepts T i = true → h / 2 ^ 16 ≤ i / 2 ^ 16

instance (d : Delivery) (i : ℕ) : Decidable (d.InReach i) :=
  match hm : d.delivered.max? with
  | none => decidable_of_iff (i < 2 ^ 48 ∧ i / 2 ^ 16 = d.ctx.roc.toNat) (by rw [InReach, hm])
  | some h => decidable_of_iff (i < 2 ^ 48 ∧ h < i + 2 ^ 15 ∧ i < h + 2 ^ 15)
      (by rw [InReach, hm])

instance (d : Delivery) (i : ℕ) : Decidable (d.Synchronised T i) :=
  inferInstanceAs (Decidable (_ ∧ _))

instance (d : Delivery) (i : ℕ) : Decidable (d.NotFromBeforeWrap T i) :=
  inferInstanceAs (Decidable (∀ h ∈ d.delivered.max?, _))

/-- **The invariant**: nothing was delivered yet, or the context stores the highest
delivered index. -/
def HoldsMaximum (d : Delivery) : Prop :=
  (d.delivered = [] ∧ d.ctx.Fresh) ∨
    (d.ctx.seqNumSet = true ∧ d.delivered.max? = some d.ctx.index)

variable {T} {d : Delivery} {i : ℕ}

/-- The maximum after one more index. -/
theorem max?_cons_of_some {l : List ℕ} {h : ℕ} (hmax : l.max? = some h) (i : ℕ) :
    (i :: l).max? = some (max i h) := by
  rw [List.max?_cons, hmax]
  rfl

/-- A packet in order is delivered in step. -/
theorem deliver_awaited (h : d.ctx.Awaits i) :
    d.accepts T i = true ∧ (d.guess T i).1 = BitVec.ofNat 64 i ∧
      (d.deliver T i).ctx.seqNumSet = true ∧ (d.deliver T i).ctx.index = i := by
  obtain ⟨hok, ctx₁, hguess, -, hidx⟩ := h.accept (T := T)
  have hok' : d.accepts T i = true := hok
  rw [deliver, if_pos hok', guess, hguess]
  exact ⟨hok', rfl, update_seqNumSet T _ _, hidx⟩

/-- The first packet is one in order. -/
theorem awaits_first (hf : d.ctx.Fresh) (hnil : d.delivered = []) (hi : d.InReach i) :
    d.ctx.Awaits i := by
  obtain ⟨hlt, hroc⟩ := hi
  rw [hnil, List.max?_nil] at hroc
  exact ⟨hlt, Or.inl ⟨hf, hroc⟩⟩

/-- In a context that has seen a packet, guessing after the replay check. -/
theorem guess_of_set (hset : d.ctx.seqNumSet = true) (hlt : i < 2 ^ 48)
    (hnear : d.ctx.index < i + 2 ^ 15 ∧ i < d.ctx.index + 2 ^ 15) :
    d.guess T i
      = (BitVec.ofNat 64 i, d.ctx.setGuessedRoc (BitVec.ofNat 32 (i / 2 ^ 16))) := by
  obtain ⟨g, hg⟩ := checkReplay_snd_of_set T hset (seqOf i)
  rw [guess, hg, guessIndex_setGuessedRoc]
  exact guessIndex_near hset hlt hnear

/-- **One packet in a state that holds the maximum**: the property, the condition and
the invariant afterwards go together. -/
theorem synchronised_iff_step (hset : d.ctx.seqNumSet = true)
    (hmax : d.delivered.max? = some d.ctx.index) (hi : d.InReach i) :
    (d.Synchronised T i ↔ d.NotFromBeforeWrap T i) ∧ (d.deliver T i).ctx.seqNumSet = true := by
  obtain ⟨hlt, hnear⟩ := hi
  rw [hmax] at hnear
  have hguess : d.guess T i = _ := guess_of_set hset hlt hnear
  have hcond : d.NotFromBeforeWrap T i ↔
      (d.accepts T i = true → d.ctx.index / 2 ^ 16 ≤ i / 2 ^ 16) := by
    unfold NotFromBeforeWrap
    rw [hmax]
    constructor
    · intro h
      exact h _ rfl
    · rintro h _ ⟨⟩
      exact h
  rw [hcond, Synchronised, deliver, hguess, max?_cons_of_some hmax]
  simp only [true_and]
  by_cases hok : d.accepts T i = true
  · rw [if_pos hok, update_setGuessedRoc]
    refine ⟨?_, update_seqNumSet T _ _⟩
    by_cases hahead : d.ctx.index < i
    · rw [index_update_ahead T hset hlt hnear.2 hahead, max_eq_left hahead.le]
      refine ⟨fun _ _ => Nat.div_le_div_right hahead.le, fun _ => rfl⟩
    · have hle : i ≤ d.ctx.index := not_lt.mp hahead
      have hupd := index_update_not_ahead T hset hnear.1 hle
      rw [max_eq_right hle, Option.some_inj, eq_comm, hupd]
      exact ⟨fun h _ => h, fun h => h hok⟩
  · -- a packet that fails the check is not ahead, and nothing is updated
    obtain ⟨g, hg⟩ := checkReplay_snd_of_set T hset (seqOf i)
    have hle : i ≤ d.ctx.index := by
      by_contra hahead
      have hawaits : d.ctx.Awaits i := ⟨hlt, Or.inr ⟨hset, not_le.mp hahead, hnear.2⟩⟩
      exact hok (deliver_awaited hawaits).1
    rw [if_neg hok, hg, setGuessedRoc_index, max_eq_right hle]
    exact ⟨⟨fun _ h => absurd h hok, fun _ => rfl⟩, hset⟩

/-- **One packet**: under the invariant the property is the condition. -/
theorem synchronised_iff (hd : d.HoldsMaximum) (hi : d.InReach i) :
    d.Synchronised T i ↔ d.NotFromBeforeWrap T i := by
  rcases hd with ⟨hnil, hf⟩ | ⟨hset, hmax⟩
  · obtain ⟨-, hguess, -, hidx⟩ := deliver_awaited (T := T) (awaits_first hf hnil hi)
    refine ⟨fun _ h hh => ?_, fun _ => ⟨hguess, ?_⟩⟩
    · rw [hnil] at hh
      exact absurd hh (by simp)
    · rw [hidx, hnil]
      rfl
  · exact (synchronised_iff_step hset hmax hi).1

/-- A packet that meets the condition keeps the invariant. -/
theorem HoldsMaximum.deliver (hd : d.HoldsMaximum) (hi : d.InReach i)
    (hcond : d.NotFromBeforeWrap T i) : (d.deliver T i).HoldsMaximum := by
  have hmax := ((synchronised_iff hd hi).mpr hcond).2
  refine Or.inr ⟨?_, hmax⟩
  rcases hd with ⟨hnil, hf⟩ | ⟨hset, hmax⟩
  · exact (deliver_awaited (awaits_first hf hnil hi)).2.2.1
  · exact (synchronised_iff_step hset hmax hi).2

end Delivery

/-- **The index stays synchronised over whole runs** of authentic packets, delivered in
any order within reach, exactly as long as no packet from before a sequence-number wrap
passes the replay check after one from behind the wrap. -/
theorem index_synchronised_exact (T : ShiftUnit) {ctx : CryptoContext} (hf : ctx.Fresh)
    (l : List ℕ) (hreach : AlongRun (Delivery.deliver T) Delivery.InReach ⟨ctx, []⟩ l) :
    AlongRun (Delivery.deliver T) (Delivery.Synchronised T) ⟨ctx, []⟩ l ↔
      AlongRun (Delivery.deliver T) (Delivery.NotFromBeforeWrap T) ⟨ctx, []⟩ l := by
  have hinit : (⟨ctx, []⟩ : Delivery).HoldsMaximum := Or.inl ⟨rfl, hf⟩
  have hiff : ∀ (d : Delivery) (i : ℕ), d.HoldsMaximum → d.InReach i →
      (d.Synchronised T i ↔ d.NotFromBeforeWrap T i) := fun d i => Delivery.synchronised_iff
  have hkeep : ∀ (d : Delivery) (i : ℕ), d.HoldsMaximum → d.InReach i →
      d.NotFromBeforeWrap T i → (d.deliver T i).HoldsMaximum := fun d i => .deliver
  exact alongRun_iff_of_invariant hiff hkeep hinit hreach

/-- The theorem at a run that crosses a wrap and reorders on its far side. -/
theorem index_synchronised_exact_wrap :
    AlongRun (Delivery.deliver .x86) (Delivery.Synchronised .x86) ⟨aesCmSha1 0x1122 0, []⟩
      [65530, 65535, 65538, 65536, 65540] :=
  (index_synchronised_exact .x86 (new_fresh _ _ _ _ _ _ _ _ _ _ _ _) _
    (by decide)).mpr (by decide)

/-- **A late packet from before a wrap moves `s_l`.**  After 65535 and 65537 the stored
pair is `(1, 1)`; the late 65534 makes it `(1, 65534)`, and the next packet is taken for
one of the third period. -/
theorem late_packet_moves_s_l :
    (aesCmSha1 0x1122 0).Fresh ∧
      AlongRun (Delivery.deliver .x86) Delivery.InReach ⟨aesCmSha1 0x1122 0, []⟩
        [65535, 65537, 65534, 65538] ∧
      ([65535, 65537, 65534].foldl (Delivery.deliver .x86) ⟨aesCmSha1 0x1122 0, []⟩).ctx.index
        = 2 * 65536 - 2 ∧
      ¬ AlongRun (Delivery.deliver .x86) (Delivery.Synchronised .x86) ⟨aesCmSha1 0x1122 0, []⟩
        [65535, 65537, 65534, 65538] := by
  refine ⟨new_fresh _ _ _ _ _ _ _ _ _ _ _ _, by decide, by decide, by decide⟩

/-! ## The rollover counter -/

namespace CryptoContext

variable {T : ShiftUnit} {ctx : CryptoContext} {newSeqNb : BitVec 16}

/-- The sequence number is more than half a period ahead, so it is taken for a late one of the
period before. -/
def TakenForLate (ctx : CryptoContext) (newSeqNb : BitVec 16) : Prop :=
  ctx.sL.toNat < 32768 ∧ (newSeqNb.toNat : ℤ) - ctx.sL.toNat > 32768

/-- `update` stores a guess that is greater as a number. -/
theorem update_roc (hset : ctx.seqNumSet = true) : (ctx.update T newSeqNb).roc
    = if guessRoc ctx.roc ctx.sL newSeqNb > ctx.roc then guessRoc ctx.roc ctx.sL newSeqNb
      else ctx.roc := by
  rw [update, guessIndex_of_set hset]
  unfold advance
  exact apply_ite Prod.fst ..

/-- Where the counter is guessed to be. -/
theorem guessRoc_cases (ctx : CryptoContext) (newSeqNb : BitVec 16) :
    (ctx.TakenForLate newSeqNb ∧ guessRoc ctx.roc ctx.sL newSeqNb = ctx.roc - 1) ∨
      (¬ ctx.TakenForLate newSeqNb ∧ (guessRoc ctx.roc ctx.sL newSeqNb = ctx.roc ∨
        guessRoc ctx.roc ctx.sL newSeqNb = ctx.roc + 1)) := by
  unfold guessRoc TakenForLate
  split_ifs with hhalf hlate hbehind
  · exact Or.inl ⟨⟨hhalf, hlate⟩, rfl⟩
  · exact Or.inr ⟨fun h => hlate h.2, Or.inl rfl⟩
  · exact Or.inr ⟨fun h => hhalf h.1, Or.inr rfl⟩
  · exact Or.inr ⟨fun h => hhalf h.1, Or.inl rfl⟩

/-- The counter before is a greater number only behind the start. -/
theorem sub_one_gt_iff (roc : BitVec 32) : roc - 1 > roc ↔ roc = 0 := by
  have hlt := roc.isLt
  have hone : (1 : BitVec 32).toNat = 1 := rfl
  have hzero : (0 : BitVec 32).toNat = 0 := rfl
  rw [gt_iff_lt, BitVec.lt_def, ← BitVec.toNat_inj, BitVec.toNat_sub, hone, hzero]
  omega

/-- **The rollover counter moves by at most one**, unless it is at the start and the packet is
taken for one of the period before: then the wrapped guess is stored. -/
theorem roc_moves_by_at_most_one_iff (T : ShiftUnit) {ctx : CryptoContext}
    (hset : ctx.seqNumSet = true) (newSeqNb : BitVec 16) :
    ((((ctx.checkReplay T newSeqNb).2.update T newSeqNb).roc = ctx.roc ∨
      ((ctx.checkReplay T newSeqNb).2.update T newSeqNb).roc = ctx.roc + 1) ↔
        ¬ (ctx.roc = 0 ∧ ctx.TakenForLate newSeqNb)) := by
  obtain ⟨g, hg⟩ := checkReplay_snd_of_set T hset newSeqNb
  rw [hg, update_setGuessedRoc, update_roc hset]
  rcases guessRoc_cases ctx newSeqNb with ⟨hlate, hguess⟩ | ⟨hlate, hguess | hguess⟩
  · rw [hguess, and_iff_left hlate]
    by_cases hzero : ctx.roc = 0
    · rw [if_pos ((sub_one_gt_iff _).mpr hzero), hzero]
      decide
    · rw [if_neg (fun h => hzero ((sub_one_gt_iff _).mp h))]
      exact iff_of_true (Or.inl rfl) hzero
  · rw [hguess, ite_self]
    exact iff_of_true (Or.inl rfl) (fun h => hlate h.2)
  · rw [hguess]
    refine iff_of_true ?_ (fun h => hlate h.2)
    split_ifs
    · exact Or.inr rfl
    · exact Or.inl rfl

/-- A context that has seen 65530 in the first period, and a packet behind the wrap. -/
theorem roc_moves_by_at_most_one_wrap :
    ((({ aesCmSha1 0x1122 0 with seqNumSet := true, sL := 65530 } : CryptoContext).checkReplay
        .x86 3).2.update .x86 3).roc = 0 ∨
      ((({ aesCmSha1 0x1122 0 with seqNumSet := true, sL := 65530 } : CryptoContext).checkReplay
        .x86 3).2.update .x86 3).roc = 0 + 1 :=
  (@roc_moves_by_at_most_one_iff .x86 { aesCmSha1 0x1122 0 with seqNumSet := true, sL := 65530 }
    rfl 3).mpr (by unfold TakenForLate; decide)

/-- **The rollover counter jumps to its end.**  In the first period, 5 is the highest sequence
number and 65530 comes: the replay check accepts it, and the counter becomes `2 ^ 32 - 1`. -/
theorem roc_wraps_backwards :
    ∃ ctx : CryptoContext, ctx.seqNumSet = true ∧ ctx.nullPolicy = false ∧
      (ctx.checkReplay .x86 65530).1 = true ∧
      ((ctx.checkReplay .x86 65530).2.update .x86 65530).roc = 0xFFFFFFFF ∧
      ¬ (((ctx.checkReplay .x86 65530).2.update .x86 65530).roc = ctx.roc ∨
        ((ctx.checkReplay .x86 65530).2.update .x86 65530).roc = ctx.roc + 1) :=
  ⟨{ aesCmSha1 0x1122 0 with seqNumSet := true, sL := 5 }, by decide⟩

end CryptoContext
