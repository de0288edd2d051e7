/-
# Which packets the walk over a compound visits

`takeInControlPacket` passes a sender report, then receiver reports, then SDES and APP packets,
and looks for BYE packets behind them.  The offset is advanced in each of the loops by the
length field of the packet at it, and the header check has followed the same fields.

* `whileLoop_stretch` : a loop visits the packets of its types that stand at its offset;
* `walkReports_stretch` : the first two loops, one behind the other;
* `Walkable` : the packets that can be passed, as a grammar of their types;
* `takeInControlPacket_visits` : without a BYE packet in the way, the walk visits the longest
  walkable prefix of the compound, and leaves the rest to `onGotRRSRExtension`.
-/
import CcRtp.RtcpTermination

namespace RTCPPacket

/-! ## Packets one behind the other -/

/-- The type of a packet given as octets. -/
def typeOf (r : Octets) : UInt8 := type (.ofOctets r) 0

/-- Where packets stand that follow one another from `p` on. -/
def offsets (p : ℕ) : List Octets → List ℕ
  | [] => []
  | r :: rs => p :: offsets (p + r.length) rs

theorem offsets_append (p : ℕ) (ps qs : List Octets) :
    offsets p (ps ++ qs) = offsets p ps ++ offsets (p + ps.flatten.length) qs := by
  induction ps generalizing p with
  | nil => rfl
  | cons r ps ih =>
      rw [List.cons_append, offsets, offsets, ih, List.flatten_cons, List.length_append,
        Nat.add_assoc, List.cons_append]

/-- From one offset to another, packets of such types stand one behind the other, at the given
offsets. -/
def Stretch (buf : Memory) (ok : UInt8 → Prop) : ℕ → List ℕ → ℕ → Prop
  | p, [], q => p = q
  | p, o :: os, q => o = p ∧ ok (type buf p) ∧ Stretch buf ok (p + getLength buf p) os q

variable {buf : Memory} {ok : UInt8 → Prop} {p q n : ℕ} {os : List ℕ} {r : Octets}
  {rs ps rest : List Octets}

theorem Stretch.le (h : Stretch buf ok p os q) : p ≤ q := by
  induction os generalizing p with
  | nil => exact Nat.le_of_eq h
  | cons o os ih =>
      have hrest := ih h.2.2
      omega

/-- Every packet has a header of four octets. -/
theorem Stretch.length_le (h : Stretch buf ok p os q) : p + 4 * os.length ≤ q := by
  induction os generalizing p with
  | nil => exact Nat.le_of_eq h
  | cons o os ih =>
      have hrest := ih h.2.2
      have hfour := (getLength_bounds buf p).1
      rw [List.length_cons]
      omega

/-- The first of the packets. -/
theorem type_of_splits (h : Splits (buf.octets p n) (r :: rs)) : 0 < n ∧ type buf p = typeOf r := by
  obtain ⟨hle, rfl, -⟩ := (splits_cons_iff _ _ _ _ _).mp h
  have hfour := (getLength_bounds buf p).1
  refine ⟨by omega, ?_⟩
  rw [typeOf, type, type, octets_header buf p hfour 1 (by omega)]

/-- **Packets of some types at the front** are a stretch, and the others follow it. -/
theorem stretch_of_splits (ok : UInt8 → Prop) (h : Splits (buf.octets p n) (ps ++ rest))
    (hps : ∀ r ∈ ps, ok (typeOf r)) :
    Stretch buf ok p (offsets p ps) (p + ps.flatten.length) ∧ ps.flatten.length ≤ n ∧
      Splits (buf.octets (p + ps.flatten.length) (n - ps.flatten.length)) rest := by
  induction ps generalizing p n with
  | nil => exact ⟨rfl, Nat.zero_le n, h⟩
  | cons r ps ih =>
      rw [List.cons_append] at h
      have htype := (type_of_splits h).2
      obtain ⟨hle, hr, hrest⟩ := (splits_cons_iff _ _ _ _ _).mp h
      have hlen : r.length = getLength buf p := by
        rw [hr, Memory.length_octets]
      obtain ⟨hstretch, hfit, hbehind⟩ := ih hrest (fun r hr => hps r (List.mem_cons_of_mem _ hr))
      rw [List.flatten_cons, List.length_append, hlen, ← Nat.add_assoc, ← Nat.sub_sub]
      refine ⟨⟨rfl, ?_, ?_⟩, by omega, hbehind⟩
      · rw [htype]
        exact hps r List.mem_cons_self
      · rw [hlen]
        exact hstretch

/-- Behind a stretch of packets there is another one, or nothing. -/
theorem stops_of_splits (ok : UInt8 → Prop) (h : Splits (buf.octets p n) rest) (hp : p + n = q)
    (hstop : ∀ r, rest.head? = some r → ¬ ok (typeOf r)) : ¬ (p < q ∧ ok (type buf p)) := by
  rintro ⟨hlt, hok⟩
  cases rest with
  | nil =>
      have hzero := congrArg List.length ((splits_nil_iff _).mp h)
      rw [Memory.length_octets, List.length_nil] at hzero
      omega
  | cons r rs =>
      rw [(type_of_splits h).2] at hok
      exact hstop r rfl hok

end RTCPPacket

namespace QueueRTCPManager

open RTCPPacket

variable {buf : Memory} {len rounds : ℕ} {src : BitVec 32} {na : InetAddress} {tp : BitVec 16}

/-! ## The loops -/

theorem reportBody_eq_advance (buf : Memory) (src : BitVec 32) (na : InetAddress) (tp : BitVec 16)
    (w : Walk) : ∃ cname m, reportBody buf src na tp w = some (advance buf w cname m) :=
  ⟨_, _, reportBody_eq buf src na tp w⟩

theorem descriptionBody_eq_advance (hrounds : 2 ^ 18 ≤ rounds) (buf : Memory) (src : BitVec 32)
    (na : InetAddress) (tp : BitVec 16) (w : Walk) :
    ∃ cname m, descriptionBody rounds buf src na tp w = some (advance buf w cname m) := by
  obtain ⟨w', hw'⟩ := Option.isSome_iff_exists.mp (descriptionBody_isSome hrounds buf src na tp w)
  rw [hw']
  rw [descriptionBody_eq] at hw'
  split_ifs at hw'
  · obtain ⟨⟨cname, m'⟩, -, heq⟩ := Option.map_eq_some_iff.mp hw'
    exact ⟨_, _, congrArg some heq.symm⟩
  · exact ⟨_, _, hw'.symm⟩

/-- **A loop of the walk visits the packets that stand at its offset**, if their types are
those of the loop and the packet behind them is not of such a type. -/
theorem whileLoop_stretch {ok : UInt8 → Prop} {cond : Walk → Bool} {body : Walk → Option Walk}
    {os : List ℕ} {q : ℕ}
    (hcond : ∀ w, cond w = true ↔ w.pointer < len ∧ ok (type buf w.pointer))
    (hbody : ∀ w, ∃ cname m, body w = some (advance buf w cname m))
    (hq : q ≤ len) (hstop : ¬ (q < len ∧ ok (type buf q)))
    (rounds : ℕ) (hrounds : os.length ≤ rounds) (w : Walk) (h : Stretch buf ok w.pointer os q) :
    ∃ w', whileLoop cond body rounds w = some w' ∧ w'.pointer = q ∧
      w'.visited = w.visited ++ os := by
  induction os generalizing rounds w with
  | nil =>
      cases h
      have hfalse : cond w = false := by
        rw [← Bool.not_eq_true, hcond]
        exact hstop
      exact ⟨w, whileLoop_of_false hfalse rounds, rfl, (List.append_nil _).symm⟩
  | cons o os ih =>
      obtain ⟨rfl, hok, hrest⟩ := h
      have hle := hrest.le
      have hfour := (getLength_bounds buf w.pointer).1
      have htrue : cond w = true := by
        rw [hcond]
        exact ⟨by omega, hok⟩
      obtain ⟨cname, m, hnext⟩ := hbody w
      cases rounds with
      | zero => exact absurd hrounds (Nat.not_succ_le_zero _)
      | succ rounds =>
          obtain ⟨w', hw', hpointer, hvisited⟩ := ih rounds (Nat.le_of_succ_le_succ hrounds)
            (advance buf w cname m) hrest
          refine ⟨w', ?_, hpointer, ?_⟩
          · rw [whileLoop_of_true htrue hnext, hw']
          · rw [hvisited, advance, List.append_assoc]
            rfl

/-- The types of the second loop. -/
def IsDescription (t : UInt8) : Prop := t = tSDES ∨ t = tAPP

instance (t : UInt8) : Decidable (IsDescription t) := inferInstanceAs (Decidable (_ ∨ _))

/-- The walk up to the loop over BYE packets. -/
def walkReports (rounds : ℕ) (buf : Memory) (len : ℕ) (src : BitVec 32) (na : InetAddress)
    (tp : BitVec 16) (w : Walk) : Option Walk :=
  (whileLoop (fun w => w.pointer < len ∧ type buf w.pointer = tRR)
    (reportBody buf src na tp) rounds w).bind (fun w =>
      whileLoop
        (fun w => w.pointer < len ∧ (type buf w.pointer = tSDES ∨ type buf w.pointer = tAPP))
        (descriptionBody rounds buf src na tp) rounds w)

/-- The loop over BYE packets, which looks at one packet again and again. -/
def walkByes (rounds : ℕ) (buf : Memory) (len : ℕ) (na : InetAddress) (tp : BitVec 16)
    (w : Walk) : Option Walk :=
  whileLoop (fun w' => w'.pointer < len ∧ type buf w.pointer = tBYE)
    (byeBody buf na tp w.pointer) rounds w

theorem walkLoops_eq_bind (rounds : ℕ) (buf : Memory) (len : ℕ) (src : BitVec 32)
    (na : InetAddress) (tp : BitVec 16) (w : Walk) :
    walkLoops rounds buf len src na tp w
      = (walkReports rounds buf len src na tp w).bind (walkByes rounds buf len na tp) := by
  rw [walkLoops, walkReports, Option.bind_assoc]
  rfl

/-- **The first two loops visit receiver reports, and then SDES and APP packets.** -/
theorem walkReports_stretch {os os' : List ℕ} {q q' : ℕ} (w : Walk)
    (h : Stretch buf (fun t => t = tRR) w.pointer os q)
    (hstop : ¬ (q < len ∧ type buf q = tRR))
    (h' : Stretch buf IsDescription q os' q') (hq : q' ≤ len)
    (hstop' : ¬ (q' < len ∧ IsDescription (type buf q'))) (hrounds : 2 ^ 18 + len ≤ rounds)
    (src : BitVec 32) (na : InetAddress) (tp : BitVec 16) :
    ∃ w', walkReports rounds buf len src na tp w = some w' ∧ w'.pointer = q' ∧
      w'.visited = w.visited ++ (os ++ os') := by
  have hle := h'.le
  have hlength := h.length_le
  have hlength' := h'.length_le
  obtain ⟨w₁, h₁, hp₁, hv₁⟩ := whileLoop_stretch (fun _ => decide_eq_true_iff)
    (reportBody_eq_advance buf src na tp) (hle.trans hq) hstop rounds (by omega) w h
  rw [← hp₁] at h'
  obtain ⟨w₂, h₂, hp₂, hv₂⟩ := whileLoop_stretch (fun _ => decide_eq_true_iff)
    (descriptionBody_eq_advance (show 2 ^ 18 ≤ rounds by omega) buf src na tp)
    hq hstop' rounds (by omega) w₁ h'
  refine ⟨w₂, ?_, hp₂, ?_⟩
  · rw [walkReports, h₁, Option.bind_some]
    exact h₂
  · rw [hv₂, hv₁, List.append_assoc]

/-- Where the first two loops end. -/
theorem pointer_walkReports {w w' : Walk} (h : walkReports rounds buf len src na tp w = some w') :
    w'.pointer = passPackets buf len (fun t => t = tSDES ∨ t = tAPP)
      (passPackets buf len (fun t => t = tRR) w.pointer) := by
  obtain ⟨w₁, h₁, h₂⟩ := Option.bind_eq_some_iff.mp h
  rw [← (reportLoop_spec h₁).1]
  exact (descriptionLoop_spec h₂).1

/-- The loop over BYE packets does nothing if there is none. -/
theorem walkByes_of_not (w : Walk) (h : ¬ (w.pointer < len ∧ type buf w.pointer = tBYE)) :
    walkByes rounds buf len na tp w = some w := by
  refine whileLoop_of_false ?_ rounds
  exact decide_eq_false h

/-! ## The grammar of what is passed -/

/-- One optional sender report, then any number of receiver reports, then any number of SDES
and APP packets. -/
def Walkable (ps : List Octets) : Prop :=
  ∃ sr rr sd, ps = sr ++ rr ++ sd ∧ sr.length ≤ 1 ∧ (∀ r ∈ sr, typeOf r = tSR) ∧
    (∀ r ∈ rr, typeOf r = tRR) ∧ ∀ r ∈ sd, IsDescription (typeOf r)

/-- The longest prefix of a list of packets that can be passed. -/
def LongestWalkable (pre ps : List Octets) : Prop :=
  pre <+: ps ∧ Walkable pre ∧ ∀ pre', pre' <+: ps → Walkable pre' → pre'.length ≤ pre.length

/-- Which packets may follow in a walkable list. -/
theorem next_of_walkable {pre t : List Octets} {x : Octets} (h : Walkable (pre ++ x :: t)) :
    (pre = [] ∧ typeOf x = tSR) ∨ (typeOf x = tRR ∧ ∀ r ∈ pre, ¬ IsDescription (typeOf r)) ∨
      IsDescription (typeOf x) := by
  obtain ⟨sr, rr, sd, heq, hone, hsr, hrr, hsd⟩ := h
  have hnot : ∀ r, typeOf r = tSR ∨ typeOf r = tRR → ¬ IsDescription (typeOf r) := by
    rintro r (hr | hr)
    · rw [hr]
      decide
    · rw [hr]
      decide
  rw [List.append_assoc] at heq
  rcases List.append_eq_append_iff.mp heq with ⟨b, hb, hx⟩ | ⟨a, ha, hx⟩
  · -- the packet is the sender report, or the first one behind it
    cases b with
    | cons y b =>
        rw [List.cons_append, List.cons.injEq] at hx
        obtain ⟨rfl, -⟩ := hx
        rw [hb, List.length_append, List.length_cons] at hone
        exact Or.inl ⟨List.eq_nil_of_length_eq_zero (by omega),
          hsr x (hb ▸ List.mem_append_right _ List.mem_cons_self)⟩
    | nil =>
        rw [List.append_nil] at hb
        subst hb
        cases rr with
        | nil => exact Or.inr (Or.inr (hsd x (by
            rw [List.nil_append, List.nil_append] at hx
            exact hx ▸ List.mem_cons_self)))
        | cons y rr =>
            rw [List.nil_append, List.cons_append, List.cons.injEq] at hx
            obtain ⟨rfl, -⟩ := hx
            exact Or.inr (Or.inl ⟨hrr x List.mem_cons_self, fun r hr => hnot r (Or.inl (hsr r hr))⟩)
  · -- it is behind the sender report
    rcases List.append_eq_append_iff.mp hx with ⟨c, hc, hsd'⟩ | ⟨c, hc, hsd'⟩
    · subst hc
      exact Or.inr (Or.inr (hsd x (hsd' ▸ List.mem_append_right _ List.mem_cons_self)))
    · cases c with
      | nil =>
          rw [List.nil_append] at hsd'
          exact Or.inr (Or.inr (hsd x (hsd' ▸ List.mem_cons_self)))
      | cons y c =>
          rw [List.cons_append, List.cons.injEq] at hsd'
          obtain ⟨rfl, -⟩ := hsd'
          refine Or.inr (Or.inl ⟨hrr x (hc ▸ List.mem_append_right _ List.mem_cons_self), ?_⟩)
          intro r hr
          rw [ha] at hr
          rcases List.mem_append.mp hr with hr | hr
          · exact hnot r (Or.inl (hsr r hr))
          · exact hnot r (Or.inr (hrr r (hc ▸ List.mem_append_left _ hr)))

/-- The elements of a list up to the first one that does not have a property. -/
theorem exists_span {α : Type*} (P : α → Prop) (l : List α) :
    ∃ a b, l = a ++ b ∧ (∀ x ∈ a, P x) ∧ ∀ x, b.head? = some x → ¬ P x := by
  induction l with
  | nil => exact ⟨[], [], rfl, fun x hx => absurd hx List.not_mem_nil, fun x hx => by cases hx⟩
  | cons y l ih =>
      by_cases hy : P y
      · obtain ⟨a, b, rfl, ha, hb⟩ := ih
        refine ⟨y :: a, b, rfl, fun x hx => ?_, hb⟩
        rcases List.mem_cons.mp hx with rfl | hx
        · exact hy
        · exact ha x hx
      · refine ⟨[], y :: l, rfl, fun x hx => absurd hx List.not_mem_nil, fun x hx => ?_⟩
        cases hx
        exact hy

/-- A list of packets as the loops divide it. -/
structure Divided (ps sr rr sd rest : List Octets) : Prop where
  eq : ps = sr ++ (rr ++ (sd ++ rest))
  one : sr.length ≤ 1
  senderReports : ∀ r ∈ sr, typeOf r = tSR
  receiverReports : ∀ r ∈ rr, typeOf r = tRR
  descriptions : ∀ r ∈ sd, IsDescription (typeOf r)
  first : sr = [] → ∀ r, ps.head? = some r → typeOf r ≠ tSR
  behindReports : ∀ r, (sd ++ rest).head? = some r → typeOf r ≠ tRR
  behind : ∀ r, rest.head? = some r → ¬ IsDescription (typeOf r)

theorem exists_divided (ps : List Octets) : ∃ sr rr sd rest, Divided ps sr rr sd rest := by
  obtain ⟨sr, tail, hps, hone, hsr, hfirst⟩ : ∃ sr tail : List Octets, ps = sr ++ tail ∧
      sr.length ≤ 1 ∧ (∀ r ∈ sr, typeOf r = tSR) ∧
        (sr = [] → ∀ r, ps.head? = some r → typeOf r ≠ tSR) := by
    cases ps with
    | nil => exact ⟨[], [], rfl, Nat.zero_le 1, fun r hr => absurd hr List.not_mem_nil,
        fun _ r hr => by cases hr⟩
    | cons x ps =>
        by_cases hx : typeOf x = tSR
        · refine ⟨[x], ps, rfl, le_rfl, fun r hr => ?_, fun h => absurd h (List.cons_ne_nil x [])⟩
          rw [List.mem_singleton.mp hr]
          exact hx
        · refine ⟨[], x :: ps, rfl, Nat.zero_le 1, fun r hr => absurd hr List.not_mem_nil, ?_⟩
          intro _ r hr
          cases hr
          exact hx
  obtain ⟨rr, tail', htail, hrr, hbehind⟩ := exists_span (fun r => typeOf r = tRR) tail
  obtain ⟨sd, rest, htail', hsd, hrest⟩ := exists_span (fun r => IsDescription (typeOf r)) tail'
  subst htail' htail
  exact ⟨sr, rr, sd, rest, hps, hone, hsr, hrr, hsd, hfirst, hbehind, hrest⟩

/-- **What the loops pass is the longest walkable prefix.** -/
theorem Divided.longest {ps sr rr sd rest : List Octets} (h : Divided ps sr rr sd rest) :
    LongestWalkable (sr ++ rr ++ sd) ps := by
  have heq : ps = sr ++ rr ++ sd ++ rest := by
    rw [h.eq, List.append_assoc, List.append_assoc]
  have hfront : sr ++ rr ++ sd <+: ps := ⟨rest, heq.symm⟩
  refine ⟨hfront, ⟨sr, rr, sd, rfl, h.one, h.senderReports, h.receiverReports,
    h.descriptions⟩, fun pre' hpre' hwalkable => ?_⟩
  by_contra hlonger
  rw [not_le] at hlonger
  -- a longer one would go on with the first of the other packets
  obtain ⟨b, hb⟩ := List.prefix_of_prefix_length_le hfront hpre' hlonger.le
  cases b with
  | nil =>
      rw [← hb, List.append_nil] at hlonger
      exact absurd hlonger (lt_irrefl _)
  | cons x t =>
      obtain ⟨t', ht'⟩ := hpre'
      have hrest : rest = x :: (t ++ t') := by
        rw [← hb, heq, List.append_assoc] at ht'
        exact (List.append_cancel_left ht').symm
      rw [← hb] at hwalkable
      rcases next_of_walkable hwalkable with ⟨hnil, hsr⟩ | ⟨hrr, hnone⟩ | hsd
      · obtain ⟨hsrrr, -⟩ := List.append_eq_nil_iff.mp hnil
        obtain ⟨hsrnil, -⟩ := List.append_eq_nil_iff.mp hsrrr
        refine h.first hsrnil x ?_ hsr
        rw [heq, hnil, hrest]
        rfl
      · have hsdnil : sd = [] := by
          rw [List.eq_nil_iff_forall_not_mem]
          intro r hr
          exact hnone r (List.mem_append_right _ hr) (h.descriptions r hr)
        refine h.behindReports x ?_ hrr
        rw [hsdnil, hrest]
        rfl
      · refine h.behind x ?_ hsd
        rw [hrest]
        rfl

/-! ## The walk as a whole -/

/-- The walk of an accepted compound begins behind the first report, if this is a sender
report. -/
theorem takeInControlPacket_eq (rounds : ℕ) (m : QueueRTCPManager) (na : InetAddress)
    (tp : BitVec 16)
    (haccept : RTCPCompoundHandler.checkCompoundRTCPHeader buf len = some true) :
    m.takeInControlPacket rounds buf len na tp
      = walkLoops rounds buf len (getSSRC buf 0) na tp (firstReport buf (getSSRC buf 0) na tp
          (m.registerFirst (getSSRC buf 0) na tp).1 (m.registerFirst (getSSRC buf 0) na tp).2) := by
  rw [takeInControlPacket, haccept]
  rfl

/-- The packets of an accepted compound. -/
theorem exists_splits_of_accepted (hlen : len + 2 ^ 18 < 2 ^ 32)
    (haccept : RTCPCompoundHandler.checkCompoundRTCPHeader buf len = some true) :
    ∃ ps, Splits (buf.octets 0 len) ps ∧ ps ≠ [] := by
  obtain ⟨ok, hok, hiff⟩ := RTCPCompoundHandler.checkCompoundRTCPHeader_eq buf hlen
  rw [haccept, Option.some_inj] at hok
  rcases hiff.mp hok.symm with ⟨p, ps, hsplits, -⟩ | ⟨p, ps, last, hsplits, -⟩
  · exact ⟨_, hsplits, List.cons_ne_nil _ _⟩
  · exact ⟨_, hsplits, List.cons_ne_nil _ _⟩

/-- The first report, and the packets that are left behind it. -/
theorem firstReport_divided {ps sr rr sd rest : List Octets} (h : Divided ps sr rr sd rest)
    (hps : Splits (buf.octets 0 len) ps) (hne : ps ≠ []) (src : BitVec 32) (na : InetAddress)
    (tp : BitVec 16) (created : Bool) (m : QueueRTCPManager) :
    (firstReport buf src na tp created m).pointer = sr.flatten.length ∧
      (firstReport buf src na tp created m).visited = offsets 0 sr := by
  obtain ⟨hpointer, hvisited⟩ := firstReport_walk buf src na tp created m
  rw [hpointer, hvisited]
  obtain ⟨x, t, rfl⟩ := List.exists_cons_of_ne_nil hne
  have htype := (type_of_splits hps).2
  obtain ⟨-, hx, -⟩ := (splits_cons_iff _ _ _ _ _).mp hps
  have hsplit := h.eq
  cases sr with
  | nil =>
      rw [if_neg, if_neg]
      · exact ⟨rfl, rfl⟩
      · rw [htype]
        exact h.first rfl x rfl
      · rw [htype]
        exact h.first rfl x rfl
  | cons y sr =>
      rw [List.cons_append, List.cons.injEq] at hsplit
      obtain ⟨rfl, -⟩ := hsplit
      have hone := h.one
      have hnil : sr = [] := by
        rw [List.length_cons] at hone
        exact List.eq_nil_of_length_eq_zero (by omega)
      subst hnil
      rw [htype, h.senderReports x List.mem_cons_self, if_pos rfl, if_pos rfl]
      refine ⟨?_, rfl⟩
      rw [List.flatten_cons, List.flatten_nil, List.append_nil, hx, Memory.length_octets]

/-- **The walk up to the BYE packets** visits what the loops pass. -/
theorem walkReports_divided {ps sr rr sd rest : List Octets} (h : Divided ps sr rr sd rest)
    (hps : Splits (buf.octets 0 len) ps) (hne : ps ≠ []) (src : BitVec 32) (na : InetAddress)
    (tp : BitVec 16) (created : Bool) (m : QueueRTCPManager) (hrounds : 2 ^ 18 + len ≤ rounds) :
    ∃ w, walkReports rounds buf len src na tp (firstReport buf src na tp created m) = some w ∧
      w.visited = offsets 0 (sr ++ rr ++ sd) ∧ w.pointer = (sr ++ rr ++ sd).flatten.length ∧
      w.pointer ≤ len ∧ Splits (buf.octets w.pointer (len - w.pointer)) rest := by
  obtain ⟨hp₀, hv₀⟩ := firstReport_divided h hps hne src na tp created m
  rw [h.eq] at hps
  obtain ⟨-, hfit₀, hrest₀⟩ := stretch_of_splits (fun t => t = tSR) hps h.senderReports
  rw [Nat.zero_add, ← hp₀] at hrest₀
  rw [← hp₀] at hfit₀
  set w₀ := firstReport buf src na tp created m
  obtain ⟨hrr, hfit₁, hrest₁⟩ := stretch_of_splits (fun t => t = tRR) hrest₀ h.receiverReports
  set q := w₀.pointer + rr.flatten.length with hq
  rw [Nat.sub_sub, ← hq] at hrest₁
  obtain ⟨hsd, hfit₂, hrest₂⟩ := stretch_of_splits IsDescription hrest₁ h.descriptions
  set q' := q + sd.flatten.length with hq'
  rw [Nat.sub_sub, ← hq'] at hrest₂
  obtain ⟨w, hw, hpointer, hvisited⟩ := walkReports_stretch w₀ hrr
    (stops_of_splits (fun t => t = tRR) hrest₁ (by omega) h.behindReports) hsd (by omega)
    (stops_of_splits IsDescription hrest₂ (by omega) h.behind) hrounds src na tp
  have hlength : (sr ++ rr ++ sd).flatten.length = q' := by
    rw [List.flatten_append, List.flatten_append, List.length_append, List.length_append, ← hp₀]
  refine ⟨w, hw, ?_, ?_, ?_, ?_⟩
  · rw [hvisited, hv₀, offsets_append, offsets_append, List.append_assoc, List.flatten_append,
      List.length_append, ← hp₀, Nat.zero_add, Nat.zero_add]
  · rw [hpointer, hlength]
  · omega
  · rw [hpointer]
    exact hrest₂

/-- **The walk over a compound without BYE packets.**  Let a compound pass the header check, and
let `pre` be the longest prefix of its packets that consists of one optional sender report, of
receiver reports, and of SDES and APP packets.  If the packet behind it is not a BYE packet,
`takeInControlPacket` visits the packets of the prefix, in order and where they stand, and hands
what is left to `onGotRRSRExtension`, which it does not call if nothing is left. -/
theorem takeInControlPacket_visits (m : QueueRTCPManager) (buf : Memory) {len : ℕ}
    (hlen : len + 2 ^ 18 < 2 ^ 32) (na : InetAddress) (tp : BitVec 16)
    (haccept : RTCPCompoundHandler.checkCompoundRTCPHeader buf len = some true) :
    ∃ pre rest, Splits (buf.octets 0 len) (pre ++ rest) ∧ LongestWalkable pre (pre ++ rest) ∧
      ((∀ r, rest.head? = some r → typeOf r ≠ tBYE) →
        ∃ rounds w, m.takeInControlPacket rounds buf len na tp = some w ∧
          w.visited = offsets 0 pre ∧
          onGotRRSRExtension len w
            = (if rest = [] then none else some (pre.flatten.length, rest.flatten.length)) ∧
          buf.octets pre.flatten.length rest.flatten.length = rest.flatten) := by
  obtain ⟨ps, hps, hne⟩ := exists_splits_of_accepted hlen haccept
  obtain ⟨sr, rr, sd, rest, hdivided⟩ := exists_divided ps
  have heq : ps = sr ++ rr ++ sd ++ rest := by
    rw [hdivided.eq, List.append_assoc, List.append_assoc]
  refine ⟨sr ++ rr ++ sd, rest, heq ▸ hps, heq ▸ hdivided.longest, fun hbye => ?_⟩
  obtain ⟨w, hw, hvisited, hpointer, hle, hrest⟩ := walkReports_divided hdivided hps hne
    (getSSRC buf 0) na tp (m.registerFirst (getSSRC buf 0) na tp).1
    (m.registerFirst (getSSRC buf 0) na tp).2 (le_refl (2 ^ 18 + len))
  have hremaining : len - w.pointer = rest.flatten.length := by
    rw [hrest.1, Memory.length_octets]
  have hno : ¬ (w.pointer < len ∧ type buf w.pointer = tBYE) :=
    stops_of_splits (fun t => t = tBYE) hrest (Nat.add_sub_cancel' hle) hbye
  refine ⟨2 ^ 18 + len, w, ?_, hvisited, ?_, ?_⟩
  · rw [takeInControlPacket_eq _ m na tp haccept, walkLoops_eq_bind, hw, Option.bind_some,
      walkByes_of_not w hno]
  · rw [onGotRRSRExtension, hpointer.symm]
    by_cases hend : w.pointer = len
    · have hnil : rest = [] := by
        rw [hend, Nat.sub_self, Memory.octets_zero] at hrest
        cases rest with
        | nil => rfl
        | cons r rest =>
            have hpos := (hrest.2 r List.mem_cons_self).four_le
            have hzero := congrArg List.length hrest.1
            rw [List.flatten_cons, List.length_append, List.length_nil] at hzero
            omega
      rw [if_neg (not_not.mpr hend), if_pos hnil]
    · have hsome : rest ≠ [] := by
        rintro rfl
        rw [List.flatten_nil, List.length_nil] at hremaining
        omega
      rw [if_pos hend, if_neg hsome, ← hremaining, sizeSub]
      congr 2
      omega
  · rw [← hpointer, ← hremaining, hrest.1]

end QueueRTCPManager
