/-
# Key streams of block functions

Two ways of stretching a function on 16-octet blocks into a key stream, over an
arbitrary block function:

* counter mode with a 16-bit counter in the last two octets of the initial vector
  (`ctrStream`);
* F8 mode, which feeds each key stream block back through the block function
  together with a block number (`f8Stream`).

A stream depends on the initial vector and the length alone, so XOR with it is its
own inverse; the counter-mode blocks of one initial vector are pairwise distinct
(`ctrBlocks_nodup`).

`countUp` is the loop `for (ctr = 0; ctr < l; ctr++)` over a counter of `w` bits,
which ends exactly when the bound fits the counter.
-/
import CcRtp.Octets

/-- A block of 16 octets. -/
abbrev Block := Fin 16 → UInt8

/-- The octets of a block. -/
def Block.toOctets (b : Block) : Octets := List.ofFn b

/-- The block with the first 16 octets of `l`, filled up with zeros. -/
def Block.ofOctets (l : Octets) : Block := fun i => l.getD i 0

@[simp] theorem Block.length_toOctets (b : Block) : b.toOctets.length = 16 := by
  simp [Block.toOctets]

@[simp] theorem Block.ofOctets_toOctets (b : Block) : Block.ofOctets b.toOctets = b := by
  funext i
  rw [Block.ofOctets, Block.toOctets, List.getD_eq_getElem?_getD, List.getElem?_ofFn,
    dif_pos i.isLt, Option.getD_some]

/-- Sixteen octets survive as a block. -/
theorem Block.toOctets_ofOctets {l : Octets} (h : l.length = 16) :
    (Block.ofOctets l).toOctets = l := by
  unfold Block.toOctets Block.ofOctets
  apply List.ext_getElem
  · rw [List.length_ofFn, h]
  · intro i h1 h2
    rw [List.getElem_ofFn, List.getD_eq_getElem _ _ h2]

/-- Blocks are determined by their octets. -/
theorem Block.toOctets_injective : Function.Injective Block.toOctets := fun b c h => by
  rw [← Block.ofOctets_toOctets b, h, Block.ofOctets_toOctets]

/-- XOR of two blocks. -/
def Block.xor (a b : Block) : Block := fun i => a i ^^^ b i

/-- XOR with a fixed block is injective. -/
theorem Block.xor_right_inj (a b c : Block) : Block.xor a b = Block.xor a c ↔ b = c := by
  constructor
  · intro h
    funext i
    exact (UInt8.xor_right_inj (a i)).mp (congrFun h i)
  · rintro rfl
    rfl

/-- The same on the other side. -/
theorem Block.xor_left_inj (a b c : Block) : Block.xor b a = Block.xor c a ↔ b = c := by
  constructor
  · intro h
    funext i
    exact (UInt8.xor_left_inj (a i)).mp (congrFun h i)
  · rintro rfl
    rfl

/-! ## Loops over a machine counter -/

section CountUp

variable {σ : Type*} {w : ℕ}

/-- The loop `for (; ctr < l; ctr++) body`, with a counter of `w` bits.  After `2^w`
rounds the counter is back where it was and the test, which reads nothing else, goes
on as before: a loop that has not ended within `2^w` rounds never does. -/
def countUp (l : ℕ) (body : BitVec w → σ → σ) : ℕ → BitVec w → σ → Option (BitVec w × σ)
  | 0, _, _ => none
  | rounds + 1, ctr, s =>
      if ctr.toNat < l then countUp l body rounds (ctr + 1) (body ctr s) else some (ctr, s)

/-- The counter after a round. -/
theorem ofNat_add_one (w j : ℕ) : BitVec.ofNat w j + 1 = BitVec.ofNat w (j + 1) := by
  rw [BitVec.ofNat_add]
  rfl

/-- With a bound that fits the counter the body is run once for each value. -/
theorem countUp_eq_some (body : BitVec w → σ → σ) (m : ℕ) :
    ∀ (j rounds : ℕ) (s : σ), j + m < 2 ^ w → m < rounds →
      countUp (j + m) body rounds (BitVec.ofNat w j) s
        = some (BitVec.ofNat w (j + m),
            (List.range' j m).foldl (fun s i => body (BitVec.ofNat w i) s) s) := by
  induction m with
  | zero =>
      intro j rounds s hj hr
      obtain ⟨r, rfl⟩ : ∃ r, rounds = r + 1 := ⟨rounds - 1, by omega⟩
      rw [countUp, BitVec.toNat_ofNat, Nat.mod_eq_of_lt (by omega), if_neg (by omega)]
      simp
  | succ m ih =>
      intro j rounds s hj hr
      obtain ⟨r, rfl⟩ : ∃ r, rounds = r + 1 := ⟨rounds - 1, by omega⟩
      have hrest := ih (j + 1) r (body (BitVec.ofNat w j) s) (by omega) (by omega)
      rw [show j + 1 + m = j + (m + 1) by omega] at hrest
      rw [countUp, BitVec.toNat_ofNat, Nat.mod_eq_of_lt (by omega), if_pos (by omega),
        ofNat_add_one, hrest, List.range'_succ, List.foldl_cons]

/-- **A counting loop whose states are known.** -/
theorem countUp_states {body : BitVec w → σ → σ} (state : ℕ → σ) {m : ℕ}
    (hm : m < 2 ^ w) (hstep : ∀ i < m, body (BitVec.ofNat w i) (state i) = state (i + 1)) :
    countUp m body (2 ^ w) 0 (state 0) = some (BitVec.ofNat w m, state m) := by
  have hrounds : ∀ j ≤ m,
      (List.range' 0 j).foldl (fun s i => body (BitVec.ofNat w i) s) (state 0) = state j := by
    intro j hj
    induction j with
    | zero => rfl
    | succ j ih =>
        rw [List.range'_1_concat, List.foldl_concat, ih (Nat.le_of_succ_le hj), Nat.zero_add]
        exact hstep j hj
  have hloop := countUp_eq_some body m 0 (2 ^ w) (state 0) (by omega) hm
  rw [Nat.zero_add, hrounds m le_rfl] at hloop
  exact hloop

/-- With a bound the counter cannot reach the loop does not end. -/
theorem countUp_eq_none (body : BitVec w → σ → σ) {l : ℕ} (hl : 2 ^ w ≤ l) (rounds : ℕ) :
    ∀ (ctr : BitVec w) (s : σ), countUp l body rounds ctr s = none := by
  induction rounds with
  | zero => intro ctr s; rfl
  | succ r ih =>
      intro ctr s
      have hctr := ctr.isLt
      rw [countUp, if_pos (by omega), ih]

end CountUp

/-! ## Counter mode -/

/-- `iv` with its last two octets replaced by the block counter. -/
def setCounter (iv : Block) (ctr : BitVec 16) : Block := fun i =>
  if i = 14 then UInt8.ofNat ((ctr &&& 0xFF00#16) >>> 8).toNat
  else if i = 15 then UInt8.ofNat (ctr &&& 0x00FF#16).toNat
  else iv i

/-- The octets before the counter are those of the initial vector. -/
theorem setCounter_of_lt (iv : Block) (ctr : BitVec 16) (i : Fin 16) (h : i.val < 14) :
    setCounter iv ctr i = iv i := by
  have h14 : i ≠ 14 := by rintro rfl; simp at h
  have h15 : i ≠ 15 := by rintro rfl; simp at h
  simp [setCounter, h14, h15]

/-- The high octet of the counter. -/
theorem setCounter_hi (iv : Block) (ctr : BitVec 16) :
    (setCounter iv ctr 14).toNat = ctr.toNat / 256 := by
  have hmask : (ctr &&& 0xFF00#16) >>> 8 = ctr >>> 8 := by
    ext i hi
    simp only [BitVec.getElem_ushiftRight, BitVec.getLsbD_and]
    by_cases h : i < 8
    · interval_cases i <;> simp
    · simp [BitVec.getLsbD_of_ge ctr (8 + i) (by omega)]
  rw [setCounter, if_pos rfl, hmask]
  simp [BitVec.toNat_ushiftRight, Nat.shiftRight_eq_div_pow]
  omega

/-- The low octet of the counter. -/
theorem setCounter_lo (iv : Block) (ctr : BitVec 16) :
    (setCounter iv ctr 15).toNat = ctr.toNat % 256 := by
  rw [setCounter, if_neg (by decide), if_pos rfl]
  have h := Nat.and_two_pow_sub_one_eq_mod ctr.toNat 8
  simp only [BitVec.toNat_and, BitVec.toNat_ofNat, UInt8.toNat_ofNat']
  norm_num at h ⊢
  omega

/-- Counter blocks determine the counter. -/
theorem setCounter_counter_inj {iv iv' : Block} {c c' : BitVec 16}
    (h : setCounter iv c = setCounter iv' c') : c = c' := by
  have hhi := setCounter_hi iv c
  have hlo := setCounter_lo iv c
  rw [h, setCounter_hi] at hhi
  rw [h, setCounter_lo] at hlo
  apply BitVec.eq_of_toNat_eq
  omega

/-- The counter blocks of the counter values `j, ..., j + m - 1`. -/
def counterBlocks (iv : Block) (j m : ℕ) : List Block :=
  (List.range' j m).map (fun i => setCounter iv (BitVec.ofNat 16 i))

@[simp] theorem counterBlocks_zero (iv : Block) (j : ℕ) : counterBlocks iv j 0 = [] := rfl

theorem counterBlocks_succ (iv : Block) (j m : ℕ) :
    counterBlocks iv j (m + 1)
      = setCounter iv (BitVec.ofNat 16 j) :: counterBlocks iv (j + 1) m := rfl

@[simp] theorem length_counterBlocks (iv : Block) (j m : ℕ) :
    (counterBlocks iv j m).length = m := by
  simp [counterBlocks]

/-- The key stream the block function gives for a list of blocks. -/
def streamOf (E : Block → Block) (blocks : List Block) : Octets :=
  blocks.flatMap (fun b => (E b).toOctets)

@[simp] theorem streamOf_nil (E : Block → Block) : streamOf E [] = [] := rfl

@[simp] theorem streamOf_cons (E : Block → Block) (b : Block) (l : List Block) :
    streamOf E (b :: l) = (E b).toOctets ++ streamOf E l := rfl

@[simp] theorem streamOf_append (E : Block → Block) (l l' : List Block) :
    streamOf E (l ++ l') = streamOf E l ++ streamOf E l' := by
  simp [streamOf]

/-- The key stream has 16 octets a block. -/
@[simp] theorem length_streamOf (E : Block → Block) (l : List Block) :
    (streamOf E l).length = 16 * l.length := by
  induction l with
  | nil => rfl
  | cons b l ih =>
      rw [streamOf_cons, List.length_append, Block.length_toOctets, ih, List.length_cons]
      ring

/-- The counter blocks that give `n` octets of key stream. -/
def ctrBlocks (iv : Block) (n : ℕ) : List Block := counterBlocks iv 0 ((n + 15) / 16)

/-- The counter-mode key stream of `n` octets, rounded up to whole blocks. -/
def ctrStream (E : Block → Block) (iv : Block) (n : ℕ) : Octets := streamOf E (ctrBlocks iv n)

/-- The key stream covers the data. -/
theorem le_length_ctrStream (E : Block → Block) (iv : Block) (n : ℕ) :
    n ≤ (ctrStream E iv n).length := by
  rw [ctrStream, length_streamOf, ctrBlocks, length_counterBlocks]
  omega

/-- The counter blocks of `n` octets: the whole blocks and, if any, the last one. -/
theorem ctrBlocks_eq (iv : Block) (n : ℕ) :
    ctrBlocks iv n = counterBlocks iv 0 (n / 16)
      ++ if 0 < n % 16 then [setCounter iv (BitVec.ofNat 16 (n / 16))] else [] := by
  unfold ctrBlocks counterBlocks
  split_ifs with h
  · rw [show (n + 15) / 16 = n / 16 + 1 by omega, List.range'_concat]
    simp
  · rw [show (n + 15) / 16 = n / 16 by omega, List.append_nil]

/-- **No block repeats** within fewer than `2^20` octets of one key stream. -/
theorem ctrBlocks_nodup (iv : Block) {n : ℕ} (hn : n < 2 ^ 20) : (ctrBlocks iv n).Nodup := by
  unfold ctrBlocks counterBlocks
  refine List.Nodup.map_on ?_ List.nodup_range'
  intro i hi j hj hij
  have hc := setCounter_counter_inj hij
  rw [List.mem_range'_1] at hi hj
  have := congrArg BitVec.toNat hc
  simp only [BitVec.toNat_ofNat] at this
  omega

/-! ## F8 mode -/

/-- The block number as a block: big-endian in the last four octets. -/
def numberBlock (J : BitVec 32) : Block :=
  Block.ofOctets (List.replicate 12 0 ++ bigEndian 4 J.toNat)

/-- The key stream block after `S`, with block number `J`. -/
def f8Next (E : Block → Block) (ivAccent S : Block) (J : BitVec 32) : Block :=
  E (Block.xor (Block.xor S ivAccent) (numberBlock J))

/-- `n` blocks of F8 key stream after the block `S`, numbered from `J` on. -/
def f8Stream (E : Block → Block) (ivAccent : Block) : ℕ → Block → BitVec 32 → Octets
  | 0, _, _ => []
  | n + 1, S, J =>
      (f8Next E ivAccent S J).toOctets ++ f8Stream E ivAccent n (f8Next E ivAccent S J) (J + 1)

@[simp] theorem length_f8Stream (E : Block → Block) (ivAccent : Block) (n : ℕ) (S : Block)
    (J : BitVec 32) : (f8Stream E ivAccent n S J).length = 16 * n := by
  induction n generalizing S J with
  | zero => rfl
  | succ n ih => simp [f8Stream, ih]; ring
