/-
# The block functions of Skein

Models `Skein_256_Process_Block`, `Skein_512_Process_Block` and `Skein1024_Process_Block`
(`src/ccrtp/crypto/skein_block.c`).  The first two are unrolled: the words stay where they are and
every round takes them in another order, and a key injection picks the words of the key schedule by
their numbers modulo the length.  The third one is a loop: its key schedule slides through one
array, in which the words of the tweak and those of the key overlap.

`Threefish` is the cipher that they compute, with a permutation of the words after each round and
with subkeys.

* `unrolledBlock_eq` : the unrolled functions are the cipher, XORed with the block;
* `loopedBlock_eq` : so is the loop; the overlapping schedule never reads a word that was
  overwritten.
-/
import CcRtp.Octets

/-! ## The cipher -/

/-- A 64-bit word. -/
abbrev Word64 := BitVec 64

/-- `RotL_64(x, N)` -/
def rotL64 (x : Word64) (n : ℕ) : Word64 := x <<< n ||| x >>> (64 - n)

/-- The sizes of the cipher: the number of words, the permutation of the words and the rotations of
the rounds, which repeat after eight, and the number of rounds by eights. -/
structure Threefish where
  words : ℕ
  rcnt : ℕ
  perm : ℕ → ℕ
  rotation : ℕ → ℕ → ℕ

namespace Threefish

variable (C : Threefish) (key : ℕ → Word64) (tweak : ℕ → Word64)

/-- The word `i` of the subkey `s`, from the key and the tweak with their parity words. -/
def subkey (s i : ℕ) : Word64 :=
  key ((s + i) % (C.words + 1)) +
    (if i + 3 = C.words then tweak (s % 3)
      else if i + 2 = C.words then tweak ((s + 1) % 3)
      else if i + 1 = C.words then BitVec.ofNat 64 s
      else 0)

/-- The mixing of two words. -/
def mix (rotation : ℕ → ℕ) (e : ℕ → Word64) (i : ℕ) : Word64 :=
  if i % 2 = 0 then e i + e (i + 1) else rotL64 (e i) (rotation (i / 2)) ^^^ (e (i - 1) + e i)

/-- The state with the subkey that is due before round `d`. -/
def keyed (d : ℕ) (v : ℕ → Word64) (i : ℕ) : Word64 :=
  if d % 4 = 0 then v i + C.subkey key tweak (d / 4) i else v i

/-- The state after `d` rounds. -/
def state (w : ℕ → Word64) : ℕ → ℕ → Word64
  | 0 => w
  | d + 1 => fun i => mix (C.rotation (d % 8)) (C.keyed key tweak d (state w d)) (C.perm i)

/-- The ciphertext. -/
def encrypt (w : ℕ → Word64) (i : ℕ) : Word64 :=
  C.keyed key tweak (8 * C.rcnt) (C.state key tweak w (8 * C.rcnt)) i

end Threefish

/-! ## The functions of the source -/

/-- `SKEIN_KS_PARITY` -/
def SKEIN_KS_PARITY : Word64 := 0x1BD11BDAA9FC1A22

/-- `SKEIN_T1_FLAG_FIRST` -/
def SKEIN_T1_FLAG_FIRST : Word64 := 1 <<< 62

namespace Skein

/-- The word `X[i]`. -/
def wordAt (X : List Word64) (i : ℕ) : Word64 := X.getD i 0

/-- `X##p0 += X##p1; X##p1 = RotL_64(X##p1, ROT); X##p1 ^= X##p0;` -/
def mixAt (X : List Word64) (p0 p1 rot : ℕ) : List Word64 :=
  let X := X.set p0 (wordAt X p0 + wordAt X p1)
  let X := X.set p1 (rotL64 (wordAt X p1) rot)
  X.set p1 (wordAt X p1 ^^^ wordAt X p0)

/-- `Round256`, `Round512` and `Round1024`: the order of the words and the rotations. -/
def roundAt : List ℕ → List ℕ → List Word64 → List Word64
  | p0 :: p1 :: order, rot :: rots, X => roundAt order rots (mixAt X p0 p1 rot)
  | _, _, X => X

/-- What the three functions differ in: the orders of the four rounds between two key injections,
and the rotations of eight rounds. -/
structure BlockSize where
  words : ℕ
  rcnt : ℕ
  orders : List (List ℕ)
  rotations : List (List ℕ)

/-- `Skein_256_Process_Block` -/
def size256 : BlockSize where
  words := 4
  rcnt := 9
  orders := [[0, 1, 2, 3], [0, 3, 2, 1], [0, 1, 2, 3], [0, 3, 2, 1]]
  rotations := [[14, 16], [52, 57], [23, 40], [5, 37], [25, 33], [46, 12], [58, 22], [32, 32]]

/-- `Skein_512_Process_Block` -/
def size512 : BlockSize where
  words := 8
  rcnt := 9
  orders := [[0, 1, 2, 3, 4, 5, 6, 7], [2, 1, 4, 7, 6, 5, 0, 3], [4, 1, 6, 3, 0, 5, 2, 7],
    [6, 1, 0, 7, 2, 5, 4, 3]]
  rotations := [[46, 36, 19, 37], [33, 27, 14, 42], [17, 49, 36, 39], [44, 9, 54, 56],
    [39, 30, 34, 24], [13, 50, 10, 17], [25, 29, 39, 43], [8, 35, 56, 22]]

/-- `Skein1024_Process_Block` -/
def size1024 : BlockSize where
  words := 16
  rcnt := 10
  orders := [[0, 1, 2, 3, 4, 5, 6, 7, 8, 9, 10, 11, 12, 13, 14, 15],
    [0, 9, 2, 13, 6, 11, 4, 15, 10, 7, 12, 3, 14, 5, 8, 1],
    [0, 7, 2, 5, 4, 3, 6, 1, 12, 15, 14, 13, 8, 11, 10, 9],
    [0, 15, 2, 11, 6, 13, 4, 9, 14, 1, 8, 5, 10, 3, 12, 7]]
  rotations := [[24, 13, 8, 47, 8, 17, 22, 37], [38, 19, 10, 55, 49, 18, 23, 52],
    [33, 4, 51, 13, 34, 41, 59, 17], [5, 20, 48, 41, 47, 28, 16, 25],
    [41, 9, 37, 31, 12, 47, 44, 30], [16, 34, 56, 51, 4, 53, 42, 41],
    [31, 44, 47, 46, 19, 42, 44, 25], [9, 48, 35, 52, 23, 31, 37, 20]]

variable (S : BlockSize)

/-- Four rounds, with the rotations from number `q` on. -/
def fourRounds (q : ℕ) (X : List Word64) : List Word64 :=
  [0, 1, 2, 3].foldl (fun X d => roundAt (S.orders.getD d []) (S.rotations.getD (q + d) []) X) X

/-- Adds `word i` to each `X[i]`. -/
def inject (word : ℕ → Word64) (X : List Word64) : List Word64 :=
  X.mapIdx (fun i x => x + word i)

/-- `ks[0]`, ..., `ks[WCNT]` -/
def keySchedule (X : List Word64) : List Word64 := X ++ [X.foldl (· ^^^ ·) 0 ^^^ SKEIN_KS_PARITY]

/-- `ts[0]`, `ts[1]`, `ts[2]` -/
def tweakSchedule (T0 T1 : Word64) : List Word64 := [T0, T1, T0 ^^^ T1]

/-- The words of a key injection, from the word `ks(i)` for each `X[i]`, two words of the tweak and
the number of the injection. -/
def injected (ks : ℕ → Word64) (t t' : Word64) (R i : ℕ) : Word64 :=
  ks i + (if i + 3 = S.words then t else if i + 2 = S.words then t' else if i + 1 = S.words then
    BitVec.ofNat 64 R else 0)

/-- `I256(R)`, `I512(R)` -/
def injectUnrolled (ks ts X : List Word64) (R : ℕ) : List Word64 :=
  inject (injected S (fun i => wordAt ks ((R + 1 + i) % (S.words + 1))) (wordAt ts ((R + 1) % 3))
    (wordAt ts ((R + 2) % 3)) (R + 1)) X

/-- `R256_8_rounds(R)`, `R512_8_rounds(R)` -/
def eightRounds (ks ts X : List Word64) (R : ℕ) : List Word64 :=
  let X := injectUnrolled S ks ts (fourRounds S 0 X) (2 * R)
  injectUnrolled S ks ts (fourRounds S 4 X) (2 * R + 1)

/-- The first full key injection. -/
def firstInjection (ks : ℕ → Word64) (t t' : Word64) (w : List Word64) : List Word64 :=
  inject (injected S ks t t' 0) w

/-- The feedforward. -/
def feedForward (X w : List Word64) : List Word64 := List.zipWith (· ^^^ ·) X w

/-- The unrolled rounds on a block of words. -/
def unrolledBlock (X : List Word64) (T0 T1 : Word64) (w : List Word64) : List Word64 :=
  let ks := keySchedule X
  let ts := tweakSchedule T0 T1
  let start := firstInjection S (wordAt ks) (wordAt ts 0) (wordAt ts 1) w
  feedForward ((List.range S.rcnt).foldl (eightRounds S ks ts) start) w

/-- `I1024(R)`, with `m = r + R`: the injection, and how the array of the schedule is shifted. -/
def injectLooped (s : List Word64 × List Word64) (m : ℕ) : List Word64 × List Word64 :=
  let kw := s.2
  let X :=
    inject (injected S (fun i => wordAt kw (3 + (m + i))) (wordAt kw m) (wordAt kw (m + 1)) m) s.1
  let kw := kw.set (3 + (m + S.words)) (wordAt kw (3 + (m - 1)))
  (X, kw.set (m + 2) (wordAt kw (m - 1)))

/-- `R1024_8_rounds(0)`, in the loop at `r`. -/
def eightRoundsLooped (s : List Word64 × List Word64) (r : ℕ) : List Word64 × List Word64 :=
  let s := injectLooped S (fourRounds S 0 s.1, s.2) r
  injectLooped S (fourRounds S 4 s.1, s.2) (r + 1)

/-- The looped rounds on a block of words, with `r = 1, 3, ...`; `rest` is what `kw` held behind the
schedule. -/
def loopedBlock (rest X : List Word64) (T0 T1 : Word64) (w : List Word64) : List Word64 :=
  let kw := tweakSchedule T0 T1 ++ keySchedule X ++ rest
  let start := firstInjection S (fun i => wordAt kw (3 + i)) (wordAt kw 0) (wordAt kw 1) w
  feedForward
    ((List.range S.rcnt).foldl (fun s i => eightRoundsLooped S s (2 * i + 1)) (start, kw)).1 w

/-! ## The rounds -/

/-- A word that has been set, and the others. -/
theorem wordAt_set (X : List Word64) {i : ℕ} (hi : i < X.length) (x : Word64) (j : ℕ) :
    wordAt (X.set i x) j = if j = i then x else wordAt X j := by
  unfold wordAt
  rw [List.getD_eq_getElem?_getD, List.getElem?_set]
  by_cases hj : j = i
  · rw [if_pos hj.symm, if_pos hj, if_pos hi, Option.getD_some]
  · rw [if_neg (fun heq => hj heq.symm), if_neg hj, ← List.getD_eq_getElem?_getD]

/-- A mix changes two words. -/
@[simp] theorem length_mixAt (X : List Word64) (p0 p1 rot : ℕ) :
    (mixAt X p0 p1 rot).length = X.length := by
  unfold mixAt
  dsimp only
  rw [List.length_set, List.length_set, List.length_set]

/-- **Two words are mixed**, the others stay. -/
theorem wordAt_mixAt {X : List Word64} {p0 p1 : ℕ} (h0 : p0 < X.length) (h1 : p1 < X.length)
    (hne : p0 ≠ p1) (rot j : ℕ) :
    wordAt (mixAt X p0 p1 rot) j =
      if j = p1 then rotL64 (wordAt X p1) rot ^^^ (wordAt X p0 + wordAt X p1)
      else if j = p0 then wordAt X p0 + wordAt X p1
      else wordAt X j := by
  unfold mixAt
  simp (disch := (try simp only [List.length_set]); assumption) only [wordAt_set]
  by_cases hj1 : j = p1
  · simp [hj1, hne, hne.symm]
  · simp [hj1]

/-- A round keeps the number of words. -/
@[simp] theorem length_roundAt (order rots : List ℕ) (X : List Word64) :
    (roundAt order rots X).length = X.length := by
  induction order, rots, X using roundAt.induct with
  | case1 p0 p1 order rot rots X ih => rw [roundAt, ih, length_mixAt]
  | case2 order rots X hnone => rw [roundAt]; exact hnone

/-- Words that are not in the order stay. -/
theorem wordAt_roundAt_of_notMem {order : List ℕ} (rots : List ℕ) {X : List Word64}
    (hnodup : order.Nodup)
    (hlt : ∀ p ∈ order, p < X.length) {i : ℕ} (hi : i ∉ order) :
    wordAt (roundAt order rots X) i = wordAt X i := by
  induction order, rots, X using roundAt.induct with
  | case1 p0 p1 order rot rots X ih =>
      have hne : p0 ≠ p1 := fun heq => (List.nodup_cons.mp hnodup).1 (heq ▸ List.mem_cons_self)
      have hnodup' := (List.nodup_cons.mp (List.nodup_cons.mp hnodup).2).2
      have h0 := hlt p0 List.mem_cons_self
      have h1 := hlt p1 (List.mem_cons_of_mem p0 List.mem_cons_self)
      have hi0 : i ≠ p0 := fun heq => hi (heq ▸ List.mem_cons_self)
      have hi1 : i ≠ p1 := fun heq => hi (heq ▸ List.mem_cons_of_mem p0 List.mem_cons_self)
      have hlt' : ∀ p ∈ order, p < (mixAt X p0 p1 rot).length := fun p hp => by
        rw [length_mixAt]
        exact hlt p (List.mem_cons_of_mem p0 (List.mem_cons_of_mem p1 hp))
      rw [roundAt,
        ih hnodup' hlt' (fun hmem => hi (List.mem_cons_of_mem p0 (List.mem_cons_of_mem p1 hmem))),
        wordAt_mixAt h0 h1 hne, if_neg hi1, if_neg hi0]
  | case2 order rots X hnone =>
      rw [roundAt]
      exact hnone

/-- **A round** mixes the words of the order two by two. -/
theorem wordAt_roundAt {order : List ℕ} (rots : List ℕ) {X : List Word64} (hnodup : order.Nodup)
    (hlt : ∀ p ∈ order, p < X.length) (hlength : order.length = 2 * rots.length) {j : ℕ}
    (hj : j < rots.length) :
    wordAt (roundAt order rots X) (order.getD (2 * j) 0) =
        wordAt X (order.getD (2 * j) 0) + wordAt X (order.getD (2 * j + 1) 0) ∧
      wordAt (roundAt order rots X) (order.getD (2 * j + 1) 0) =
        rotL64 (wordAt X (order.getD (2 * j + 1) 0)) (rots.getD j 0) ^^^
          (wordAt X (order.getD (2 * j) 0) + wordAt X (order.getD (2 * j + 1) 0)) := by
  induction order, rots, X using roundAt.induct generalizing j with
  | case1 p0 p1 order rot rots X ih =>
      have hnodup1 := List.nodup_cons.mp hnodup
      have hnodup2 := List.nodup_cons.mp hnodup1.2
      have hne : p0 ≠ p1 := fun heq => hnodup1.1 (heq ▸ List.mem_cons_self)
      have hp0 : p0 ∉ order := fun hmem => hnodup1.1 (List.mem_cons_of_mem p1 hmem)
      have h0 := hlt p0 List.mem_cons_self
      have h1 := hlt p1 (List.mem_cons_of_mem p0 List.mem_cons_self)
      have hlt' : ∀ p ∈ order, p < (mixAt X p0 p1 rot).length := fun p hp => by
        rw [length_mixAt]
        exact hlt p (List.mem_cons_of_mem p0 (List.mem_cons_of_mem p1 hp))
      rw [roundAt]
      cases j with
      | zero =>
          have hfirst := wordAt_roundAt_of_notMem rots hnodup2.2 hlt' hp0
          have hsecond := wordAt_roundAt_of_notMem rots hnodup2.2 hlt' hnodup2.1
          show wordAt _ p0 = wordAt X p0 + wordAt X p1 ∧
            wordAt _ p1 = rotL64 (wordAt X p1) rot ^^^ (wordAt X p0 + wordAt X p1)
          rw [hfirst, hsecond, wordAt_mixAt h0 h1 hne, wordAt_mixAt h0 h1 hne, if_neg hne,
            if_pos rfl, if_pos rfl]
          exact ⟨rfl, rfl⟩
      | succ j =>
          simp only [List.length_cons] at hlength hj
          have hrest := ih hnodup2.2 hlt' (by omega) (j := j) (by omega)
          have hsame : ∀ k, k < order.length →
              wordAt (mixAt X p0 p1 rot) (order.getD k 0) = wordAt X (order.getD k 0) := by
            intro k hk
            have hmem : order.getD k 0 ∈ order := by
              rw [List.getD_eq_getElem _ _ hk]
              exact List.getElem_mem hk
            rw [wordAt_mixAt h0 h1 hne, if_neg, if_neg]
            · exact fun heq => hp0 (heq ▸ hmem)
            · exact fun heq => hnodup2.1 (heq ▸ hmem)
          rw [hsame _ (by omega), hsame _ (by omega)] at hrest
          exact hrest
  | case2 order rots X hnone =>
      exfalso
      match order, rots, hlength, hj, hnone with
      | p0 :: p1 :: order, rot :: rots, _, _, hnone => exact hnone p0 p1 order rot rots rfl rfl
      | [], rot :: rots, hlength, _, _ => simp at hlength
      | [p0], rot :: rots, hlength, _, _ => simp at hlength; omega
      | order, [], _, hj, _ => exact absurd hj (Nat.not_lt_zero j)

/-- **Which cipher** a size belongs to. -/
structure Fits (S : BlockSize) (C : Threefish) : Prop where
  words : C.words = S.words
  rcnt : C.rcnt = S.rcnt
  even : S.words % 2 = 0
  order_length : ∀ d < 4, (S.orders.getD d []).length = S.words
  order_nodup : ∀ d < 4, (S.orders.getD d []).Nodup
  order_lt : ∀ d < 4, ∀ p ∈ S.orders.getD d [], p < S.words
  order_zero : ∀ i < S.words, (S.orders.getD 0 []).getD i 0 = i
  order_succ : ∀ d < 4, ∀ i < S.words,
    (S.orders.getD ((d + 1) % 4) []).getD i 0 = (S.orders.getD d []).getD (C.perm i) 0
  perm_lt : ∀ i < S.words, C.perm i < S.words
  rotations_length : ∀ q < 8, 2 * (S.rotations.getD q []).length = S.words
  rotations : ∀ q < 8, ∀ j < S.words, (S.rotations.getD q []).getD j 0 = C.rotation q j

section Rounds

variable {S : BlockSize} {C : Threefish} (fits : Fits S C) {X : List Word64} {e : ℕ → Word64}

include fits in
/-- **One round**: the words change, and with them the order in which they are looked at. -/
theorem roundAt_ordered {d q : ℕ} (hd : d < 4) (hq : q < 8) (hX : X.length = S.words)
    (he : ∀ i < S.words, wordAt X ((S.orders.getD d []).getD i 0) = e i) {i : ℕ}
    (hi : i < S.words) :
    wordAt (roundAt (S.orders.getD d []) (S.rotations.getD q []) X)
        ((S.orders.getD ((d + 1) % 4) []).getD i 0) =
      Threefish.mix (C.rotation q) e (C.perm i) := by
  have heven := fits.even
  have hlength := fits.order_length d hd
  have hrots := fits.rotations_length q hq
  have hperm := fits.perm_lt i hi
  rw [fits.order_succ d hd i hi]
  generalize C.perm i = k at hperm
  have hround := wordAt_roundAt (S.rotations.getD q []) (j := k / 2) (fits.order_nodup d hd)
    (fun p hp => hX ▸ fits.order_lt d hd p hp) (by omega) (by omega)
  rw [he _ (by omega), he _ (by omega), fits.rotations q hq _ (by omega)] at hround
  unfold Threefish.mix
  rcases Nat.mod_two_eq_zero_or_one k with hk | hk
  · have hhalf : 2 * (k / 2) = k := by omega
    rw [hhalf] at hround
    rw [if_pos hk]
    exact hround.1
  · have hhalf : 2 * (k / 2) + 1 = k := by omega
    have hpred : 2 * (k / 2) = k - 1 := by omega
    rw [hhalf, hpred] at hround
    rw [if_neg (by omega)]
    exact hround.2

/-- Four rounds keep the number of words. -/
@[simp] theorem length_fourRounds (q : ℕ) (X : List Word64) :
    (fourRounds S q X).length = X.length := by
  simp only [fourRounds, List.foldl_cons, List.foldl_nil, length_roundAt]

include fits in
/-- **The four rounds** after a key injection, after which the order is the first one again. -/
theorem wordAt_fourRounds {key tweak w : ℕ → Word64} {g : ℕ} (hX : X.length = S.words)
    (he : ∀ i < S.words, wordAt X i = C.keyed key tweak (4 * g) (C.state key tweak w (4 * g)) i)
    {i : ℕ} (hi : i < S.words) :
    wordAt (fourRounds S (4 * (g % 2)) X) i = C.state key tweak w (4 * g + 4) i := by
  have hplain : ∀ d <
      3, C.keyed key tweak (4 * g + (d + 1)) (C.state key tweak w (4 * g + (d + 1))) =
      C.state key tweak w (4 * g + (d + 1)) := by
    intro d hd
    funext k
    exact if_neg (by omega)
  have hrotation : ∀ d < 4, C.rotation (4 * (g % 2) + d) = C.rotation ((4 * g + d) % 8) := by
    intro d hd
    congr 1
    omega
  have hsucc : ∀ d < 4, ∀ Y : List Word64, Y.length = S.words →
      (∀ k < S.words, wordAt Y ((S.orders.getD d []).getD k 0) =
        C.keyed key tweak (4 * g + d) (C.state key tweak w (4 * g + d)) k) →
      ∀ k < S.words, wordAt (roundAt (S.orders.getD d []) (S.rotations.getD (4 * (g % 2) + d) []) Y)
        ((S.orders.getD ((d + 1) % 4) []).getD k 0) = C.state key tweak w (4 * g + (d + 1)) k := by
    intro d hd Y hY hkeyed k hk
    rw [roundAt_ordered fits hd (by omega) hY hkeyed hk, hrotation d hd]
    rfl
  have h0 : ∀ k < S.words, wordAt X ((S.orders.getD 0 []).getD k 0) =
      C.keyed key tweak (4 * g + 0) (C.state key tweak w (4 * g + 0)) k := by
    intro k hk
    rw [fits.order_zero k hk]
    exact he k hk
  have h1 := hsucc 0 (by omega) X hX h0
  rw [← hplain 0 (by omega)] at h1
  have h2 := hsucc 1 (by omega) _ (by rw [length_roundAt, hX]) h1
  rw [← hplain 1 (by omega)] at h2
  have h3 := hsucc 2 (by omega) _ (by rw [length_roundAt, length_roundAt, hX]) h2
  rw [← hplain 2 (by omega)] at h3
  have h4 :=
    hsucc 3 (by omega) _ (by rw [length_roundAt, length_roundAt, length_roundAt, hX]) h3 i hi
  have hback : (3 + 1) % 4 = 0 := rfl
  rw [hback, fits.order_zero i hi] at h4
  exact h4

/-! ## The key injections -/

/-- An injection keeps the number of words. -/
@[simp] theorem length_inject (word : ℕ → Word64) (X : List Word64) :
    (inject word X).length = X.length := List.length_mapIdx

/-- To every word its own is added. -/
theorem wordAt_inject (word : ℕ → Word64) {i : ℕ} (hi : i < X.length) :
    wordAt (inject word X) i = wordAt X i + word i := by
  unfold wordAt inject
  rw [List.getD_eq_getElem _ _ (by rwa [List.length_mapIdx]), List.getElem_mapIdx,
    List.getD_eq_getElem _ _ hi]

include fits in
/-- **A key injection** adds the subkey, if its words are those of the schedules. -/
theorem injected_eq {ks key tweak : ℕ → Word64} {g i : ℕ}
    (hks : ∀ i < S.words, ks i = key ((g + i) % (S.words + 1))) (hi : i < S.words) :
    injected S ks (tweak (g % 3)) (tweak ((g + 1) % 3)) g i = C.subkey key tweak g i := by
  unfold injected Threefish.subkey
  rw [hks i hi, fits.words]

/-- A subkey is added in front of every fourth round. -/
theorem keyed_four (key tweak : ℕ → Word64) (g : ℕ) (v : ℕ → Word64) (i : ℕ) :
    C.keyed key tweak (4 * g) v i = v i + C.subkey key tweak g i := by
  unfold Threefish.keyed
  rw [if_pos (Nat.mul_mod_right 4 g), Nat.mul_div_cancel_left g (by omega)]

/-- The words after the key injection `g`. -/
def InjectedAt (S : BlockSize) (C : Threefish) (key tweak w : ℕ → Word64) (g : ℕ)
    (X : List Word64) : Prop :=
  X.length = S.words ∧
    ∀ i < S.words, wordAt X i = C.keyed key tweak (4 * g) (C.state key tweak w (4 * g)) i

include fits in
/-- The first injection, before the rounds. -/
theorem injectedAt_first {ks key tweak : ℕ → Word64} {w : List Word64} (hw : w.length = S.words)
    (hks : ∀ i < S.words, ks i = key i) :
    InjectedAt S C key tweak (wordAt w) 0 (firstInjection S ks (tweak 0) (tweak 1) w) := by
  refine ⟨by rw [firstInjection, length_inject, hw], fun i hi => ?_⟩
  have hks' : ∀ i < S.words, ks i = key ((0 + i) % (S.words + 1)) := fun i hi => by
    rw [Nat.zero_add, Nat.mod_eq_of_lt (by omega), hks i hi]
  rw [firstInjection, wordAt_inject _ (by omega), keyed_four, ← injected_eq fits hks' hi]
  rfl

include fits in
/-- **From one injection to the next one.** -/
theorem injectedAt_succ {ks key tweak w : ℕ → Word64} {g : ℕ} (hX : InjectedAt S C key tweak w g X)
    (hks : ∀ i < S.words, ks i = key ((g + 1 + i) % (S.words + 1))) :
    InjectedAt S C key tweak w (g + 1)
      (inject (injected S ks (tweak ((g + 1) % 3)) (tweak ((g + 2) % 3)) (g + 1))
        (fourRounds S (4 * (g % 2)) X)) := by
  refine ⟨by rw [length_inject, length_fourRounds, hX.1], fun i hi => ?_⟩
  rw [wordAt_inject _ (by rw [length_fourRounds, hX.1]; exact hi),
    wordAt_fourRounds fits hX.1 hX.2 hi, keyed_four, ← injected_eq fits hks hi, Nat.mul_succ]

include fits in
/-- **The feedforward** after the last injection. -/
theorem wordAt_feedForward {key tweak : ℕ → Word64} {w : List Word64} (hw : w.length = S.words)
    (hX : InjectedAt S C key tweak (wordAt w) (2 * S.rcnt) X) {i : ℕ} (hi : i < S.words) :
    wordAt (feedForward X w) i = C.encrypt key tweak (wordAt w) i ^^^ wordAt w i := by
  have hrcnt : 8 * C.rcnt = 4 * (2 * S.rcnt) := by
    rw [fits.rcnt]
    omega
  have hword := hX.2 i hi
  unfold Threefish.encrypt
  rw [hrcnt, ← hword]
  unfold wordAt feedForward
  rw [List.getD_eq_getElem _ _ (by rw [List.length_zipWith, hX.1, hw]; omega), List.getElem_zipWith,
    List.getD_eq_getElem _ _ (by rw [hX.1]; exact hi),
    List.getD_eq_getElem _ _ (by rw [hw]; exact hi)]

/-- The feedforward has as many words as the block. -/
theorem length_feedForward {key tweak : ℕ → Word64} {w : List Word64} (hw : w.length = S.words)
    {g : ℕ}
    (hX : InjectedAt S C key tweak (wordAt w) g X) : (feedForward X w).length = S.words := by
  rw [feedForward, List.length_zipWith, hX.1, hw, Nat.min_self]

/-! ## The unrolled functions -/

include fits in
/-- Eight rounds lead from an injection to the one after the next. -/
theorem injectedAt_eightRounds {ks ts : List Word64} {w : ℕ → Word64} {R : ℕ}
    (hX : InjectedAt S C (wordAt ks) (wordAt ts) w (2 * R) X) :
    InjectedAt S C (wordAt ks) (wordAt ts) w (2 * (R + 1)) (eightRounds S ks ts X R) := by
  have heven : 4 * (2 * R % 2) = 0 := by omega
  have hodd : 4 * ((2 * R + 1) % 2) = 4 := by omega
  have hmid := injectedAt_succ fits hX (fun _ _ => rfl)
  rw [heven] at hmid
  have hend := injectedAt_succ fits hmid (fun _ _ => rfl)
  rw [hodd] at hend
  exact hend

include fits in
/-- The unrolled rounds are the rounds of Threefish, by induction on the groups of eight. -/
theorem injectedAt_unrolled {w : List Word64} (X : List Word64) (T0 T1 : Word64)
    (hw : w.length = S.words)
    (n : ℕ) :
    InjectedAt S C (wordAt (keySchedule X)) (wordAt (tweakSchedule T0 T1)) (wordAt w) (2 * n)
      ((List.range n).foldl (eightRounds S (keySchedule X) (tweakSchedule T0 T1))
        (firstInjection S (wordAt (keySchedule X)) (wordAt (tweakSchedule T0 T1) 0)
          (wordAt (tweakSchedule T0 T1) 1) w)) := by
  induction n with
  | zero => exact injectedAt_first fits hw (fun _ _ => rfl)
  | succ n ih =>
      rw [List.range_succ, List.foldl_append]
      exact injectedAt_eightRounds fits ih

include fits in
/-- **The unrolled functions** compute the cipher, and its input is XORed to the result. -/
theorem unrolledBlock_eq {w : List Word64} (X : List Word64) (T0 T1 : Word64)
    (hw : w.length = S.words)
    {i : ℕ} (hi : i < S.words) :
    wordAt (unrolledBlock S X T0 T1 w) i =
      C.encrypt (wordAt (keySchedule X)) (wordAt (tweakSchedule T0 T1)) (wordAt w) i ^^^
        wordAt w i :=
  wordAt_feedForward fits hw (injectedAt_unrolled fits X T0 T1 hw S.rcnt) hi

include fits in
/-- A block leaves as many chaining words as the size has. -/
theorem length_unrolledBlock {w : List Word64} (X : List Word64) (T0 T1 : Word64)
    (hw : w.length = S.words) : (unrolledBlock S X T0 T1 w).length = S.words :=
  length_feedForward hw (injectedAt_unrolled fits X T0 T1 hw S.rcnt)

/-! ## The loop -/

/-- What the array of the schedule holds before the injection `m`. -/
structure Window (S : BlockSize) (key tweak : ℕ → Word64) (m : ℕ) (kw : List Word64) : Prop where
  length : kw.length = 4 + S.words + 2 * S.rcnt
  tweak : ∀ j ≤ 2, wordAt kw (m - 1 + j) = tweak ((m - 1 + j) % 3)
  key : ∀ j ≤ S.words, wordAt kw (m + 2 + j) = key ((m - 1 + j) % (S.words + 1))

/-- **The window moves on**: the word that the tweak takes over has just been copied behind the
key. -/
theorem window_succ {key tweak : ℕ → Word64} {m : ℕ} {kw : List Word64}
    (hwindow : Window S key tweak m kw)
    (hm : 1 ≤ m) (hle : m ≤ 2 * S.rcnt) (X : List Word64) :
    Window S key tweak (m + 1) (injectLooped S (X, kw) m).2 := by
  have hlength := hwindow.length
  have hkey := hwindow.key 0 (Nat.zero_le _)
  have htweak := hwindow.tweak 0 (Nat.zero_le _)
  have hfirst : 3 + (m + S.words) < kw.length := by omega
  have hword : ∀ j, wordAt (injectLooped S (X, kw) m).2 j =
      if j = m + 2 then wordAt kw (m - 1)
      else if j = 3 + (m + S.words) then wordAt kw (3 + (m - 1)) else wordAt kw j := by
    intro j
    unfold injectLooped
    dsimp only
    rw [wordAt_set _ (by rw [List.length_set]; omega), wordAt_set _ hfirst, wordAt_set _ hfirst,
      if_neg (by omega : ¬ m - 1 = 3 + (m + S.words))]
  constructor
  · unfold injectLooped
    dsimp only
    rw [List.length_set, List.length_set, hlength]
  · intro j hj
    rw [hword]
    by_cases hj2 : j = 2
    · rw [if_pos (by omega)]
      rw [Nat.add_zero] at htweak
      rw [htweak]
      congr 1
      omega
    · rw [if_neg (by omega), if_neg (by omega)]
      have hnext := hwindow.tweak (j + 1) (by omega)
      have hindex : m - 1 + (j + 1) = m + 1 - 1 + j := by omega
      rw [hindex] at hnext
      exact hnext
  · intro j hj
    rw [hword, if_neg (by omega)]
    by_cases hlast : j = S.words
    · have hback : 3 + (m - 1) = m + 2 + 0 := by omega
      have hcycle : m + 1 - 1 + j = m - 1 + 0 + (S.words + 1) := by omega
      rw [if_pos (by omega), hback, hkey, hcycle, Nat.add_mod_right]
    · rw [if_neg (by omega)]
      have hnext := hwindow.key (j + 1) (by omega)
      have hindex : m - 1 + (j + 1) = m + 1 - 1 + j := by omega
      have hplace : m + 2 + (j + 1) = m + 1 + 2 + j := by omega
      rw [hindex, hplace] at hnext
      exact hnext

include fits in
/-- Four rounds and the injection of the loop lead to the next injection. -/
theorem injectedAt_injectLooped {key tweak w : ℕ → Word64} {g : ℕ} {kw : List Word64}
    (hX : InjectedAt S C key tweak w g X) (hwindow : Window S key tweak (g + 1) kw) :
    InjectedAt S C key tweak w (g + 1)
      (injectLooped S (fourRounds S (4 * (g % 2)) X, kw) (g + 1)).1 := by
  have h1 := hwindow.tweak 1 (by omega)
  have h2 := hwindow.tweak 2 (by omega)
  have hks : ∀ i < S.words, wordAt kw (3 + (g + 1 + i)) = key ((g + 1 + i) % (S.words + 1)) := by
    intro i hi
    have hkey := hwindow.key (i + 1) (by omega)
    have hplace : g + 1 + 2 + (i + 1) = 3 + (g + 1 + i) := by omega
    have hindex : g + 1 - 1 + (i + 1) = g + 1 + i := by omega
    rw [hplace, hindex] at hkey
    exact hkey
  have hnext := injectedAt_succ fits hX hks
  rw [Nat.add_sub_cancel] at h1 h2
  rw [← h1, ← h2] at hnext
  exact hnext

include fits in
/-- One round of the loop: two injections, and the windows on the schedules have moved on. -/
theorem injectedAt_eightRoundsLooped {key tweak w : ℕ → Word64} {n : ℕ} (hn : n < S.rcnt)
    {s : List Word64 × List Word64} (hs : InjectedAt S C key tweak w (2 * n) s.1)
    (hwindow : Window S key tweak (2 * n + 1) s.2) :
    InjectedAt S C key tweak w (2 * (n + 1)) (eightRoundsLooped S s (2 * n + 1)).1 ∧
      Window S key tweak (2 * (n + 1) + 1) (eightRoundsLooped S s (2 * n + 1)).2 := by
  have heven : 4 * (2 * n % 2) = 0 := by omega
  have hodd : 4 * ((2 * n + 1) % 2) = 4 := by omega
  have hmid := injectedAt_injectLooped fits hs hwindow
  rw [heven] at hmid
  have hwindow' := window_succ hwindow (by omega) (by omega) (fourRounds S 0 s.1)
  have hend := injectedAt_injectLooped fits hmid hwindow'
  rw [hodd] at hend
  exact ⟨hend, window_succ hwindow' (by omega) (by omega) (fourRounds S 4 _)⟩

/-- The tweak is in front of the key in the array of the loop. -/
theorem wordAt_schedule {ts ks : List Word64} (rest : List Word64) {words : ℕ} (hts : ts.length = 3)
    (hks : ks.length = words + 1) :
    (∀ j ≤ 2, wordAt (ts ++ ks ++ rest) j = wordAt ts j) ∧
      ∀ j ≤ words, wordAt (ts ++ ks ++ rest) (3 + j) = wordAt ks j := by
  constructor
  · intro j hj
    unfold wordAt
    rw [List.append_assoc, List.getD_append _ _ _ _ (by omega)]
  · intro j hj
    unfold wordAt
    rw [List.append_assoc, List.getD_append_right _ _ _ _ (by omega), hts, Nat.add_sub_cancel_left,
      List.getD_append _ _ _ _ (by omega)]

/-- The window stands at the start of the array. -/
theorem window_one {ts ks rest : List Word64} (hts : ts.length = 3) (hks : ks.length = S.words + 1)
    (hrest : rest.length = 2 * S.rcnt) : Window S (wordAt ks) (wordAt ts) 1 (ts ++ ks ++ rest) := by
  obtain ⟨hlow, hhigh⟩ := wordAt_schedule rest hts hks
  constructor
  · rw [List.length_append, List.length_append, hts, hks, hrest]
    omega
  · intro j hj
    rw [Nat.sub_self, Nat.zero_add, Nat.mod_eq_of_lt (by omega)]
    exact hlow j hj
  · intro j hj
    rw [Nat.sub_self, Nat.zero_add, Nat.mod_eq_of_lt (by omega)]
    exact hhigh j hj

include fits in
/-- After `n` passes, `2 n` injections have been done, and the window stands before the next one. -/
theorem injectedAt_looped {rest w : List Word64} (T0 T1 : Word64) (hX : X.length = S.words)
    (hrest : rest.length = 2 * S.rcnt) (hw : w.length = S.words) {n : ℕ} (hn : n ≤ S.rcnt) :
    let kw := tweakSchedule T0 T1 ++ keySchedule X ++ rest
    let s := (List.range n).foldl (fun s i => eightRoundsLooped S s (2 * i + 1))
      (firstInjection S (fun i => wordAt kw (3 + i)) (wordAt kw 0) (wordAt kw 1) w, kw)
    InjectedAt S C (wordAt (keySchedule X)) (wordAt (tweakSchedule T0 T1)) (wordAt w) (2 * n) s.1 ∧
      Window S (wordAt (keySchedule X)) (wordAt (tweakSchedule T0 T1)) (2 * n + 1) s.2 := by
  have hkey : (keySchedule X).length = S.words + 1 := by
    rw [keySchedule, List.length_append, hX, List.length_singleton]
  have htweak : (tweakSchedule T0 T1).length = 3 := rfl
  obtain ⟨hlow, hhigh⟩ := wordAt_schedule rest htweak hkey
  induction n with
  | zero =>
      dsimp only
      rw [List.range_zero, List.foldl_nil, hlow 0 (by omega), hlow 1 (by omega)]
      exact ⟨injectedAt_first fits hw (fun i hi => hhigh i hi.le), window_one htweak hkey hrest⟩
  | succ n ih =>
      obtain ⟨hinjected, hwindow⟩ := ih (by omega)
      dsimp only
      rw [List.range_succ, List.foldl_append]
      exact injectedAt_eightRoundsLooped fits hn hinjected hwindow

include fits in
/-- **The loop** computes the cipher too, whatever the array held behind the schedule. -/
theorem loopedBlock_eq {rest w : List Word64} (T0 T1 : Word64) (hX : X.length = S.words)
    (hrest : rest.length = 2 * S.rcnt) (hw : w.length = S.words) {i : ℕ} (hi : i < S.words) :
    wordAt (loopedBlock S rest X T0 T1 w) i =
      C.encrypt (wordAt (keySchedule X)) (wordAt (tweakSchedule T0 T1)) (wordAt w) i ^^^
        wordAt w i :=
  wordAt_feedForward fits hw (injectedAt_looped fits T0 T1 hX hrest hw le_rfl).1 hi

include fits in
/-- The looped variant leaves as many chaining words, too. -/
theorem length_loopedBlock {rest w : List Word64} (T0 T1 : Word64) (hX : X.length = S.words)
    (hrest : rest.length = 2 * S.rcnt) (hw : w.length = S.words) :
    (loopedBlock S rest X T0 T1 w).length = S.words :=
  length_feedForward hw (injectedAt_looped fits T0 T1 hX hrest hw le_rfl).1

end Rounds

/-! ## The sizes -/

/-- The cipher of a size, from the permutation of its words. -/
def cipher (S : BlockSize) (perm : List ℕ) : Threefish where
  words := S.words
  rcnt := S.rcnt
  perm i := perm.getD i 0
  rotation q j := (S.rotations.getD q []).getD j 0

/-- Threefish-256 -/
def threefish256 : Threefish := cipher size256 [0, 3, 2, 1]

/-- Threefish-512 -/
def threefish512 : Threefish := cipher size512 [2, 1, 4, 7, 6, 5, 0, 3]

/-- Threefish-1024 -/
def threefish1024 : Threefish :=
  cipher size1024 [0, 9, 2, 13, 6, 11, 4, 15, 10, 7, 12, 3, 14, 5, 8, 1]

/-- The tables of the 256-bit size are those of Threefish-256. -/
theorem fits256 : Fits size256 threefish256 := by
  constructor <;> decide

/-- The tables of the 512-bit size are those of Threefish-512. -/
theorem fits512 : Fits size512 threefish512 := by
  constructor <;> decide

/-- The tables of the 1024-bit size are those of Threefish-1024. -/
theorem fits1024 : Fits size1024 threefish1024 := by
  constructor <;> decide

end Skein
