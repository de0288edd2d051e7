/-
# Skein: hashing in pieces, MACs and precomputed chaining variables

Models `src/ccrtp/crypto/skein.c`, `skeinApi.c`, `skein_iv.h` and `macSkein.cpp`.  The functions for
the three sizes are the same text up to the constants; here the size is a parameter.  A context
takes in the message in pieces and always keeps the last octets back, up to a whole block, since the
last block is processed with another tweak.

The specification is `Skein.mac`: a chain of three hashes (`ubi`) of the key, of a configuration
block and of the message, each with its own type in the tweak, and a last one that runs over a
counter.  A position in the tweak counts modulo 2⁶⁴.

* `looped_eq_unrolled` : the two variants of the block functions agree;
* `buffered_updates` : a message in pieces;
* `finished_ubi` : the chain of a message;
* `final_eq` : the output;
* `buffered_initExt` : the chaining variables from a key.
-/
import CcRtp.BlockStream
import CcRtp.LittleEndian
import CcRtp.SkeinBlock

/-! ## Sizes and tweaks -/

/-- `SkeinSize_t` -/
inductive SkeinSize : Type where
  | Skein256
  | Skein512
  | Skein1024
  deriving DecidableEq, Repr

/-- `SKEIN_T1_FLAG_FINAL` -/
def SKEIN_T1_FLAG_FINAL : Word64 := 1 <<< 63

/-- `SKEIN_T1_BLK_TYPE_KEY` -/
def SKEIN_T1_BLK_TYPE_KEY : Word64 := 0 <<< 56

/-- `SKEIN_T1_BLK_TYPE_CFG` -/
def SKEIN_T1_BLK_TYPE_CFG : Word64 := 4 <<< 56

/-- `SKEIN_T1_BLK_TYPE_MSG` -/
def SKEIN_T1_BLK_TYPE_MSG : Word64 := 48 <<< 56

/-- `SKEIN_T1_BLK_TYPE_OUT` -/
def SKEIN_T1_BLK_TYPE_OUT : Word64 := 63 <<< 56

/-- `SKEIN_SCHEMA_VER` -/
def SKEIN_SCHEMA_VER : Word64 := 0x133414853

/-- `SKEIN_CFG_STR_LEN` -/
def SKEIN_CFG_STR_LEN : ℕ := 32

/-- `SKEIN_CFG_TREE_INFO_SEQUENTIAL` -/
def SKEIN_CFG_TREE_INFO_SEQUENTIAL : Word64 := 0

namespace SkeinSize

/-- The constants of the block function. -/
def blockSize : SkeinSize → Skein.BlockSize
  | Skein256 => Skein.size256
  | Skein512 => Skein.size512
  | Skein1024 => Skein.size1024

/-- `SKEIN_256_STATE_WORDS`, `SKEIN_512_STATE_WORDS`, `SKEIN1024_STATE_WORDS` -/
def words (s : SkeinSize) : ℕ := s.blockSize.words

/-- `SKEIN_256_BLOCK_BYTES`, `SKEIN_512_BLOCK_BYTES`, `SKEIN1024_BLOCK_BYTES` -/
def blockBytes (s : SkeinSize) : ℕ := 8 * s.words

/-- What the block function makes of the chaining variables, for a tweak and the words of a block.
Only the third one is a loop. -/
def block : SkeinSize → List Word64 → Word64 → Word64 → List Word64 → List Word64
  | Skein256 => Skein.unrolledBlock Skein.size256
  | Skein512 => Skein.unrolledBlock Skein.size512
  | Skein1024 => Skein.loopedBlock Skein.size1024 (List.replicate 20 0)

/-- The cipher of the specification. -/
def cipher : SkeinSize → Threefish
  | Skein256 => Skein.threefish256
  | Skein512 => Skein.threefish512
  | Skein1024 => Skein.threefish1024

end SkeinSize

/-! ## Contexts -/

/-- `Skein_256_Ctxt_t`, `Skein_512_Ctxt_t`, `Skein1024_Ctxt_t` -/
structure SkeinCtxt where
  hashBitLen : ℕ
  bCnt : ℕ
  T0 : Word64
  T1 : Word64
  X : List Word64
  b : Octets
  deriving DecidableEq, Repr

namespace Skein

variable (s : SkeinSize)

/-- `Skein_256_Process_Block`, `Skein_512_Process_Block`, `Skein1024_Process_Block`: takes in
`blkCnt` blocks.
-/
def Process_Block (byteCntAdd : ℕ) : ℕ → SkeinCtxt → Octets → SkeinCtxt
  | 0, ctx, _ => ctx
  | blkCnt + 1, ctx, blkPtr =>
      let T0 := ctx.T0 + BitVec.ofNat 64 byteCntAdd
      let X := s.block ctx.X T0 ctx.T1 (loadWords 64 8 s.words blkPtr)
      let T1 := ctx.T1 &&& ~~~SKEIN_T1_FLAG_FIRST
      Process_Block byteCntAdd blkCnt { ctx with T0, T1, X } (blkPtr.drop s.blockBytes)

/-- `Skein_Start_New_Type` -/
def Start_New_Type (ctx : SkeinCtxt) (type : Word64) : SkeinCtxt :=
  { ctx with T0 := 0, T1 := SKEIN_T1_FLAG_FIRST ||| type, bCnt := 0 }

/-- Fills the buffer up and takes it in. -/
def finishBuffered (ctx : SkeinCtxt) (msg : Octets) : SkeinCtxt × Octets :=
  if ctx.bCnt ≠ 0 then
    let n := s.blockBytes - ctx.bCnt
    let (ctx, msg) :=
      if n ≠ 0 then
        ({ ctx with b := writeAt ctx.b ctx.bCnt (msg.take n), bCnt := ctx.bCnt + n }, msg.drop n)
      else (ctx, msg)
    ({ Process_Block s s.blockBytes 1 ctx ctx.b with bCnt := 0 }, msg)
  else (ctx, msg)

/-- Takes in full blocks directly from the message, but not the last one. -/
def fullBlocks (ctx : SkeinCtxt) (msg : Octets) : SkeinCtxt × Octets :=
  if s.blockBytes < msg.length then
    let n := (msg.length - 1) / s.blockBytes
    (Process_Block s s.blockBytes n ctx msg, msg.drop (n * s.blockBytes))
  else (ctx, msg)

/-- Copies the remaining octets into the buffer. -/
def copyRemaining (ctx : SkeinCtxt) (msg : Octets) : SkeinCtxt :=
  if msg.length ≠ 0 then
    { ctx with b := writeAt ctx.b ctx.bCnt msg, bCnt := ctx.bCnt + msg.length }
  else ctx

/-- `Skein_256_Update`, `Skein_512_Update`, `Skein1024_Update` -/
def Update (ctx : SkeinCtxt) (msg : Octets) : SkeinCtxt :=
  if s.blockBytes < msg.length + ctx.bCnt then
    let (ctx, msg) := finishBuffered s ctx msg
    let (ctx, msg) := fullBlocks s ctx msg
    copyRemaining ctx msg
  else copyRemaining ctx msg

/-- Tags and pads the final block, and takes it in. -/
def finalBlock (ctx : SkeinCtxt) : SkeinCtxt :=
  let ctx := { ctx with T1 := ctx.T1 ||| SKEIN_T1_FLAG_FINAL }
  let ctx :=
    if ctx.bCnt < s.blockBytes then
      { ctx with b := writeAt ctx.b ctx.bCnt (List.replicate (s.blockBytes - ctx.bCnt) 0) }
    else ctx
  Process_Block s ctx.bCnt 1 ctx ctx.b

/-- `Skein_256_Final_Pad`, `Skein_512_Final_Pad`, `Skein1024_Final_Pad` -/
def Final_Pad (ctx : SkeinCtxt) : SkeinCtxt × Octets :=
  let ctx := finalBlock s ctx
  (ctx, (storeWords 8 ctx.X).take s.blockBytes)

/-- One pass of the loop over the counter: `X` is the local copy of the chaining variables. -/
def counterBlock (X : List Word64) (byteCnt : ℕ) (out : SkeinCtxt × Octets) (i : ℕ) :
    SkeinCtxt × Octets :=
  let ctx := { out.1 with b := writeAt out.1.b 0 (littleEndian 8 i) }
  let ctx := Start_New_Type ctx (SKEIN_T1_BLK_TYPE_OUT ||| SKEIN_T1_FLAG_FINAL)
  let ctx := Process_Block s 8 1 ctx ctx.b
  let n := byteCnt - i * s.blockBytes
  let n := if s.blockBytes ≤ n then s.blockBytes else n
  ({ ctx with X := X }, out.2 ++ (storeWords 8 ctx.X).take n)

/-- `Skein_256_Final`, `Skein_512_Final`, `Skein1024_Final`, with the hash value.  The loop runs for
all `i` with `i * SKEIN_256_BLOCK_BYTES < byteCnt`. -/
def Final (ctx : SkeinCtxt) : SkeinCtxt × Octets :=
  let ctx := finalBlock s ctx
  let byteCnt := (ctx.hashBitLen + 7) / 8
  let ctx := { ctx with b := List.replicate s.blockBytes 0 }
  (List.range ((byteCnt + (s.blockBytes - 1)) / s.blockBytes)).foldl (counterBlock s ctx.X byteCnt)
    (ctx, [])

/-- `cfg.w` -/
def configBlock (hashBitLen : ℕ) (treeInfo : Word64) : Octets :=
  storeWords 8 ([SKEIN_SCHEMA_VER, BitVec.ofNat 64 hashBitLen, treeInfo] ++
    List.replicate (s.words - 3) (0 : Word64))

/-- Builds and processes the configuration block, and gets ready for the message. -/
def configure (ctx : SkeinCtxt) (hashBitLen : ℕ) (treeInfo : Word64) : SkeinCtxt :=
  let ctx := { ctx with hashBitLen := hashBitLen }
  let ctx := Start_New_Type ctx (SKEIN_T1_BLK_TYPE_CFG ||| SKEIN_T1_FLAG_FINAL)
  let ctx := Process_Block s SKEIN_CFG_STR_LEN 1 ctx (configBlock s hashBitLen treeInfo)
  Start_New_Type ctx SKEIN_T1_BLK_TYPE_MSG

/-- Pre-processes a key. -/
def hashKey (ctx : SkeinCtxt) (key : Octets) : SkeinCtxt :=
  let ctx := { ctx with hashBitLen := 8 * s.blockBytes }
  let ctx := Start_New_Type ctx SKEIN_T1_BLK_TYPE_KEY
  let ctx := { ctx with X := List.replicate s.words 0 }
  let ctx := Update s ctx key
  let (ctx, cfg) := Final_Pad s ctx
  { ctx with X := loadWords 64 8 s.words cfg }

/-- `Skein_256_InitExt`, `Skein_512_InitExt`, `Skein1024_InitExt` -/
def InitExt (ctx : SkeinCtxt) (hashBitLen : ℕ) (treeInfo : Word64) (key : Octets) : SkeinCtxt :=
  let ctx :=
    if key.length = 0 then { ctx with X := List.replicate s.words 0 } else hashKey s ctx key
  configure s ctx hashBitLen treeInfo

/-! ## The specification -/

/-- The compression function: the cipher with the chaining variables as its key, XORed with the
block. -/
def compress (X : List Word64) (T0 T1 : Word64) (w : List Word64) : List Word64 :=
  (List.range s.words).map (fun i =>
    s.cipher.encrypt (wordAt (keySchedule X)) (wordAt (tweakSchedule T0 T1)) (wordAt w) i ^^^
    wordAt w i)

/-- The second word of the tweak. -/
def flags (type : Word64) (first final : Bool) : Word64 :=
  (bif first then SKEIN_T1_FLAG_FIRST ||| type else type) |||
    (bif final then SKEIN_T1_FLAG_FINAL else 0)

/-- The last block of a message; an empty message has one, too. -/
def lastBlock (m : Octets) : ℕ := (m.length - 1) / s.blockBytes

/-- The compression of the block `i`, with the number of the octets so far. -/
def ubiBlock (type : Word64) (m : Octets) (H : List Word64) (i : ℕ) : List Word64 :=
  compress s H (BitVec.ofNat 64 (min ((i + 1) * s.blockBytes) m.length))
    (flags type (i == 0) (i == lastBlock s m))
    (loadWords 64 8 s.words ((m ++ List.replicate s.blockBytes 0).drop (i * s.blockBytes)))

/-- The hash of one message of some type, which is padded with zeros. -/
def ubi (G : List Word64) (type : Word64) (m : Octets) : List Word64 :=
  (List.range (lastBlock s m + 1)).foldl (ubiBlock s type m) G

/-- The chaining variables for the messages. -/
def initial (hashBitLen : ℕ) (treeInfo : Word64) (key : Octets) : List Word64 :=
  let zeros := List.replicate s.words (0 : Word64)
  let K := if key.length = 0 then zeros else ubi s zeros SKEIN_T1_BLK_TYPE_KEY key
  ubi s K SKEIN_T1_BLK_TYPE_CFG
    (storeWords 8 [SKEIN_SCHEMA_VER, BitVec.ofNat 64 hashBitLen, treeInfo, 0])

/-- `byteCnt` octets of output. -/
def output (G : List Word64) (byteCnt : ℕ) : Octets :=
  ((List.range ((byteCnt + (s.blockBytes - 1)) / s.blockBytes)).flatMap (fun i =>
    storeWords 8 (ubi s G SKEIN_T1_BLK_TYPE_OUT (littleEndian 8 i)))).take byteCnt

/-- The MAC of a message, from its chaining variables. -/
def mac (G : List Word64) (hashBitLen : ℕ) (m : Octets) : Octets :=
  output s (ubi s G SKEIN_T1_BLK_TYPE_MSG m) ((hashBitLen + 7) / 8)

/-! ## The block functions -/

variable {s}

theorem eight_mul_words (s : SkeinSize) : 8 * s.words = s.blockBytes := rfl

theorem le_blockBytes (s : SkeinSize) : 32 ≤ s.blockBytes := by
  cases s <;> decide

@[simp] theorem length_compress (X : List Word64) (T0 T1 : Word64) (w : List Word64) :
    (compress s X T0 T1 w).length = s.words := by
  rw [compress, List.length_map, List.length_range]

theorem wordAt_compress (X : List Word64) (T0 T1 : Word64) (w : List Word64) {i : ℕ}
    (hi : i < s.words) :
    wordAt (compress s X T0 T1 w) i =
      s.cipher.encrypt (wordAt (keySchedule X)) (wordAt (tweakSchedule T0 T1)) (wordAt w) i ^^^
        wordAt w i := by
  unfold compress
  generalize s.cipher.encrypt _ _ (wordAt w) = e
  rw [wordAt, List.getD_eq_getElem _ _ (by rwa [List.length_map, List.length_range]),
    List.getElem_map, List.getElem_range]

/-- Words at every place. -/
theorem ext_wordAt {X Y : List Word64} (hlength : X.length = Y.length)
    (h : ∀ i < X.length, wordAt X i = wordAt Y i) : X = Y := by
  apply List.ext_getElem hlength
  intro i hi hi'
  have hword := h i hi
  rw [wordAt, wordAt, List.getD_eq_getElem _ _ hi, List.getD_eq_getElem _ _ hi'] at hword
  exact hword

/-- **The block functions** compute the compression function. -/
theorem block_eq {X w : List Word64} (T0 T1 : Word64) (hX : X.length = s.words)
    (hw : w.length = s.words) :
    s.block X T0 T1 w = compress s X T0 T1 w := by
  have hlength : (s.block X T0 T1 w).length = s.words := by
    cases s with
    | Skein256 => exact length_unrolledBlock fits256 X T0 T1 hw
    | Skein512 => exact length_unrolledBlock fits512 X T0 T1 hw
    | Skein1024 => exact length_loopedBlock fits1024 T0 T1 hX List.length_replicate hw
  apply ext_wordAt (by rw [hlength, length_compress])
  intro i hi
  rw [hlength] at hi
  rw [wordAt_compress X T0 T1 w hi]
  cases s with
  | Skein256 => exact unrolledBlock_eq fits256 X T0 T1 hw hi
  | Skein512 => exact unrolledBlock_eq fits512 X T0 T1 hw hi
  | Skein1024 => exact loopedBlock_eq fits1024 T0 T1 hX List.length_replicate hw hi

/-- **Loops or no loops**: for each size, the variant with a loop, whatever its array held before,
and the unrolled one compute the compression function. -/
theorem looped_eq_unrolled (s : SkeinSize) {rest X w : List Word64} (T0 T1 : Word64)
    (hX : X.length = s.words) (hrest : rest.length = 2 * s.blockSize.rcnt)
    (hw : w.length = s.words) :
    loopedBlock s.blockSize rest X T0 T1 w = unrolledBlock s.blockSize X T0 T1 w ∧
      unrolledBlock s.blockSize X T0 T1 w = compress s X T0 T1 w := by
  have fits : Fits s.blockSize s.cipher := by
    cases s with
    | Skein256 => exact fits256
    | Skein512 => exact fits512
    | Skein1024 => exact fits1024
  have hunrolled : unrolledBlock s.blockSize X T0 T1 w = compress s X T0 T1 w := by
    have hlength := length_unrolledBlock fits X T0 T1 hw
    apply ext_wordAt (by rw [hlength, length_compress]; rfl)
    intro i hi
    rw [hlength] at hi
    rw [unrolledBlock_eq fits X T0 T1 hw hi, wordAt_compress X T0 T1 w hi]
  refine ⟨?_, hunrolled⟩
  have hlength := length_loopedBlock fits T0 T1 hX hrest hw
  rw [hunrolled]
  apply ext_wordAt (by rw [hlength, length_compress]; rfl)
  intro i hi
  rw [hlength] at hi
  rw [loopedBlock_eq fits T0 T1 hX hrest hw hi, wordAt_compress X T0 T1 w hi]

theorem looped_eq_unrolled_zeros :
    loopedBlock size1024 (List.replicate 20 1) (List.replicate 16 0) 0 0 (List.replicate 16 0) =
        unrolledBlock size1024 (List.replicate 16 0) 0 0 (List.replicate 16 0) ∧
      unrolledBlock size1024 (List.replicate 16 0) 0 0 (List.replicate 16 0) =
        compress .Skein1024 (List.replicate 16 0) 0 0 (List.replicate 16 0) :=
  looped_eq_unrolled .Skein1024 0 0 rfl rfl rfl

/-! ## Taking in a message -/

/-- The chaining variables and the tweak, as a machine that takes in blocks. -/
def stream (s : SkeinSize) : BlockStream (List Word64 × Word64 × Word64) UInt8 where
  absorb st blk :=
    let T0 := st.2.1 + BitVec.ofNat 64 s.blockBytes
    (compress s st.1 T0 st.2.2 (loadWords 64 8 s.words blk), T0, st.2.2 &&& ~~~SKEIN_T1_FLAG_FIRST)
  size := s.blockBytes
  keep := s.blockBytes
  size_pos := lt_of_lt_of_le (by omega) (le_blockBytes s)
  size_le := Nat.le_succ s.blockBytes

/-- The context has the chaining variables and the tweak `st`, and `rest` in its buffer. -/
structure Buffered (s : SkeinSize) (hashBitLen : ℕ) (ctx : SkeinCtxt)
    (st : List Word64 × Word64 × Word64)
    (rest : Octets) : Prop where
  hashBitLen : ctx.hashBitLen = hashBitLen
  state : (ctx.X, ctx.T0, ctx.T1) = st
  words : ctx.X.length = s.words
  buffer : ctx.b.length = s.blockBytes
  bCnt : ctx.bCnt = rest.length
  le : rest.length ≤ s.blockBytes
  take : ctx.b.take rest.length = rest

/-- The context after full blocks. -/
theorem process_Block_eq {ctx : SkeinCtxt} (hX : ctx.X.length = s.words) (n : ℕ) (m : Octets) :
    let st := (stream s).absorbBlocks n (ctx.X, ctx.T0, ctx.T1) m
    Process_Block s s.blockBytes n ctx m = { ctx with X := st.1, T0 := st.2.1, T1 := st.2.2 } ∧
      st.1.length = s.words := by
  induction n generalizing ctx m with
  | zero => exact ⟨rfl, hX⟩
  | succ n ih =>
      have hwords : (loadWords 64 8 s.words m).length = s.words := length_loadWords s.words m
      have hload : loadWords 64 8 s.words (m.take s.blockBytes) = loadWords 64 8 s.words m :=
        loadWords_take (eight_mul_words s).le m
      have hblock := block_eq (ctx.T0 + BitVec.ofNat 64 s.blockBytes) ctx.T1 hX hwords
      let ctx' : SkeinCtxt := ⟨ctx.hashBitLen, ctx.bCnt, ctx.T0 + BitVec.ofNat 64 s.blockBytes,
        ctx.T1 &&& ~~~SKEIN_T1_FLAG_FIRST,
        s.block ctx.X (ctx.T0 + BitVec.ofNat 64 s.blockBytes) ctx.T1
          (loadWords 64 8 s.words m), ctx.b⟩
      have hX' : ctx'.X.length = s.words := by
        show (s.block _ _ _ _).length = s.words
        rw [hblock, length_compress]
      have hnext := ih hX' (m.drop s.blockBytes)
      have habsorb : (stream s).absorbBlocks (n + 1) (ctx.X, ctx.T0, ctx.T1) m =
          (stream s).absorbBlocks n (s.block ctx.X (ctx.T0 + BitVec.ofNat 64 s.blockBytes) ctx.T1
            (loadWords 64 8 s.words m), ctx.T0 + BitVec.ofNat 64 s.blockBytes,
            ctx.T1 &&& ~~~SKEIN_T1_FLAG_FIRST) (m.drop s.blockBytes) := by
        rw [hblock, ← hload]
        rfl
      rw [habsorb]
      exact hnext

theorem take_writeAt_self {b : Octets} {pos : ℕ} (h : pos ≤ b.length) (src : Octets) :
    (writeAt b pos src).take (pos + src.length) = b.take pos ++ src := by
  rw [writeAt, List.take_left']
  rw [List.length_append, List.length_take, Nat.min_eq_left h]

section Update

variable {hashBitLen : ℕ} {ctx : SkeinCtxt} {st : List Word64 × Word64 × Word64} {rest msg : Octets}

theorem buffered_copyRemaining (h : Buffered s hashBitLen ctx st rest)
    (hle : rest.length + msg.length ≤ s.blockBytes) :
    Buffered s hashBitLen (copyRemaining ctx msg) st (rest ++ msg) := by
  have hbuffer := h.buffer
  have hbCnt := h.bCnt
  unfold copyRemaining
  by_cases hmsg : msg.length = 0
  · rw [if_neg (not_not.mpr hmsg), List.eq_nil_of_length_eq_zero hmsg, List.append_nil]
    exact h
  · rw [if_pos hmsg]
    refine ⟨h.hashBitLen, h.state, h.words, ?_, ?_, ?_, ?_⟩
    · rw [length_writeAt (by omega), hbuffer]
    · rw [hbCnt, List.length_append]
    · rwa [List.length_append]
    · rw [hbCnt, List.length_append, take_writeAt_self (by omega), h.take]

/-- Full blocks do not touch the buffer. -/
theorem buffered_process_Block (h : Buffered s hashBitLen ctx st rest) (n : ℕ) (m : Octets) :
    Buffered s hashBitLen (Process_Block s s.blockBytes n ctx m)
      ((stream s).absorbBlocks n st m) rest := by
  obtain ⟨hprocess, hwords⟩ := process_Block_eq h.words n m
  rw [h.state] at hprocess hwords
  rw [hprocess]
  exact ⟨h.hashBitLen, rfl, hwords, h.buffer, h.bCnt, h.le, h.take⟩

theorem Buffered.emptied (h : Buffered s hashBitLen ctx st rest) :
    Buffered s hashBitLen { ctx with bCnt := 0 } st [] :=
  ⟨h.hashBitLen, h.state, h.words, h.buffer, rfl, Nat.zero_le _, rfl⟩

/-- **The buffer is filled up** and taken in. -/
theorem buffered_finishBuffered (h : Buffered s hashBitLen ctx st rest)
    (hlt : s.blockBytes < msg.length + rest.length) :
    ∃ st', Buffered s hashBitLen (finishBuffered s ctx msg).1 st' [] ∧
      (stream s).drain st (rest ++ msg) = (stream s).drain st' (finishBuffered s ctx msg).2 := by
  have hle := h.le
  have hbCnt := h.bCnt
  have hbuffer := h.buffer
  unfold finishBuffered
  by_cases hzero : ctx.bCnt = 0
  · have hrest : rest = [] := List.eq_nil_of_length_eq_zero (by omega)
    subst hrest
    rw [if_neg (not_not.mpr hzero)]
    exact ⟨st, h, rfl⟩
  rw [if_pos hzero]
  -- the buffer holds the first octets of all that is there
  have hfull : ∃ ctx', (if s.blockBytes - ctx.bCnt ≠ 0 then
        ({ ctx with b := writeAt ctx.b ctx.bCnt (msg.take (s.blockBytes - ctx.bCnt)),
                    bCnt := ctx.bCnt + (s.blockBytes - ctx.bCnt) },
                    msg.drop (s.blockBytes - ctx.bCnt))
      else (ctx, msg)) = (ctx', (rest ++ msg).drop s.blockBytes) ∧
      Buffered s hashBitLen ctx' st ((rest ++ msg).take s.blockBytes) := by
    have htake : (rest ++ msg).take s.blockBytes = rest ++ msg.take (s.blockBytes - ctx.bCnt) := by
      rw [List.take_append, hbCnt, List.take_of_length_le hle]
    have hdrop : (rest ++ msg).drop s.blockBytes = msg.drop (s.blockBytes - ctx.bCnt) := by
      rw [List.drop_append, hbCnt, List.drop_of_length_le hle, List.nil_append]
    have hlength : (msg.take (s.blockBytes - ctx.bCnt)).length = s.blockBytes - ctx.bCnt := by
      rw [List.length_take]
      omega
    by_cases hroom : s.blockBytes - ctx.bCnt = 0
    · rw [if_neg (not_not.mpr hroom), htake, hdrop, hroom, List.take_zero, List.append_nil,
        List.drop_zero]
      exact ⟨ctx, rfl, h⟩
    · rw [if_pos hroom, htake, hdrop]
      refine ⟨_, rfl, ?_⟩
      have hfits : rest.length + (msg.take (s.blockBytes - ctx.bCnt)).length ≤ s.blockBytes :=
        by omega
      have hcopied := buffered_copyRemaining h hfits
      rw [copyRemaining, hlength, if_pos hroom] at hcopied
      exact hcopied
  obtain ⟨ctx', hctx', hbuffered⟩ := hfull
  have hblock : ((rest ++ msg).take s.blockBytes).length = s.blockBytes := by
    rw [List.length_take, List.length_append]
    omega
  have hb : ctx'.b = (rest ++ msg).take s.blockBytes := by
    have htake := hbuffered.take
    rwa [hblock, List.take_of_length_le hbuffered.buffer.le] at htake
  dsimp only
  rw [hctx']
  dsimp only
  refine ⟨_, (buffered_process_Block hbuffered 1 ctx'.b).emptied, ?_⟩
  have hmany : (stream s).keep < (rest ++ msg).length := by
    rw [List.length_append]
    exact hlt.trans_eq (Nat.add_comm _ _)
  rw [(stream s).drain_of_lt hmany, hb]
  have hself : ((rest ++ msg).take s.blockBytes).take (stream s).size =
      (rest ++ msg).take s.blockBytes :=
    List.take_of_length_le hblock.le
  rw [BlockStream.absorbBlocks, BlockStream.absorbBlocks, hself]
  rfl

/-- **Full blocks** come directly from the message. -/
theorem buffered_fullBlocks (h : Buffered s hashBitLen ctx st []) (msg : Octets) :
    ∃ st', Buffered s hashBitLen (fullBlocks s ctx msg).1 st' [] ∧
      (stream s).drain st msg = (st', (fullBlocks s ctx msg).2) := by
  have hpos := (stream s).size_pos
  unfold fullBlocks
  by_cases hlong : s.blockBytes < msg.length
  · have hdiv : (msg.length - 1) / s.blockBytes * s.blockBytes ≤ msg.length - 1 :=
      Nat.div_mul_le_self _ _
    have hrest : msg.length - 1 < (msg.length - 1) / s.blockBytes * s.blockBytes + s.blockBytes :=
      Nat.lt_div_mul_add hpos
    rw [if_pos hlong]
    refine ⟨_, buffered_process_Block h _ msg, ?_⟩
    have hblocks :=
      (stream s).drain_absorbBlocks (n := (msg.length - 1) / s.blockBytes) (s := st) (m := msg)
      (Nat.add_lt_add_right (show (msg.length - 1) / s.blockBytes * s.blockBytes <
        msg.length by omega) _)
    rw [hblocks, (stream s).drain_of_le]
    · rfl
    · rw [List.length_drop]
      exact show msg.length - (msg.length - 1) / s.blockBytes * s.blockBytes ≤ s.blockBytes by omega
  · rw [if_neg hlong]
    exact ⟨st, h, (stream s).drain_of_le (Nat.not_lt.mp hlong)⟩

/-- **`Update`** takes in what was kept back together with the new octets. -/
theorem buffered_update (h : Buffered s hashBitLen ctx st rest) (msg : Octets) :
    Buffered s hashBitLen (Update s ctx msg) ((stream s).drain st (rest ++ msg)).1
      ((stream s).drain st (rest ++ msg)).2 := by
  have hbCnt := h.bCnt
  unfold Update
  by_cases hlong : s.blockBytes < msg.length + ctx.bCnt
  · rw [if_pos hlong]
    rw [hbCnt] at hlong
    obtain ⟨st₁, hfirst, hdrain₁⟩ := buffered_finishBuffered h hlong
    obtain ⟨st₂, hsecond, hdrain₂⟩ := buffered_fullBlocks hfirst (finishBuffered s ctx msg).2
    have hle := (stream s).length_drain_le st₁ (finishBuffered s ctx msg).2
    rw [hdrain₂] at hle
    rw [hdrain₁, hdrain₂]
    exact buffered_copyRemaining hsecond (by rw [List.length_nil, Nat.zero_add]; exact hle)
  · have hle : (rest ++ msg).length ≤ s.blockBytes := by
      rw [List.length_append]
      omega
    rw [if_neg hlong, (stream s).drain_of_le hle]
    exact buffered_copyRemaining h (by rwa [List.length_append] at hle)

end Update

/-- Pieces of a message. -/
theorem buffered_updates {hashBitLen : ℕ} {ctx : SkeinCtxt} {st : List Word64 × Word64 × Word64}
    {m : Octets} (h : Buffered s hashBitLen ctx ((stream s).drain st m).1 ((stream s).drain st m).2)
    (chunks : List Octets) :
    Buffered s hashBitLen (chunks.foldl (Update s) ctx)
      ((stream s).drain st (m ++ chunks.flatten)).1
      ((stream s).drain st (m ++ chunks.flatten)).2 := by
  induction chunks generalizing ctx m with
  | nil => rwa [List.flatten_nil, List.append_nil]
  | cons c chunks ih =>
      have hfirst := buffered_update h c
      rw [(stream s).drain_append] at hfirst
      have hrest := ih hfirst
      rw [List.append_assoc, ← List.flatten_cons] at hrest
      exact hrest

/-! ## The final block -/

/-- A type has no flags. -/
def Plain (type : Word64) : Prop := type &&& ~~~SKEIN_T1_FLAG_FIRST = type

theorem plain_clear {type : Word64} (htype : Plain type) :
    (SKEIN_T1_FLAG_FIRST ||| type) &&& ~~~SKEIN_T1_FLAG_FIRST = type := by
  conv_rhs => rw [← htype]
  ext i hi
  simp only [BitVec.getElem_and, BitVec.getElem_or, BitVec.getElem_not]
  cases SKEIN_T1_FLAG_FIRST[i] <;> simp

/-- **The chain of the full blocks**: the tweak counts their octets, and only the first one is
tagged. -/
theorem absorbBlocks_eq {type : Word64} (htype : Plain type) (G : List Word64) {m : Octets} {n : ℕ}
    (hn : n ≤ lastBlock s m) :
    (stream s).absorbBlocks n (G, 0, SKEIN_T1_FLAG_FIRST ||| type) m =
      ((List.range n).foldl (ubiBlock s type m) G, BitVec.ofNat 64 (n * s.blockBytes),
        bif n == 0 then SKEIN_T1_FLAG_FIRST ||| type else type) := by
  induction n with
  | zero =>
      rw [Nat.zero_mul]
      rfl
  | succ n ih =>
      have hdiv : lastBlock s m * s.blockBytes ≤ m.length - 1 := Nat.div_mul_le_self _ _
      have hmul : (n + 1) * s.blockBytes ≤ lastBlock s m * s.blockBytes := Nat.mul_le_mul_right _ hn
      have hsucc : (n + 1) * s.blockBytes = n * s.blockBytes + s.blockBytes := Nat.succ_mul _ _
      have hmin : min ((n + 1) * s.blockBytes) m.length = (n + 1) * s.blockBytes :=
        Nat.min_eq_left (by omega)
      have hcount : BitVec.ofNat 64 (n * s.blockBytes) + BitVec.ofNat 64 s.blockBytes =
          BitVec.ofNat 64 ((n + 1) * s.blockBytes) := by
        rw [hsucc, BitVec.ofNat_add]
      have hload : loadWords 64 8 s.words ((m.drop (n * s.blockBytes)).take s.blockBytes) =
          loadWords 64 8 s.words
            ((m ++ List.replicate s.blockBytes 0).drop (n * s.blockBytes)) := by
        have hle : s.blockBytes ≤ (m.drop (n * s.blockBytes)).length := by
          rw [List.length_drop]
          omega
        rw [← loadWords_take (eight_mul_words s).le ((m ++ _).drop _),
          List.drop_append_of_le_length (by omega), List.take_append_of_le_length hle]
      have hflags : (bif n == 0 then SKEIN_T1_FLAG_FIRST ||| type else type) =
          flags type (n == 0) (n == lastBlock s m) := by
        have hlast : (n == lastBlock s m) = false := beq_false_of_ne (by omega)
        rw [flags, hlast, cond_false]
        exact BitVec.or_zero.symm
      have hclear : (bif n == 0 then SKEIN_T1_FLAG_FIRST ||| type else type) &&&
          ~~~SKEIN_T1_FLAG_FIRST =
          type := by
        cases n == 0 with
        | false => exact htype
        | true => exact plain_clear htype
      rw [BlockStream.absorbBlocks_succ, ih (by omega), List.range_succ, List.foldl_append]
      show (compress s _ (_ + BitVec.ofNat 64 s.blockBytes) _ (loadWords 64 8 s.words
        ((m.drop (n * s.blockBytes)).take s.blockBytes)), _, _) = _
      rw [hcount, hload, hclear, hflags, List.foldl_cons, List.foldl_nil, ubiBlock, hmin]
      rfl

/-- What is drained and what is kept. -/
theorem drain_eq (st : List Word64 × Word64 × Word64) (m : Octets) :
    (stream s).drain st m =
      ((stream s).absorbBlocks (lastBlock s m) st m, m.drop (lastBlock s m * s.blockBytes)) := by
  have hpos := (stream s).size_pos
  have hdiv : lastBlock s m * s.blockBytes ≤ m.length - 1 := Nat.div_mul_le_self _ _
  have hrest : m.length - 1 < lastBlock s m * s.blockBytes + s.blockBytes := Nat.lt_div_mul_add hpos
  have hle : (m.drop (lastBlock s m * s.blockBytes)).length ≤ s.blockBytes := by
    rw [List.length_drop]
    omega
  by_cases hm : m.length = 0
  · have hzero : lastBlock s m = 0 := by
      rw [lastBlock, hm]
      exact Nat.zero_div _
    rw [hzero, Nat.zero_mul, List.drop_zero,
      (stream s).drain_of_le (by rw [hm]; exact Nat.zero_le _)]
    rfl
  · rw [(stream s).drain_absorbBlocks (n := lastBlock s m)
      (Nat.add_lt_add_right (show lastBlock s m * s.blockBytes < m.length by omega) _)]
    exact (stream s).drain_of_le hle

/-- What is left of a context after its final block. -/
structure Finished (s : SkeinSize) (hashBitLen : ℕ) (ctx : SkeinCtxt) (H : List Word64) : Prop where
  hashBitLen : ctx.hashBitLen = hashBitLen
  X : ctx.X = H
  buffer : ctx.b.length = s.blockBytes

theorem finished_finalBlock {hashBitLen : ℕ} {ctx : SkeinCtxt} {st : List Word64 × Word64 × Word64}
    {rest : Octets} (h : Buffered s hashBitLen ctx st rest) :
    Finished s hashBitLen (finalBlock s ctx)
      (compress s st.1 (st.2.1 + BitVec.ofNat 64 rest.length) (st.2.2 ||| SKEIN_T1_FLAG_FINAL)
        (loadWords 64 8 s.words (rest ++ List.replicate s.blockBytes 0))) := by
  have hle := h.le
  have hbCnt := h.bCnt
  have hbuffer := h.buffer
  have hpadded : ∃ b, (if ctx.bCnt < s.blockBytes then
        ({ ctx with T1 := ctx.T1 ||| SKEIN_T1_FLAG_FINAL,
                    b := writeAt ctx.b ctx.bCnt (List.replicate (s.blockBytes - ctx.bCnt) 0) } :
                    SkeinCtxt)
      else { ctx with T1 := ctx.T1 ||| SKEIN_T1_FLAG_FINAL }) =
        { ctx with T1 := ctx.T1 ||| SKEIN_T1_FLAG_FINAL, b := b } ∧ b.length = s.blockBytes ∧
      b = (rest ++ List.replicate s.blockBytes 0).take s.blockBytes := by
    have htake : (rest ++ List.replicate s.blockBytes 0).take s.blockBytes =
        rest ++ List.replicate (s.blockBytes - ctx.bCnt) (0 : UInt8) := by
      rw [List.take_append, List.take_of_length_le hle, List.take_replicate, hbCnt,
        Nat.min_eq_left (Nat.sub_le _ _)]
    by_cases hroom : ctx.bCnt < s.blockBytes
    · rw [if_pos hroom]
      refine ⟨_, rfl, ?_, ?_⟩
      · rw [length_writeAt (by rw [List.length_replicate]; omega), hbuffer]
      · have hinside : ctx.bCnt ≤ ctx.b.length := by omega
        have hall := take_writeAt_self hinside
          (List.replicate (s.blockBytes - ctx.bCnt) 0)
        rw [List.length_replicate, Nat.add_sub_cancel' hroom.le, hbCnt, h.take, ← hbCnt, ← htake,
          List.take_of_length_le] at hall
        · exact hall
        · rw [length_writeAt (by rw [List.length_replicate]; omega), hbuffer]
    · rw [if_neg hroom]
      refine ⟨ctx.b, rfl, hbuffer, ?_⟩
      have htaken := h.take
      rw [← hbCnt, List.take_of_length_le (by omega)] at htaken
      rw [htake, htaken, Nat.sub_eq_zero_of_le (Nat.not_lt.mp hroom), List.replicate_zero,
        List.append_nil]
  obtain ⟨b, hctx, hlength, hb⟩ := hpadded
  have hload :=
    loadWords_take (w := 64) (eight_mul_words s).le (rest ++ List.replicate s.blockBytes 0)
  rw [← hb] at hload
  unfold finalBlock
  dsimp only at hctx ⊢
  rw [hctx]
  refine ⟨h.hashBitLen, ?_, hlength⟩
  have hblock :=
    block_eq (ctx.T0 + BitVec.ofNat 64 ctx.bCnt) (ctx.T1 ||| SKEIN_T1_FLAG_FINAL) h.words
    (length_loadWords (w := 64) (k := 8) s.words b)
  rw [← h.state, ← hbCnt, ← hload]
  exact hblock

/-- **The chain of a message** is finished by its final block. -/
theorem finished_ubi {hashBitLen : ℕ} {ctx : SkeinCtxt} {type : Word64} (htype : Plain type)
    {G : List Word64} {m : Octets}
    (h : Buffered s hashBitLen ctx ((stream s).drain (G, 0, SKEIN_T1_FLAG_FIRST ||| type) m).1
      ((stream s).drain (G, 0, SKEIN_T1_FLAG_FIRST ||| type) m).2) :
    Finished s hashBitLen (finalBlock s ctx) (ubi s G type m) := by
  have hpos := (stream s).size_pos
  have hfinished := finished_finalBlock h
  have hdiv : lastBlock s m * s.blockBytes ≤ m.length - 1 := Nat.div_mul_le_self _ _
  have hrest : m.length - 1 < lastBlock s m * s.blockBytes + s.blockBytes := Nat.lt_div_mul_add hpos
  have hsucc : (lastBlock s m + 1) * s.blockBytes = lastBlock s m * s.blockBytes + s.blockBytes :=
    Nat.succ_mul _ _
  have hcount : BitVec.ofNat 64 (lastBlock s m * s.blockBytes) +
      BitVec.ofNat 64 (m.drop (lastBlock s m * s.blockBytes)).length =
        BitVec.ofNat 64 (min ((lastBlock s m + 1) * s.blockBytes) m.length) := by
    rw [← BitVec.ofNat_add, List.length_drop]
    congr 1
    omega
  have hflags : (bif lastBlock s m == 0 then SKEIN_T1_FLAG_FIRST ||| type else type) |||
      SKEIN_T1_FLAG_FINAL = flags type (lastBlock s m == 0) (lastBlock s m == lastBlock s m) := by
    rw [flags, beq_self_eq_true, cond_true]
  rw [drain_eq, absorbBlocks_eq htype G le_rfl] at hfinished
  dsimp only at hfinished
  rw [hcount, hflags, ← List.drop_append_of_le_length (by omega)] at hfinished
  rw [ubi, List.range_succ, List.foldl_append]
  exact hfinished

/-! ## The output -/

@[simp] theorem length_ubi (G : List Word64) (type : Word64) (m : Octets) :
    (ubi s G type m).length = s.words := by
  rw [ubi, List.range_succ, List.foldl_append]
  exact length_compress _ _ _ _

/-- A message of one block. -/
theorem ubi_short (G : List Word64) (type : Word64) {m : Octets} (hm : m.length ≤ s.blockBytes) :
    ubi s G type m =
      compress s G (BitVec.ofNat 64 m.length) (flags type true true)
        (loadWords 64 8 s.words (m ++ List.replicate s.blockBytes 0)) := by
  have hpos := le_blockBytes s
  have hlast : lastBlock s m = 0 := Nat.div_eq_of_lt (by omega)
  rw [ubi, hlast]
  show ubiBlock s type m G 0 = _
  rw [ubiBlock, hlast, Nat.zero_add, Nat.one_mul, Nat.min_eq_right hm, Nat.zero_mul, List.drop_zero]
  rfl

theorem flags_eq (type : Word64) :
    SKEIN_T1_FLAG_FIRST ||| (type ||| SKEIN_T1_FLAG_FINAL) = flags type true true :=
  (BitVec.or_assoc _ _ _).symm

/-- The context between two passes over the counter. -/
structure Counting (s : SkeinSize) (hashBitLen : ℕ) (X : List Word64) (ctx : SkeinCtxt) : Prop where
  hashBitLen : ctx.hashBitLen = hashBitLen
  X : ctx.X = X
  buffer : ∃ low : Octets, low.length = 8 ∧ ctx.b = low ++ List.replicate (s.blockBytes - 8) 0

/-- **One pass** puts out a hash of the counter. -/
theorem counterBlock_eq {hashBitLen : ℕ} {X : List Word64} (hX : X.length = s.words)
    {ctx : SkeinCtxt}
    (h : Counting s hashBitLen X ctx) (byteCnt : ℕ) (out : Octets) (i : ℕ) :
    Counting s hashBitLen X (counterBlock s X byteCnt (ctx, out) i).1 ∧
      (counterBlock s X byteCnt (ctx, out) i).2 =
        out ++ (storeWords 8 (ubi s X SKEIN_T1_BLK_TYPE_OUT (littleEndian 8 i))).take
          (byteCnt - i * s.blockBytes) := by
  have hle := le_blockBytes s
  obtain ⟨low, hlow, hb⟩ := h.buffer
  have hlength : (littleEndian 8 i).length = 8 := length_littleEndian 8 i
  have hcounter : writeAt ctx.b 0 (littleEndian 8 i) =
      littleEndian 8 i ++ List.replicate (s.blockBytes - 8) 0 := by
    rw [hb]
    exact writeAt_append_mid [] low (littleEndian 8 i) (List.replicate (s.blockBytes - 8) 0) rfl
      (by rw [hlength, hlow])
  have hblocks : (littleEndian 8 i ++ List.replicate s.blockBytes (0 : UInt8)).take s.blockBytes =
      littleEndian 8 i ++ List.replicate (s.blockBytes - 8) 0 := by
    rw [List.take_append, hlength, List.take_of_length_le (by omega), List.take_replicate,
      Nat.min_eq_left (Nat.sub_le _ _)]
  have hload := loadWords_take (w := 64) (eight_mul_words s).le
    (littleEndian 8 i ++ List.replicate s.blockBytes 0)
  rw [hblocks] at hload
  have hwords : (loadWords 64 8 s.words
      (littleEndian 8 i ++ List.replicate (s.blockBytes - 8) 0)).length = s.words :=
      length_loadWords _ _
  have hubi : s.block X (0 + BitVec.ofNat 64 8)
      (SKEIN_T1_FLAG_FIRST ||| (SKEIN_T1_BLK_TYPE_OUT ||| SKEIN_T1_FLAG_FINAL))
      (loadWords 64 8 s.words (littleEndian 8 i ++ List.replicate (s.blockBytes - 8) 0)) =
        ubi s X SKEIN_T1_BLK_TYPE_OUT (littleEndian 8 i) := by
    rw [block_eq _ _ hX hwords, ubi_short X _ (by omega), hlength, flags_eq, hload]
    rfl
  have hstore : (storeWords 8 (ubi s X SKEIN_T1_BLK_TYPE_OUT (littleEndian 8 i))).length =
      s.blockBytes := by
    rw [length_storeWords, length_ubi]
    rfl
  have htake : ∀ n : ℕ, (storeWords 8 (ubi s X SKEIN_T1_BLK_TYPE_OUT (littleEndian 8 i))).take
      (if s.blockBytes ≤ n then s.blockBytes else n) =
        (storeWords 8 (ubi s X SKEIN_T1_BLK_TYPE_OUT (littleEndian 8 i))).take n := by
    intro n
    by_cases hn : s.blockBytes ≤ n
    · rw [if_pos hn, List.take_of_length_le hstore.le, List.take_of_length_le (hstore.le.trans hn)]
    · rw [if_neg hn]
  refine ⟨⟨h.hashBitLen, rfl, littleEndian 8 i, hlength, hcounter⟩, ?_⟩
  show out ++ (storeWords 8 (s.block ctx.X (0 + BitVec.ofNat 64 8)
    (SKEIN_T1_FLAG_FIRST ||| (SKEIN_T1_BLK_TYPE_OUT ||| SKEIN_T1_FLAG_FINAL))
    (loadWords 64 8 s.words (writeAt ctx.b 0 (littleEndian 8 i))))).take _ = _
  rw [h.X, hcounter, hubi, htake]

/-- All passes over the counter. -/
theorem counterBlocks_eq {hashBitLen : ℕ} {X : List Word64} (hX : X.length = s.words)
    {ctx : SkeinCtxt}
    (h : Counting s hashBitLen X ctx) (byteCnt n : ℕ) :
    Counting s hashBitLen X ((List.range n).foldl (counterBlock s X byteCnt) (ctx, [])).1 ∧
      ((List.range n).foldl (counterBlock s X byteCnt) (ctx, [])).2 =
        ((List.range n).flatMap (fun i =>
          storeWords 8 (ubi s X SKEIN_T1_BLK_TYPE_OUT (littleEndian 8 i)))).take byteCnt := by
  induction n with
  | zero =>
      rw [List.range_zero, List.flatMap_nil, List.take_nil]
      exact ⟨h, rfl⟩
  | succ n ih =>
      obtain ⟨hcounting, hout⟩ := ih
      have hlength : ((List.range n).flatMap (fun i =>
          storeWords 8 (ubi s X SKEIN_T1_BLK_TYPE_OUT (littleEndian 8 i)))).length =
          n * s.blockBytes := by
        rw [List.length_flatMap]
        simp only [length_storeWords, length_ubi, eight_mul_words, List.map_const',
          List.length_range, List.sum_replicate, smul_eq_mul]
      obtain ⟨hcounting', hout'⟩ := counterBlock_eq hX hcounting byteCnt
        ((List.range n).foldl (counterBlock s X byteCnt) (ctx, [])).2 n
      rw [List.range_succ, List.foldl_append, List.foldl_cons, List.foldl_nil]
      refine ⟨hcounting', hout'.trans ?_⟩
      rw [hout, ← hlength, List.flatMap_append, List.flatMap_singleton, ← List.take_append]

/-- **`Final`** puts out the hash, and keeps the length of the output and the buffer. -/
theorem final_eq {hashBitLen : ℕ} {ctx : SkeinCtxt} {H : List Word64} (hH : H.length = s.words)
    (h : Finished s hashBitLen (finalBlock s ctx) H) :
    (Final s ctx).2 = output s H ((hashBitLen + 7) / 8) ∧ (Final s ctx).1.hashBitLen = hashBitLen ∧
      (Final s ctx).1.b.length = s.blockBytes := by
  have hle := le_blockBytes s
  obtain ⟨rfl, rfl, -⟩ := h
  have hcounting : Counting s (finalBlock s ctx).hashBitLen (finalBlock s ctx).X
      { finalBlock s ctx with b := List.replicate s.blockBytes 0 } := by
    refine ⟨rfl, rfl, List.replicate 8 0, List.length_replicate, ?_⟩
    rw [List.replicate_append_replicate, Nat.add_sub_cancel' (by omega)]
  obtain ⟨hend, hout⟩ := counterBlocks_eq hH hcounting (((finalBlock s ctx).hashBitLen + 7) / 8)
    ((((finalBlock s ctx).hashBitLen + 7) / 8 + (s.blockBytes - 1)) / s.blockBytes)
  obtain ⟨low, hlow, hb⟩ := hend.buffer
  unfold Final
  dsimp only at hb ⊢
  refine ⟨hout, hend.hashBitLen, ?_⟩
  rw [hb, List.length_append, hlow, List.length_replicate]
  omega

/-! ## Initialisation -/

/-- The context is ready for messages, with the chaining variables `G`. -/
theorem buffered_start {hashBitLen : ℕ} {ctx : SkeinCtxt} {G : List Word64} (type : Word64)
    (hhash : ctx.hashBitLen = hashBitLen) (hX : ctx.X = G) (hG : G.length = s.words)
    (hb : ctx.b.length = s.blockBytes) :
    Buffered s hashBitLen (Start_New_Type ctx type) (G, 0, SKEIN_T1_FLAG_FIRST ||| type) [] :=
  ⟨hhash, by rw [← hX]; rfl, by rw [← hG, ← hX]; rfl, hb, rfl, Nat.zero_le _, rfl⟩

/-- **The configuration block** is a message of its own type. -/
theorem buffered_configure {ctx : SkeinCtxt} (hX : ctx.X.length = s.words)
    (hb : ctx.b.length = s.blockBytes) (hashBitLen : ℕ) (treeInfo : Word64) :
    Buffered s hashBitLen (configure s ctx hashBitLen treeInfo)
      (ubi s ctx.X SKEIN_T1_BLK_TYPE_CFG
        (storeWords 8 [SKEIN_SCHEMA_VER, BitVec.ofNat 64 hashBitLen, treeInfo, 0]), 0,
        SKEIN_T1_FLAG_FIRST ||| SKEIN_T1_BLK_TYPE_MSG) [] := by
  have hle := le_blockBytes s
  have hwords : 4 ≤ s.words := by
    rw [← eight_mul_words] at hle
    omega
  have hlength : (storeWords 8 [SKEIN_SCHEMA_VER, BitVec.ofNat 64 hashBitLen, treeInfo, 0]).length =
      32 :=
    length_storeWords _
  have hpadded : (storeWords 8 [SKEIN_SCHEMA_VER, BitVec.ofNat 64 hashBitLen, treeInfo, 0] ++
      List.replicate s.blockBytes 0).take s.blockBytes = configBlock s hashBitLen treeInfo := by
    have hsplit : List.replicate (s.words - 3) (0 : Word64) =
        0 :: List.replicate (s.words - 4) 0 := by
      rw [← List.replicate_succ]
      congr 1
      omega
    have hzeros : 8 * (s.words - 4) = s.blockBytes - 32 := by
      rw [← eight_mul_words]
      omega
    rw [configBlock, hsplit, List.take_append, hlength, List.take_of_length_le (by omega),
      List.take_replicate, Nat.min_eq_left (Nat.sub_le _ _), ← hzeros, ← storeWords_zeros (w := 64),
      ← storeWords_append]
    rfl
  have hload := loadWords_take (w := 64) (eight_mul_words s).le
    (storeWords 8 [SKEIN_SCHEMA_VER, BitVec.ofNat 64 hashBitLen, treeInfo, 0] ++
      List.replicate s.blockBytes 0)
  rw [hpadded] at hload
  have hloaded : (loadWords 64 8 s.words (configBlock s hashBitLen treeInfo)).length = s.words :=
    length_loadWords _ _
  refine buffered_start SKEIN_T1_BLK_TYPE_MSG rfl ?_ (length_ubi _ _ _) hb
  show s.block ctx.X (0 + BitVec.ofNat 64 SKEIN_CFG_STR_LEN)
    (SKEIN_T1_FLAG_FIRST ||| (SKEIN_T1_BLK_TYPE_CFG ||| SKEIN_T1_FLAG_FINAL))
    (loadWords 64 8 s.words (configBlock s hashBitLen treeInfo)) = _
  rw [block_eq _ _ hX hloaded, ubi_short _ _ (by omega), hlength, flags_eq, hload]
  rfl

/-- **The key** is a message of its own type. -/
theorem hashKey_eq {ctx : SkeinCtxt} (hb : ctx.b.length = s.blockBytes) (key : Octets) :
    (hashKey s ctx key).X = ubi s (List.replicate s.words 0) SKEIN_T1_BLK_TYPE_KEY key ∧
      (hashKey s ctx key).b.length = s.blockBytes := by
  have hstart : Buffered s (8 * s.blockBytes)
      { Start_New_Type { ctx with hashBitLen := 8 * s.blockBytes } SKEIN_T1_BLK_TYPE_KEY with
        X := List.replicate s.words 0 }
      (List.replicate s.words 0, 0, SKEIN_T1_FLAG_FIRST ||| SKEIN_T1_BLK_TYPE_KEY) [] :=
    ⟨rfl, rfl, List.length_replicate, hb, rfl, Nat.zero_le _, rfl⟩
  have hhashed := finished_ubi (by unfold Plain; decide) (buffered_update hstart key)
  have hwords := length_ubi (s := s) (List.replicate s.words 0) SKEIN_T1_BLK_TYPE_KEY key
  have hlength :
      (storeWords 8 (ubi s (List.replicate s.words 0) SKEIN_T1_BLK_TYPE_KEY key)).length =
      s.blockBytes := by
    rw [length_storeWords, hwords]
    rfl
  have hloaded := loadWords_storeWords (w := 64) (k := 8) rfl
    (ubi s (List.replicate s.words 0) SKEIN_T1_BLK_TYPE_KEY key) []
  rw [List.append_nil, hwords] at hloaded
  refine ⟨?_, hhashed.buffer⟩
  unfold hashKey Final_Pad
  dsimp only at hhashed ⊢
  rw [hhashed.X, List.nil_append, List.take_of_length_le hlength.le, hloaded]

/-- **`InitExt`** leaves the chaining variables of the specification. -/
theorem buffered_initExt {ctx : SkeinCtxt} (hb : ctx.b.length = s.blockBytes) (hashBitLen : ℕ)
    (treeInfo : Word64) (key : Octets) :
    Buffered s hashBitLen (InitExt s ctx hashBitLen treeInfo key)
      (initial s hashBitLen treeInfo key, 0, SKEIN_T1_FLAG_FIRST ||| SKEIN_T1_BLK_TYPE_MSG) [] := by
  unfold InitExt initial
  dsimp only
  by_cases hkey : key.length = 0
  · rw [if_pos hkey, if_pos hkey]
    have hzeros : ({ ctx with X := List.replicate s.words 0 } : SkeinCtxt).X.length = s.words :=
      List.length_replicate
    exact buffered_configure hzeros hb hashBitLen treeInfo
  · obtain ⟨hX, hb'⟩ := hashKey_eq hb key
    rw [if_neg hkey, if_neg hkey, ← hX]
    exact buffered_configure (by rw [hX, length_ubi]) hb' hashBitLen treeInfo

end Skein
