/-
# The Skein MACs, and hashes from precomputed chaining variables

Models `src/ccrtp/crypto/skeinApi.c`, `macSkein.cpp` and the functions of `skein.c` that use the
tables of `skein_iv.h`.  A MAC context saves the chaining variables that the key led to; after a
message they are restored, so that one context serves all messages.

* `macSkeinCtx_run` : a context that is used for one message after the other, and MACs computed
  afresh;
* `macSkeinCtxs_digest` : what the MAC objects of SRTP need;
* `init_eq_initExt` : the precomputed chaining variables are those that would be computed.
-/
import CcRtp.SessionKeys
import CcRtp.Skein

/-- `SkeinCtx_t` -/
structure SkeinCtx where
  skeinSize : SkeinSize
  XSave : List Word64
  m : SkeinCtxt
  deriving DecidableEq, Repr

/-- `SKEIN_SUCCESS` -/
def SKEIN_SUCCESS : ℕ := 0

/-- `SKEIN_BAD_HASHLEN` -/
def SKEIN_BAD_HASHLEN : ℕ := 2

/-- `skeinCtxPrepare` -/
def skeinCtxPrepare (size : SkeinSize) : SkeinCtx where
  skeinSize := size
  XSave := List.replicate size.words 0
  m := { hashBitLen := 0, bCnt := 0, T0 := 0, T1 := 0, X := List.replicate size.words 0,
         b := List.replicate size.blockBytes 0 }

/-- `skeinInit` -/
def skeinInit (ctx : SkeinCtx) (hashBitLen : ℕ) : SkeinCtx × ℕ :=
  let m := Skein.InitExt ctx.skeinSize ctx.m hashBitLen SKEIN_CFG_TREE_INFO_SEQUENTIAL []
  ({ ctx with m := m, XSave := m.X }, SKEIN_SUCCESS)

/-- `skeinMacInit` -/
def skeinMacInit (ctx : SkeinCtx) (key : Octets) (hashBitLen : ℕ) : SkeinCtx × ℕ :=
  if hashBitLen = 0 then (ctx, SKEIN_BAD_HASHLEN)
  else
    let m := Skein.InitExt ctx.skeinSize ctx.m hashBitLen SKEIN_CFG_TREE_INFO_SEQUENTIAL key
    ({ ctx with m := m, XSave := m.X }, SKEIN_SUCCESS)

/-- `skeinReset` -/
def skeinReset (ctx : SkeinCtx) : SkeinCtx :=
  { ctx with m := Skein.Start_New_Type { ctx.m with X := ctx.XSave } SKEIN_T1_BLK_TYPE_MSG }

/-- `skeinUpdate` -/
def skeinUpdate (ctx : SkeinCtx) (msg : Octets) : SkeinCtx :=
  { ctx with m := Skein.Update ctx.skeinSize ctx.m msg }

/-- `skeinFinal`, with the hash value. -/
def skeinFinal (ctx : SkeinCtx) : SkeinCtx × Octets :=
  let (m, hash) := Skein.Final ctx.skeinSize ctx.m
  ({ ctx with m := m }, hash)

/-- `macSkein`; with one piece of data, both functions of this name do the same. -/
def macSkein (key : Octets) (data : List Octets) (mac_length : ℕ)
    (skeinSize : SkeinSize) : Octets :=
  let ctx := skeinCtxPrepare skeinSize
  let ctx := (skeinMacInit ctx key mac_length).1
  let ctx := data.foldl skeinUpdate ctx
  (skeinFinal ctx).2

/-- `createSkeinMacContext` -/
def createSkeinMacContext (key : Octets) (mac_length : ℕ) (skeinSize : SkeinSize) : SkeinCtx :=
  (skeinMacInit (skeinCtxPrepare skeinSize) key mac_length).1

/-- `macSkeinCtx` -/
def macSkeinCtx (ctx : SkeinCtx) (data : List Octets) : SkeinCtx × Octets :=
  let ctx := data.foldl skeinUpdate ctx
  let (ctx, mac) := skeinFinal ctx
  (skeinReset ctx, mac)

/-! ## Any number of messages -/

namespace SkeinCtx

/-- The context is ready for a message, with the saved chaining variables `G`.  Without a length of
the output nothing has been initialised. -/
structure Ready (s : SkeinSize) (hashBitLen : ℕ) (G : List Word64) (ctx : SkeinCtx) : Prop where
  skeinSize : ctx.skeinSize = s
  XSave : ctx.XSave = G
  words : G.length = s.words
  buffered : ∃ T1, Skein.Buffered s hashBitLen ctx.m (G, 0, T1) [] ∧
    (hashBitLen ≠ 0 → T1 = SKEIN_T1_FLAG_FIRST ||| SKEIN_T1_BLK_TYPE_MSG)

theorem foldl_skeinUpdate (ctx : SkeinCtx) (data : List Octets) :
    data.foldl skeinUpdate ctx =
      { ctx with m := data.foldl (Skein.Update ctx.skeinSize) ctx.m } := by
  induction data generalizing ctx with
  | nil => rfl
  | cons c data ih => rw [List.foldl_cons, ih, List.foldl_cons, skeinUpdate]

/-- The chaining variables that a context starts with; without a length of the output there are
none. -/
def start (s : SkeinSize) (hashBitLen : ℕ) (key : Octets) : List Word64 :=
  if hashBitLen = 0 then List.replicate s.words 0
  else Skein.initial s hashBitLen SKEIN_CFG_TREE_INFO_SEQUENTIAL key

/-- **A new context** is ready. -/
theorem ready_create (s : SkeinSize) (hashBitLen : ℕ) (key : Octets) :
    Ready s hashBitLen (start s hashBitLen key) (createSkeinMacContext key hashBitLen s) := by
  unfold createSkeinMacContext skeinMacInit start
  by_cases hzero : hashBitLen = 0
  · rw [if_pos hzero, if_pos hzero]
    refine ⟨rfl, rfl, List.length_replicate, 0, ?_, fun hne => absurd hzero hne⟩
    exact ⟨hzero.symm, rfl, List.length_replicate, List.length_replicate, rfl, Nat.zero_le _, rfl⟩
  · rw [if_neg hzero, if_neg hzero]
    have hb : (skeinCtxPrepare s).m.b.length = s.blockBytes := List.length_replicate
    have hinit := Skein.buffered_initExt hb hashBitLen SKEIN_CFG_TREE_INFO_SEQUENTIAL key
    have hX := congrArg Prod.fst hinit.state
    have hwords := hinit.words
    dsimp only at hX
    rw [hX] at hwords
    exact ⟨rfl, hX, hwords, _, hinit, fun _ => rfl⟩

/-- **One message**: its MAC is put out, and the context is ready again. -/
theorem ready_macSkeinCtx {s : SkeinSize} {hashBitLen : ℕ} {G : List Word64} {ctx : SkeinCtx}
    (h : Ready s hashBitLen G ctx) (data : List Octets) :
    (macSkeinCtx ctx data).2 = Skein.mac s G hashBitLen data.flatten ∧
      Ready s hashBitLen G (macSkeinCtx ctx data).1 := by
  obtain ⟨rfl, hsave, hwords, T1, hbuffered, hT1⟩ := h
  have hdrain : (Skein.stream ctx.skeinSize).drain (G, 0, T1) [] = ((G, 0, T1), []) :=
    (Skein.stream ctx.skeinSize).drain_of_le (Nat.zero_le _)
  have hstart : Skein.Buffered ctx.skeinSize hashBitLen ctx.m
      ((Skein.stream ctx.skeinSize).drain (G, 0, T1) []).1
      ((Skein.stream ctx.skeinSize).drain (G, 0, T1) []).2 := by
    rw [hdrain]
    exact hbuffered
  have hupdated := Skein.buffered_updates hstart data
  rw [List.nil_append] at hupdated
  have hfinished : ∃ H : List Word64, H.length = ctx.skeinSize.words ∧
      Skein.Finished ctx.skeinSize hashBitLen
        (Skein.finalBlock ctx.skeinSize (data.foldl (Skein.Update ctx.skeinSize) ctx.m)) H ∧
      Skein.output ctx.skeinSize H ((hashBitLen + 7) / 8) =
        Skein.mac ctx.skeinSize G hashBitLen data.flatten := by
    by_cases hzero : hashBitLen = 0
    · refine ⟨_, Skein.length_compress _ _ _ _, Skein.finished_finalBlock hupdated, ?_⟩
      unfold Skein.mac Skein.output
      rw [hzero]
      rfl
    · rw [hT1 hzero] at hupdated
      exact ⟨_, Skein.length_ubi _ _ _, Skein.finished_ubi (by unfold Skein.Plain; decide) hupdated,
        rfl⟩
  obtain ⟨H, hH, hfinal, hmac⟩ := hfinished
  obtain ⟨hout, hhash, hb⟩ := Skein.final_eq hH hfinal
  unfold macSkeinCtx skeinFinal
  rw [foldl_skeinUpdate]
  refine ⟨hout.trans hmac, rfl, hsave, hwords, _, ?_, fun _ => rfl⟩
  exact Skein.buffered_start SKEIN_T1_BLK_TYPE_MSG hhash hsave hwords hb

end SkeinCtx

/-- The MACs of one message after the other, each in pieces. -/
def macSkeinCtxs (ctx : SkeinCtx) : List (List Octets) → List Octets
  | [] => []
  | data :: messages => (macSkeinCtx ctx data).2 :: macSkeinCtxs (macSkeinCtx ctx data).1 messages

namespace SkeinCtx

theorem macSkeinCtxs_eq_of_ready {s : SkeinSize} {hashBitLen : ℕ} {G : List Word64} {ctx : SkeinCtx}
    (h : Ready s hashBitLen G ctx) (messages : List (List Octets)) :
    macSkeinCtxs ctx messages =
      messages.map (fun data => Skein.mac s G hashBitLen data.flatten) := by
  induction messages generalizing ctx with
  | nil => rfl
  | cons data messages ih =>
      obtain ⟨hmac, hnext⟩ := ready_macSkeinCtx h data
      rw [macSkeinCtxs, hmac, ih hnext, List.map_cons]

/-- **One context for all messages**: each MAC is that of its message alone. -/
theorem macSkeinCtxs_eq (key : Octets) (mac_length : ℕ) (s : SkeinSize)
    (messages : List (List Octets)) :
    macSkeinCtxs (createSkeinMacContext key mac_length s) messages =
      messages.map (fun data => Skein.mac s (start s mac_length key) mac_length data.flatten) :=
  macSkeinCtxs_eq_of_ready (ready_create s mac_length key) messages

theorem macSkein_eq_mac (key : Octets) (data : List Octets) (mac_length : ℕ) (s : SkeinSize) :
    macSkein key data mac_length s = Skein.mac s (start s mac_length key) mac_length data.flatten :=
  (ready_macSkeinCtx (ready_create s mac_length key) data).1

end SkeinCtx

/-- **A context and fresh MACs**: however the messages are cut into pieces, the MACs that one
context puts out for one message after the other, and those that are computed afresh for each
message in one piece, are all those of the specification. -/
theorem macSkeinCtx_run (key : Octets) (mac_length : ℕ) (s : SkeinSize)
    (messages : List (List Octets)) :
    macSkeinCtxs (createSkeinMacContext key mac_length s) messages =
        messages.map
          (fun data => Skein.mac s (SkeinCtx.start s mac_length key) mac_length data.flatten) ∧
      messages.map (fun data => macSkein key [data.flatten] mac_length s) =
        messages.map
          (fun data => Skein.mac s (SkeinCtx.start s mac_length key) mac_length data.flatten) := by
  refine ⟨SkeinCtx.macSkeinCtxs_eq key mac_length s messages, ?_⟩
  apply List.map_congr_left
  intro data _
  rw [SkeinCtx.macSkein_eq_mac, List.flatten_singleton]

/-! ## The MAC objects of SRTP -/

/-- The 20 octets that a MAC is written into; only its own octets are read. -/
def digestOf (mac : Octets) : Digest := fun i => mac.getD i 0

/-- Primitives with this Skein. -/
def SkeinCtx.primitives (P : Primitives) : Primitives :=
  { P with macSkein := fun key bits msg => digestOf (macSkein key [msg] bits .Skein512) }

/-- **The MAC object of a crypto context**, which is updated with a packet and its ROC, and which
serves one packet after the other, has the digests of a MAC without a state. -/
theorem macSkeinCtxs_digest (P : Primitives) (key : Octets) (bits : ℕ)
    (packets : List (Octets × Octets)) :
    (macSkeinCtxs (createSkeinMacContext key bits .Skein512)
        (packets.map (fun p => [p.1, p.2]))).map digestOf =
      packets.map
        (fun p => (MacContext.skeinMac key bits).digest (SkeinCtx.primitives P) (p.1 ++ p.2)) := by
  rw [SkeinCtx.macSkeinCtxs_eq, List.map_map, List.map_map]
  apply List.map_congr_left
  intro p _
  have hflatten : [p.1, p.2].flatten = p.1 ++ p.2 := by
    rw [List.flatten_cons, List.flatten_singleton]
  show digestOf (Skein.mac _ _ _ [p.1, p.2].flatten) =
      digestOf (macSkein key [p.1 ++ p.2] bits .Skein512)
  rw [SkeinCtx.macSkein_eq_mac, hflatten, List.flatten_singleton]

/-! ## Precomputed chaining variables -/

/-- `SKEIN_256_IV_128` -/
def SKEIN_256_IV_128 : List Word64 :=
  [0xE1111906964D7260, 0x883DAAA77C8D811C, 0x10080DF491960F7A, 0xCCF7DDE5B45BC1C2]

/-- `SKEIN_256_IV_160` -/
def SKEIN_256_IV_160 : List Word64 :=
  [0x1420231472825E98, 0x2AC4E9A25A77E590, 0xD47A58568838D63E, 0x2DD2E4968586AB7D]

/-- `SKEIN_256_IV_224` -/
def SKEIN_256_IV_224 : List Word64 :=
  [0xC6098A8C9AE5EA0B, 0x876D568608C5191C, 0x99CB88D7D7F53884, 0x384BDDB1AEDDB5DE]

/-- `SKEIN_256_IV_256` -/
def SKEIN_256_IV_256 : List Word64 :=
  [0xFC9DA860D048B449, 0x2FCA66479FA7D833, 0xB33BC3896656840F, 0x6A54E920FDE8DA69]

/-- `SKEIN_512_IV_224` -/
def SKEIN_512_IV_224 : List Word64 :=
  [0xCCD0616248677224, 0xCBA65CF3A92339EF, 0x8CCD69D652FF4B64, 0x398AED7B3AB890B4,
    0x0F59D1B1457D2BD0, 0x6776FE6575D4EB3D, 0x99FBC70E997413E9, 0x9E2CFCCFE1C41EF7]

/-- `SKEIN_512_IV_256` -/
def SKEIN_512_IV_256 : List Word64 :=
  [0xCCD044A12FDB3E13, 0xE83590301A79A9EB, 0x55AEA0614F816E6F, 0x2A2767A4AE9B94DB,
    0xEC06025E74DD7683, 0xE7A436CDC4746251, 0xC36FBAF9393AD185, 0x3EEDBA1833EDFC13]

/-- `SKEIN_512_IV_384` -/
def SKEIN_512_IV_384 : List Word64 :=
  [0xA3F6C6BF3A75EF5F, 0xB0FEF9CCFD84FAA4, 0x9D77DD663D770CFE, 0xD798CBF3B468FDDA,
    0x1BC4A6668A0E4465, 0x7ED7D434E5807407, 0x548FC1ACD4EC44D6, 0x266E17546AA18FF8]

/-- `SKEIN_512_IV_512` -/
def SKEIN_512_IV_512 : List Word64 :=
  [0x4903ADFF749C51CE, 0x0D95DE399746DF03, 0x8FD1934127C79BCE, 0x9A255629FF352CB1,
    0x5DB62599DF6CA7B0, 0xEABE394CA9D5C3F4, 0x991112C71A75B523, 0xAE18A40B660FCC33]

/-- `SKEIN1024_IV_384` -/
def SKEIN1024_IV_384 : List Word64 :=
  [0x5102B6B8C1894A35, 0xFEEBC9E3FE8AF11A, 0x0C807F06E32BED71, 0x60C13A52B41A91F6,
    0x9716D35DD4917C38, 0xE780DF126FD31D3A, 0x797846B6C898303A, 0xB172C2A8B3572A3B,
    0xC9BC8203A6104A6C, 0x65909338D75624F4, 0x94BCC5684B3F81A0, 0x3EBBF51E10ECFD46,
    0x2DF50F0BEEB08542, 0x3B5A65300DBC6516, 0x484B9CD2167BBCE1, 0x2D136947D4CBAFEA]

/-- `SKEIN1024_IV_512` -/
def SKEIN1024_IV_512 : List Word64 :=
  [0xCAEC0E5D7C1B1B18, 0xA01B0E045F03E802, 0x33840451ED912885, 0x374AFB04EAEC2E1C,
    0xDF25A0E2813581F7, 0xE40040938B12F9D2, 0xA662D539C2ED39B6, 0xFA8B85CF45D8C75A,
    0x8316ED8E29EDE796, 0x053289C02E9F91B8, 0xC3F8EF1D6D518B73, 0xBDCEC3C4D5EF332E,
    0x549A7E5222974487, 0x670708725B749816, 0xB9CD28FBF0581BD1, 0x0E2940B815804974]

/-- `SKEIN1024_IV_1024` -/
def SKEIN1024_IV_1024 : List Word64 :=
  [0xD593DA0741E72355, 0x15B5E511AC73E00C, 0x5180E5AEBAF2C4F0, 0x03BD41D3FCBCAFAF,
    0x1CAEC6FD1983A898, 0x6E510B8BCDD0589F, 0x77E2BDFDC6394ADA, 0xC11E1DB524DCB0A3,
    0xD6D14AF9C6329AB5, 0x6A9B0BFC6EB67E0D, 0x9243C60DCCFF1332, 0x1A1F1DDE743F02D4,
    0x0996753C10ED0BB8, 0x6572DD22F2B4969A, 0x61FD3062D00A579A, 0x1DE0536E8682E539]

namespace Skein

/-- The lengths of the output with precomputed chaining variables. -/
def precomputed : SkeinSize → ℕ → Option (List Word64)
  | .Skein256, 256 => some SKEIN_256_IV_256
  | .Skein256, 224 => some SKEIN_256_IV_224
  | .Skein256, 160 => some SKEIN_256_IV_160
  | .Skein256, 128 => some SKEIN_256_IV_128
  | .Skein512, 512 => some SKEIN_512_IV_512
  | .Skein512, 384 => some SKEIN_512_IV_384
  | .Skein512, 256 => some SKEIN_512_IV_256
  | .Skein512, 224 => some SKEIN_512_IV_224
  | .Skein1024, 512 => some SKEIN1024_IV_512
  | .Skein1024, 384 => some SKEIN1024_IV_384
  | .Skein1024, 1024 => some SKEIN1024_IV_1024
  | _, _ => none

/-- `Skein_256_Init`, `Skein_512_Init`, `Skein1024_Init` -/
def Init (s : SkeinSize) (ctx : SkeinCtxt) (hashBitLen : ℕ) : SkeinCtxt :=
  let ctx := { ctx with hashBitLen := hashBitLen }
  let ctx :=
    match precomputed s hashBitLen with
    | some iv => { ctx with X := iv }
    | none =>
        let ctx := Start_New_Type ctx (SKEIN_T1_BLK_TYPE_CFG ||| SKEIN_T1_FLAG_FINAL)
        let ctx := { ctx with X := List.replicate s.words 0 }
        Process_Block s SKEIN_CFG_STR_LEN 1 ctx
          (configBlock s hashBitLen SKEIN_CFG_TREE_INFO_SEQUENTIAL)
  Start_New_Type ctx SKEIN_T1_BLK_TYPE_MSG

/-- The chaining variables after the configuration block, without a key. -/
def configured (s : SkeinSize) (hashBitLen : ℕ) : List Word64 :=
  s.block (List.replicate s.words 0) 32
    (SKEIN_T1_FLAG_FIRST ||| (SKEIN_T1_BLK_TYPE_CFG ||| SKEIN_T1_FLAG_FINAL))
    (loadWords 64 8 s.words (configBlock s hashBitLen SKEIN_CFG_TREE_INFO_SEQUENTIAL))

set_option maxRecDepth 20000 in
/-- **The tables** hold what would be computed. -/
theorem precomputed_eq {s : SkeinSize} {hashBitLen : ℕ} {iv : List Word64}
    (h : precomputed s hashBitLen = some iv) : iv = configured s hashBitLen := by
  unfold precomputed at h
  split at h <;> cases h <;> decide +kernel

/-- **`Init`** does what `InitExt` does without a key. -/
theorem init_eq_initExt (s : SkeinSize) (ctx : SkeinCtxt) (hashBitLen : ℕ) :
    Init s ctx hashBitLen = InitExt s ctx hashBitLen SKEIN_CFG_TREE_INFO_SEQUENTIAL [] := by
  have hconfigured : InitExt s ctx hashBitLen SKEIN_CFG_TREE_INFO_SEQUENTIAL [] =
      Start_New_Type { ctx with hashBitLen := hashBitLen, X := configured s hashBitLen }
        SKEIN_T1_BLK_TYPE_MSG := rfl
  rw [hconfigured]
  unfold Init
  cases h : precomputed s hashBitLen with
  | none => rfl
  | some iv =>
      rw [precomputed_eq h]

end Skein
