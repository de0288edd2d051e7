/-
# The initial vectors as numbers

The initial vectors of counter mode (in `srtpEncrypt` and `srtcpEncrypt`) and of key derivation (the
two functions `computeIv`) are put together octet by octet, in `src/CryptoContext.cpp` and
`src/CryptoContextCtrl.cpp`.  Each of them is a salt of 14 octets XORed with one number, and two
zero octets behind.

* `ofBigEndian_saltedBlock` : the number that such a block writes;
* `cmIv_eq_saltedBlock`, `computeIv_eq_saltedBlock` : the number behind each initial vector;
* `initial_vectors_as_numbers` : the formulas, and that no two initial vectors of one salt coincide.
-/
import CcRtp.KeyDerivation
import CcRtp.Srtp
import CcRtp.Srtcp

/-! ## A salt XORed with a number -/

/-- Fourteen octets of salt XORed with a number, and two zero octets. -/
def saltedBlock (salt : Octets) (x : ℕ) : Block := fun i =>
  if i.val < 14 then octetAt x (13 - i.val) ^^^ salt.getD i 0 else 0

variable {salt : Octets} {x y : ℕ}

theorem toOctets_saltedBlock (hsalt : salt.length = 14) (x : ℕ) :
    (saltedBlock salt x).toOctets = xorOctets salt (bigEndian 14 x) ++ [0, 0] := by
  have hfront : (xorOctets salt (bigEndian 14 x)).length = 14 := by
    rw [length_xorOctets, hsalt, length_bigEndian, Nat.min_self]
  apply List.ext_getElem
  · rw [Block.length_toOctets, List.length_append, hfront]
    rfl
  · intro i h1 h2
    have hi : i < 16 := by rwa [Block.length_toOctets] at h1
    simp only [Block.toOctets, List.getElem_ofFn, saltedBlock]
    by_cases hfourteen : i < 14
    · rw [if_pos hfourteen, List.getElem_append_left (by rw [hfront]; exact hfourteen)]
      simp only [xorOctets, List.getElem_zipWith]
      rw [getElem_bigEndian, List.getD_eq_getElem _ _ (by rw [hsalt]; exact hfourteen),
        UInt8.xor_comm]
    · rw [if_neg hfourteen, List.getElem_append_right (by rw [hfront]; omega)]
      simp only [hfront]
      have hcases : i = 14 ∨ i = 15 := by omega
      rcases hcases with rfl | rfl
      · rfl
      · rfl

/-- **The number that a salted block writes.** -/
theorem ofBigEndian_saltedBlock (hsalt : salt.length = 14) (hx : x < 2 ^ 112) :
    ofBigEndian (saltedBlock salt x).toOctets = (ofBigEndian salt ^^^ x) * 2 ^ 16 := by
  have hlength : ([0, 0] : Octets).length = 2 := rfl
  have hzeros : ofBigEndian [0, 0] = 0 := rfl
  have hpow : 256 ^ 2 = 2 ^ 16 := by decide
  rw [toOctets_saltedBlock hsalt, ofBigEndian_append, ofBigEndian_xorOctets
      (by rw [hsalt, length_bigEndian]), ofBigEndian_bigEndian 14 x hx, hlength, hzeros, hpow,
    Nat.add_zero]

/-- **A salted block tells the number** that went into it. -/
theorem saltedBlock_inj (hsalt : salt.length = 14) (hx : x < 2 ^ 112) (hy : y < 2 ^ 112)
    (h : saltedBlock salt x = saltedBlock salt y) : x = y := by
  have hnumber : (ofBigEndian salt ^^^ x) * 2 ^ 16 = (ofBigEndian salt ^^^ y) * 2 ^ 16 := by
    rw [← ofBigEndian_saltedBlock hsalt hx, ← ofBigEndian_saltedBlock hsalt hy, h]
  exact Nat.xor_right_inj.mp (Nat.eq_of_mul_eq_mul_right (by decide) hnumber)

/-! ## Counter mode -/

/-- **The counter-mode initial vector of SRTP.** -/
theorem CryptoContext.cmIv_eq_saltedBlock (kS : Octets) (ssrc : BitVec 32) {index : BitVec 64}
    (hindex : index.toNat < 2 ^ 48) :
    CryptoContext.cmIv kS ssrc index = saltedBlock kS (ssrc.toNat * 2 ^ 48 + index.toNat) := by
  have hssrc : ssrc.toNat < 256 ^ 4 := ssrc.isLt
  have hparts : ssrc.toNat * 2 ^ 48 + index.toNat = ssrc.toNat * 256 ^ 6 + index.toNat := rfl
  funext i
  have hi := i.isLt
  unfold CryptoContext.cmIv saltedBlock
  by_cases h4 : i.val < 4
  · have hzero : octetAt (ssrc.toNat * 256 ^ 6 + index.toNat) (13 - i.val) = 0 := by
      rw [octetAt_high hindex (by omega)]
      exact octetAt_of_lt hssrc (by omega)
    rw [if_pos h4, if_pos (by omega), hparts, hzero, UInt8.zero_xor]
  · rw [if_neg h4]
    by_cases h8 : i.val < 8
    · rw [if_pos h8, if_pos (by omega), hparts, octetAt_high hindex (by omega), ofNat_ushiftRight,
        show 13 - i.val - 6 = 7 - i.val by omega]
    · rw [if_neg h8]
      by_cases h14 : i.val < 14
      · rw [if_pos h14, if_pos h14, hparts, octetAt_low (by omega), ofNat_ushiftRight]
      · rw [if_neg h14, if_neg h14]

/-- The counter-mode initial vector of SRTCP is made of 32 bits of index in the same way. -/
theorem CryptoContextCtrl.cmIv_eq_srtp (kS : Octets) (ssrc : BitVec 32) {index : BitVec 64}
    (hindex : index.toNat < 2 ^ 32) :
    CryptoContextCtrl.cmIv kS ssrc index = CryptoContext.cmIv kS ssrc index := by
  funext i
  unfold CryptoContextCtrl.cmIv CryptoContext.cmIv
  by_cases h8 : i.val < 8
  · rw [if_pos h8, if_pos h8]
  · have h4 : ¬ i.val < 4 := by omega
    rw [if_neg h4, if_neg h4, if_neg h8, if_neg h8]
    by_cases h10 : i.val < 10
    · -- the index has no octets there
      have hzero : octetAt index.toNat (13 - i.val) = 0 := octetAt_of_lt (m := 4) hindex (by omega)
      have h14 : i.val < 14 := by omega
      rw [if_pos h10, if_pos h14, ofNat_ushiftRight, hzero, UInt8.zero_xor]
    · rw [if_neg h10]

/-! ## Key derivation -/

/-- **The initial vector of SRTP key derivation**, for the key identifier as the code forms it. -/
theorem CryptoContext.computeIv_eq_saltedBlock (label index kdv : BitVec 64) (masterSalt : Octets)
    (hlabel : label.toNat < 256) (hindex : index.toNat < 2 ^ 48) :
    CryptoContext.computeIv label index kdv masterSalt
      = saltedBlock masterSalt (label.toNat * 2 ^ 48 + index.toNat / kdv.toNat) := by
  have hr : index.toNat / kdv.toNat < 2 ^ 48 := (Nat.div_le_self _ _).trans_lt hindex
  have hshift : (label <<< 48).toNat = 2 ^ 48 * label.toNat := by
    rw [BitVec.toNat_shiftLeft, Nat.shiftLeft_eq, Nat.mod_eq_of_lt (by omega), Nat.mul_comm]
  have hkeyId : (if kdv = 0 then label <<< 48 else label <<< 48 ||| index / kdv).toNat
      = label.toNat * 2 ^ 48 + index.toNat / kdv.toNat := by
    split_ifs with hkdv
    · have hzero : (0 : BitVec 64).toNat = 0 := rfl
      rw [hshift, hkdv, hzero, Nat.div_zero, Nat.add_zero, Nat.mul_comm]
    · rw [BitVec.toNat_or, hshift, BitVec.toNat_udiv, ← Nat.two_pow_add_eq_or_of_lt hr,
        Nat.mul_comm]
  funext i
  unfold CryptoContext.computeIv saltedBlock
  dsimp only
  by_cases h7 : i.val < 7
  · have hzero : octetAt (label.toNat * 2 ^ 48 + index.toNat / kdv.toNat) (13 - i.val) = 0 := by
      have hsize : label.toNat * 2 ^ 48 + index.toNat / kdv.toNat < 256 ^ 7 := by omega
      exact octetAt_of_lt hsize (by omega)
    rw [if_pos h7, if_pos (by omega), hzero, UInt8.zero_xor]
  · rw [if_neg h7]
    by_cases h14 : i.val < 14
    · rw [if_pos h14, if_pos h14, Nat.mul_comm 8, ofNat_ushiftRight, hkeyId]
    · rw [if_neg h14, if_neg h14]

/-- **The initial vector of SRTCP key derivation.** -/
theorem CryptoContextCtrl.computeIv_eq_saltedBlock (label : UInt8) (masterSalt : Octets) :
    CryptoContextCtrl.computeIv label masterSalt =
      saltedBlock masterSalt (label.toNat * 2 ^ 48) := by
  have hparts : label.toNat * 2 ^ 48 = label.toNat * 256 ^ 6 + 0 :=
    (Nat.add_zero _).symm
  funext i
  unfold CryptoContextCtrl.computeIv saltedBlock
  by_cases h7 : i.val = 7
  · have hlabel : octetAt (label.toNat * 256 ^ 6 + 0) 6 = label := by
      rw [octetAt_high (by decide) le_rfl, octetAt, Nat.sub_self, pow_zero, Nat.div_one,
        UInt8.ofNat_toNat]
    rw [if_pos h7, if_pos (by omega), h7, hparts, hlabel, UInt8.xor_comm]
  · rw [if_neg h7]
    by_cases h14 : i.val < 14
    · have hzero : octetAt (label.toNat * 256 ^ 6 + 0) (13 - i.val) = 0 := by
        by_cases hfront : i.val < 7
        · rw [octetAt_high (by decide) (by omega)]
          have hsize : label.toNat < 256 ^ 1 := label.toNat_lt
          exact octetAt_of_lt hsize (by omega)
        · rw [octetAt_low (by omega)]
          exact octetAt_of_lt (m := 0) Nat.one_pos (Nat.zero_le _)
      rw [if_pos h14, if_pos h14, hparts, hzero, UInt8.zero_xor]
    · rw [if_neg h14, if_neg h14]

/-! ## All initial vectors -/

/-- The two protocols. -/
inductive Protocol : Type where
  | srtp
  | srtcp
  deriving DecidableEq, Repr

namespace Protocol

/-- The counter-mode initial vector of a protocol. -/
def cmIv : Protocol → Octets → BitVec 32 → BitVec 64 → Block
  | .srtp => CryptoContext.cmIv
  | .srtcp => CryptoContextCtrl.cmIv

/-- The packet indices of a protocol lie below this. -/
def indexBound : Protocol → ℕ
  | .srtp => 2 ^ 48
  | .srtcp => 2 ^ 31

theorem cmIv_eq_saltedBlock (p : Protocol) (kS : Octets) (ssrc : BitVec 32) {index : BitVec 64}
    (hindex : index.toNat < p.indexBound) :
    index.toNat < 2 ^ 48 ∧ p.cmIv kS ssrc index =
      saltedBlock kS (ssrc.toNat * 2 ^ 48 + index.toNat) := by
  cases p with
  | srtp => exact ⟨hindex, CryptoContext.cmIv_eq_saltedBlock kS ssrc hindex⟩
  | srtcp =>
      have hlt : index.toNat < 2 ^ 31 := hindex
      have hsame := CryptoContextCtrl.cmIv_eq_srtp kS ssrc (hlt.trans (by decide))
      have hwide : index.toNat < 2 ^ 48 := hlt.trans (by decide)
      exact ⟨hwide, hsame.trans (CryptoContext.cmIv_eq_saltedBlock kS ssrc hwide)⟩

end Protocol

/-- What a call of `computeIv` is given beside the master salt. -/
inductive DerivationCall : Type where
  | srtp (label index kdv : BitVec 64)
  | srtcp (label : UInt8)

namespace DerivationCall

/-- The initial vector. -/
def iv : DerivationCall → Octets → Block
  | .srtp label index kdv, masterSalt => CryptoContext.computeIv label index kdv masterSalt
  | .srtcp label, masterSalt => CryptoContextCtrl.computeIv label masterSalt

def label : DerivationCall → ℕ
  | .srtp label _ _ => label.toNat
  | .srtcp label => label.toNat

/-- The index by the key derivation rate, zero without a rate. -/
def r : DerivationCall → ℕ
  | .srtp _ index kdv => if kdv = 0 then 0 else index.toNat / kdv.toNat
  | .srtcp _ => 0

/-- An octet for the label and 48 bits for the index. -/
def InRange : DerivationCall → Prop
  | .srtp label index _ => label.toNat < 256 ∧ index.toNat < 2 ^ 48
  | .srtcp _ => True

theorem iv_eq_saltedBlock {d : DerivationCall} (h : d.InRange) (masterSalt : Octets) :
    d.label < 256 ∧ d.r < 2 ^ 48 ∧
    d.iv masterSalt = saltedBlock masterSalt (d.label * 2 ^ 48 + d.r) := by
  cases d with
  | srtp label index kdv =>
      obtain ⟨hlabel, hindex⟩ := h
      have hr : (srtp label index kdv).r = index.toNat / kdv.toNat := by
        have hdef : (srtp label index kdv).r = if kdv = 0 then 0 else index.toNat / kdv.toNat := rfl
        rw [hdef]
        split_ifs with hkdv
        · rw [hkdv]
          exact (Nat.div_zero _).symm
        · rfl
      rw [hr]
      exact ⟨hlabel, (Nat.div_le_self _ _).trans_lt hindex,
        CryptoContext.computeIv_eq_saltedBlock label index kdv masterSalt hlabel hindex⟩
  | srtcp label =>
      have hr : (srtcp label).r = 0 := rfl
      rw [hr, Nat.add_zero]
      exact ⟨label.toNat_lt, Nat.two_pow_pos 48,
        CryptoContextCtrl.computeIv_eq_saltedBlock label masterSalt⟩

end DerivationCall

/-- A salted block, with the number in two parts that are shifted on their own. -/
theorem xor_mul_two_pow (s a : ℕ) {b : ℕ} (hb : b < 2 ^ 48) :
    (s ^^^ (a * 2 ^ 48 + b)) * 2 ^ 16 = (s * 2 ^ 16) ^^^ (a * 2 ^ 64) ^^^ (b * 2 ^ 16) := by
  have hshift : ∀ x y : ℕ, (x ^^^ y) * 2 ^ 16 = (x * 2 ^ 16) ^^^ (y * 2 ^ 16) := by
    intro x y
    have hxor := mul_two_pow_add_xor 16 x y (Nat.two_pow_pos 16) (Nat.two_pow_pos 16)
    rw [Nat.add_zero, Nat.add_zero, Nat.xor_self, Nat.add_zero] at hxor
    exact hxor.symm
  have hparts : a * 2 ^ 48 + b = (a * 2 ^ 48) ^^^ b := by
    have hxor := mul_two_pow_add_xor 48 a 0 (Nat.two_pow_pos 48) hb
    rw [Nat.add_zero, Nat.zero_mul, Nat.zero_add, Nat.xor_zero, Nat.zero_xor] at hxor
    exact hxor.symm
  rw [hparts, hshift, hshift, Nat.xor_assoc, Nat.mul_assoc, ← pow_add]

/-- **The initial vectors as numbers.**  For every salt of 14 octets the counter-mode initial
vectors of both protocols write the salt, the SSRC and the index, shifted by 16, 64 and 16 bits and
XORed; those of key derivation write the salt XORed with label and quotient, shifted by 16 bits.
Under one salt, different SSRCs or indices have different initial vectors in counter mode, and
different labels or quotients in key derivation, whichever of the protocols they belong to. -/
theorem initial_vectors_as_numbers (salt : Octets) (hsalt : salt.length = 14) :
    (∀ (p : Protocol) (ssrc : BitVec 32) (index : BitVec 64), index.toNat < p.indexBound →
      ofBigEndian (p.cmIv salt ssrc index).toOctets
        = (ofBigEndian salt * 2 ^ 16) ^^^ (ssrc.toNat * 2 ^ 64) ^^^ (index.toNat * 2 ^ 16)) ∧
    (∀ d : DerivationCall, d.InRange → ofBigEndian (d.iv salt).toOctets
      = (ofBigEndian salt ^^^ (d.label * 2 ^ 48 + d.r)) * 2 ^ 16) ∧
    (∀ (p p' : Protocol) (ssrc ssrc' : BitVec 32) (index index' : BitVec 64),
      index.toNat < p.indexBound → index'.toNat < p'.indexBound →
        (ssrc, index) ≠ (ssrc', index') → p.cmIv salt ssrc index ≠ p'.cmIv salt ssrc' index') ∧
    (∀ d d' : DerivationCall, d.InRange → d'.InRange → (d.label, d.r) ≠ (d'.label, d'.r) →
      d.iv salt ≠ d'.iv salt) := by
  refine ⟨?_, ?_, ?_, ?_⟩
  · intro p ssrc index hindex
    have hssrc := ssrc.isLt
    obtain ⟨hwide, hiv⟩ := p.cmIv_eq_saltedBlock salt ssrc hindex
    rw [hiv, ofBigEndian_saltedBlock hsalt (by omega), xor_mul_two_pow _ _ hwide]
  · intro d hd
    obtain ⟨hlabel, hr, hiv⟩ := DerivationCall.iv_eq_saltedBlock hd salt
    rw [hiv, ofBigEndian_saltedBlock hsalt (by omega)]
  · intro p p' ssrc ssrc' index index' hindex hindex' hne heq
    have hssrc := ssrc.isLt
    have hssrc' := ssrc'.isLt
    obtain ⟨hwide, hiv⟩ := p.cmIv_eq_saltedBlock salt ssrc hindex
    obtain ⟨hwide', hiv'⟩ := p'.cmIv_eq_saltedBlock salt ssrc' hindex'
    rw [hiv, hiv'] at heq
    have hnumber := saltedBlock_inj hsalt (by omega) (by omega) heq
    apply hne
    rw [Prod.mk.injEq]
    exact ⟨BitVec.eq_of_toNat_eq (by omega), BitVec.eq_of_toNat_eq (by omega)⟩
  · intro d d' hd hd' hne heq
    obtain ⟨hlabel, hr, hiv⟩ := DerivationCall.iv_eq_saltedBlock hd salt
    obtain ⟨hlabel', hr', hiv'⟩ := DerivationCall.iv_eq_saltedBlock hd' salt
    rw [hiv, hiv'] at heq
    have hnumber := saltedBlock_inj hsalt (by omega) (by omega) heq
    apply hne
    rw [Prod.mk.injEq]
    exact ⟨by omega, by omega⟩

/-- The theorem for a salt of zeros: the salting key of SRTCP, and a packet of SRTP. -/
theorem initial_vectors_as_numbers_zeros :
    ofBigEndian (CryptoContextCtrl.computeIv 5 (List.replicate 14 0)).toOctets
        = (ofBigEndian (List.replicate 14 0) ^^^ 5 * 2 ^ 48) * 2 ^ 16 ∧
      ofBigEndian (CryptoContext.cmIv (List.replicate 14 0) 1 2).toOctets
        = (ofBigEndian (List.replicate 14 0) * 2 ^ 16) ^^^ (1 * 2 ^ 64) ^^^ (2 * 2 ^ 16) := by
  obtain ⟨hcm, hderive, -, -⟩ := initial_vectors_as_numbers (List.replicate 14 0) rfl
  exact ⟨hderive (.srtcp 5) trivial, hcm .srtp 1 2 (by decide)⟩
