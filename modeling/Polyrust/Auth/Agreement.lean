import Polyrust.Auth

/-!
# Two encodings of a signature

Orders and L1 authentication encode a signature in 65 bytes each on its own. Of a signature with a
low `s` they make the same bytes, which recover to the address of the signer. Of one with a high
`s`, `sign_v2` flips `s` and the parity, and `sign_clob_auth` only `s`: its bytes recover to the key
of somebody else (`clobAuth_agrees_iff`).
-/

namespace Polyrust

open Bytes Ecdsa Signing

namespace Auth

section
variable {Key Point : Type} [AddCommGroup Point] [Module (ZMod secp256k1Order) Point]

/-- The digest as the number that is signed. -/
def digestNumber (digest : H256) : ZMod secp256k1Order := natFromBe digest.toList

/-- What the program relies on in `k256`: `normalize_s` negates a high `s` and nothing else, and
the returned signature and recovery id recover to the key that was signed with. -/
structure RecoverableSigning (lib : SigningLib Key Point) (curve : Curve secp256k1Order Point) :
    Prop where
  normalizeS_eq : ∀ sig, lib.normalizeS sig = if sig.IsHigh then some sig.neg else none
  sign_recovers : ∀ key digest sig rid, lib.signPrehashRecoverable key digest = some (sig, rid) →
    curve.Recovers (digestNumber digest) sig rid (lib.verifyingKey key)

/-- The 65 bytes are of a signature that recovers to the key. -/
def BytesRecover (curve : Curve secp256k1Order Point) (digest : H256) (bytes : List UInt8)
    (vk : Point) : Prop :=
  ∃ sig rid, bytes = encodeSignature sig rid ∧ curve.Recovers (digestNumber digest) sig rid vk

/-- The 65 bytes recover to a key of the address. -/
def BytesRecoverTo (lib : SigningLib Key Point) (curve : Curve secp256k1Order Point)
    (digest : H256) (bytes : List UInt8) (address : H160) : Prop :=
  ∃ vk, BytesRecover curve digest bytes vk ∧ deriveAddress lib vk = address

/-- The digest that L1 authentication signs. -/
def clobAuthDigest (lib : SigningLib Key Point) (address : H160) (timestamp : String)
    (nonce : BitVec 32) (chainId : BitVec 64) : H256 :=
  typedDataDigest lib (computeClobAuthDomain lib chainId)
    (clobAuthStructHash lib (lib.keccak256 (textBytes clobAuthTypeString)) address timestamp nonce)

/-- The 65 bytes recover to a key of the address, wherever the library has signed with a low `s`. -/
def RecoverToWhenLow (lib : SigningLib Key Point) (curve : Curve secp256k1Order Point) (key : Key)
    (digest : H256) (bytes : List UInt8) (address : H160) : Prop :=
  ∃ sig rid, lib.signPrehashRecoverable key digest = some (sig, rid) ∧
    (¬sig.IsHigh → BytesRecoverTo lib curve digest bytes address)

/-! ## Encodings -/

/-- Different signatures are different bytes. -/
theorem encodeSignature_inj {sig sig' : EcdsaSignature} {rid rid' : RecoveryId} :
    encodeSignature sig rid = encodeSignature sig' rid' ↔ sig = sig' ∧ rid = rid' := by
  refine ⟨?_, ?_⟩
  · intro h
    have hlt : secp256k1Order ≤ 256 ^ 32 := by decide
    obtain ⟨hrs, hv⟩ := List.append_inj' h rfl
    obtain ⟨hr, hs⟩ := List.append_inj hrs (by rw [length_natToBe, length_natToBe])
    have hrid : rid.toByte = rid'.toByte := (UInt8.add_right_inj _).1 (List.cons.inj hv).1
    have hr' := (natToBe_inj (sig.r_range.2.trans_le hlt) (sig'.r_range.2.trans_le hlt)).1 hr
    have hs' := (natToBe_inj (sig.s_range.2.trans_le hlt) (sig'.s_range.2.trans_le hlt)).1 hs
    exact ⟨Signature.ext hr' hs', RecoveryId.ext hrid⟩
  · rintro ⟨rfl, rfl⟩
    rfl

/-- The order of the group is odd. -/
theorem odd_secp256k1Order : Odd secp256k1Order := Nat.odd_iff.2 rfl

/-- The flipped bit of a recovery id is the recovery id flipped. -/
theorem tryFrom_flip (rid : RecoveryId) :
    RecoveryId.tryFrom (rid.toByte ^^^ 1) = some rid.flip := dif_pos _

section
variable {lib : SigningLib Key Point} {curve : Curve secp256k1Order Point}
  {sig : EcdsaSignature} {rid : RecoveryId}

/-- `auth.rs` makes s low and keeps the recovery id. -/
theorem clobAuthSignature_eq (hlib : RecoverableSigning lib curve) :
    clobAuthSignature lib sig rid = encodeSignature sig.low rid := by
  by_cases h : sig.IsHigh
  · rw [clobAuthSignature, hlib.normalizeS_eq, Signature.low, if_pos h, if_pos h]
    rfl
  · rw [clobAuthSignature, hlib.normalizeS_eq, Signature.low, if_neg h, if_neg h]
    rfl

/-- `signing.rs` makes s low and flips the recovery id with it. -/
theorem signatureV2_eq (hlib : RecoverableSigning lib curve) : signatureV2 lib sig rid =
    .ok (encodeSignature sig.low (if sig.IsHigh then rid.flip else rid)) := by
  by_cases h : sig.IsHigh
  · have hnormal : normalizeRecoverable lib sig rid = .ok (sig.neg, rid.flip) := by
      rw [normalizeRecoverable, hlib.normalizeS_eq, if_pos h]
      dsimp only
      rw [tryFrom_flip]
    rw [signatureV2, hnormal, Except.ok_bind, Signature.low, if_pos h, if_pos h]
    rfl
  · have hnormal : normalizeRecoverable lib sig rid = .ok (sig, rid) := by
      rw [normalizeRecoverable, hlib.normalizeS_eq, if_neg h]
    rw [signatureV2, hnormal, Except.ok_bind, Signature.low, if_neg h, if_neg h]
    rfl

/-- What `sign_v2` makes of a signature recovers to the same key. -/
theorem recovers_low {z : ZMod secp256k1Order} {vk : Point} (h : curve.Recovers z sig rid vk) :
    curve.Recovers z sig.low (if sig.IsHigh then rid.flip else rid) vk := by
  rw [Signature.low]
  split
  · exact curve.recovers_neg_flip h
  · exact h

/-- The bytes of a signature recover to what the signature recovers to. -/
theorem bytesRecover_encode {digest : H256} {vk : Point} :
    BytesRecover curve digest (encodeSignature sig rid) vk ↔
      curve.Recovers (digestNumber digest) sig rid vk := by
  refine ⟨?_, ?_⟩
  · rintro ⟨sig', rid', heq, h⟩
    obtain ⟨rfl, rfl⟩ := encodeSignature_inj.1 heq
    exact h
  · exact fun h => ⟨sig, rid, rfl, h⟩

/-- A flipped recovery id is another one. -/
theorem flip_ne (rid : RecoveryId) : rid.flip ≠ rid := by
  intro h
  have hbyte : rid.toByte ^^^ 1 = rid.toByte := congrArg RecoveryId.toByte h
  have hone : (1 : UInt8) = 0 := by
    rw [← UInt8.xor_right_inj rid.toByte, hbyte, UInt8.xor_zero]
  cases hone

/-! ## Recovery -/

/-- The bytes of L1 authentication recover to the key of the signer exactly when `s` was low. -/
theorem clobAuthSignature_recovers_iff (hlib : RecoverableSigning lib curve) {key : Key}
    {digest : H256} (hsign : lib.signPrehashRecoverable key digest = some (sig, rid)) :
    BytesRecover curve digest (clobAuthSignature lib sig rid) (lib.verifyingKey key) ↔
      ¬sig.IsHigh := by
  have hrecovers := hlib.sign_recovers _ _ _ _ hsign
  rw [clobAuthSignature_eq hlib, bytesRecover_encode]
  refine ⟨?_, ?_⟩
  · intro h hhigh
    rw [Signature.low, if_pos hhigh] at h
    exact curve.not_recovers_neg odd_secp256k1Order hrecovers h
  · intro hlow
    rw [Signature.low, if_neg hlow]
    exact hrecovers

/-- The signature of L1 authentication recovers to the signer exactly when the library has made it
with a low `s`. -/
theorem signClobAuth_recovers_iff (hlib : RecoverableSigning lib curve) {key : Key} {address : H160}
    {timestamp : String} {nonce : BitVec 32} {chainId : BitVec 64} {digest : H256}
    (hdigest : digest = typedDataDigest lib (computeClobAuthDomain lib chainId)
      (clobAuthStructHash lib (lib.keccak256 (textBytes clobAuthTypeString)) address timestamp
        nonce)) {bytes : List UInt8}
    (h : signClobAuth lib key address timestamp nonce chainId = .ok bytes) :
    ∃ sig rid, lib.signPrehashRecoverable key digest = some (sig, rid) ∧
      (BytesRecover curve digest bytes (lib.verifyingKey key) ↔ ¬sig.IsHigh) := by
  simp only [signClobAuth, ← hdigest] at h
  split at h
  · next sig rid hsign =>
    obtain rfl := Except.ok.inj h
    exact ⟨sig, rid, hsign, clobAuthSignature_recovers_iff hlib hsign⟩
  · cases h

/-- The signature of a request for credentials. -/
theorem signClobAuth_recoverToWhenLow (hlib : RecoverableSigning lib curve) {key : Key}
    {address : H160} {timestamp : String} {nonce : BitVec 32} {chainId : BitVec 64}
    {bytes : List UInt8} (haddress : deriveAddress lib (lib.verifyingKey key) = address)
    (h : signClobAuth lib key address timestamp nonce chainId = .ok bytes) :
    RecoverToWhenLow lib curve key (clobAuthDigest lib address timestamp nonce chainId) bytes
      address := by
  obtain ⟨sig, rid, hsign, hiff⟩ := signClobAuth_recovers_iff hlib rfl h
  exact ⟨sig, rid, hsign, fun hlow => ⟨_, hiff.2 hlow, haddress⟩⟩

/-- An order that is signed holds a signature with a low `s` that recovers to the signer. -/
theorem signV2_recovers (hlib : RecoverableSigning lib curve) {signer : OrderSigner Key}
    {token : TokenId} {side : OrderSide} {makerAmount takerAmount : BitVec 256}
    {inputs : SignInputs} {body : SignedFakOrderBody}
    (h : signer.signV2 lib token side makerAmount takerAmount inputs = .ok body) :
    ∃ (order : OrderV2) (sig : EcdsaSignature) (rid : RecoveryId),
      lib.toVec (orderBody lib order (encodeSignature sig rid) signer.apiKey) = .ok body.bytes ∧
        ¬sig.IsHigh ∧
        curve.Recovers
          (digestNumber (typedDataDigest lib signer.domainSeparator (structHash lib order))) sig rid
          (lib.verifyingKey signer.signingKey) := by
  unfold OrderSigner.signV2 at h
  split at h
  · simp only at h
    split at h
    · next sig rid hsign =>
      rw [signatureV2_eq hlib, Except.ok_bind] at h
      split at h
      · next hbytes =>
        obtain rfl := Except.ok.inj h
        exact ⟨_, sig.low, _, hbytes, sig.low_not_high,
          recovers_low (hlib.sign_recovers _ _ _ _ hsign)⟩
      · cases h
    · cases h
  · cases h

/-! ## Agreement -/

/-- Of a signature that the library returns, L1 authentication makes the bytes of `sign_v2`, and
both recover to the address of the signer, if and only if `s` is low. The bytes of L1
authentication recover to the key of the signer only then, those of `sign_v2` always. -/
theorem clobAuth_agrees_iff (hlib : RecoverableSigning lib curve) {key : Key} {digest : H256}
    (hsign : lib.signPrehashRecoverable key digest = some (sig, rid)) :
    ((∃ bytes, signatureV2 lib sig rid = .ok bytes ∧ clobAuthSignature lib sig rid = bytes ∧
        BytesRecoverTo lib curve digest bytes (deriveAddress lib (lib.verifyingKey key))) ↔
      ¬sig.IsHigh) ∧
    (BytesRecover curve digest (clobAuthSignature lib sig rid) (lib.verifyingKey key) ↔
      ¬sig.IsHigh) ∧
    ∃ bytes, signatureV2 lib sig rid = .ok bytes ∧
      bytes = encodeSignature sig.low (if sig.IsHigh then rid.flip else rid) ∧
      BytesRecover curve digest bytes (lib.verifyingKey key) := by
  have hv2 : BytesRecover curve digest
      (encodeSignature sig.low (if sig.IsHigh then rid.flip else rid)) (lib.verifyingKey key) :=
    bytesRecover_encode.2 (recovers_low (hlib.sign_recovers _ _ _ _ hsign))
  refine ⟨?_, clobAuthSignature_recovers_iff hlib hsign, _, signatureV2_eq hlib, rfl, hv2⟩
  rw [clobAuthSignature_eq hlib]
  refine ⟨?_, ?_⟩
  · rintro ⟨bytes, hbytes, heq, -⟩ hhigh
    rw [signatureV2_eq hlib, if_pos hhigh] at hbytes
    rw [← Except.ok.inj hbytes] at heq
    exact flip_ne rid (encodeSignature_inj.1 heq).2.symm
  · intro hlow
    rw [if_neg hlow] at hv2
    refine ⟨encodeSignature sig.low rid, ?_, rfl, lib.verifyingKey key, hv2, rfl⟩
    rw [signatureV2_eq hlib, if_neg hlow]

end

end

/-! ## A signature of the key one -/

/-- The number of the point that the key one signs `keyOneDigest` with. -/
def keyOneR : Nat := 0x934b1ea10a4b3c1757e2b0c017d0b6143ce3c9a7e6a4a49860d7a6ab210ee3d8

/-- The logarithm of that point. -/
def keyOneNonce : Nat := 0x8f8a276c19f4149656b280621e358cce24f5f52542772691ee69063b74f15d15

/-- The SHA-256 hash of `Satoshi Nakamoto`. -/
def keyOneDigest : H256 :=
  ⟨natToBe 32 0xa0dc65ffca799873cbea0ac274015b9526505daaaed385155425f7337704883e,
    length_natToBe 32 _⟩

/-- The signature before it is normalized; the point is even. -/
def keyOneSignature : EcdsaSignature where
  r := keyOneR
  s := 0xdbbd3162d46e9f9bef7feb87c16dc13b4f6568a87f4e83f728e2443ba586675c
  r_range := by decide +kernel
  s_range := by decide +kernel

/-- The recovery id of a point with an even y. -/
def evenPoint : RecoveryId := ⟨0, by decide⟩

/-- The nonce has an inverse. -/
theorem isUnit_keyOneNonce : IsUnit (keyOneNonce : ZMod secp256k1Order) :=
  Curve.isUnit_of_mul_mod
    0x1a40580a26a595df10ff8c52e3cc302d0dbd587ed8a798b3e341c19765b90759 (by decide +kernel)

/-- The group by discrete logarithms, in which the key one is the generator. -/
def keyOneCurve : Curve secp256k1Order (ZMod secp256k1Order) :=
  .ofLog secp256k1Order keyOneR keyOneNonce isUnit_keyOneNonce

/-- The signature of the key one recovers to it. -/
theorem keyOneSignature_recovers :
    keyOneCurve.Recovers (digestNumber keyOneDigest) keyOneSignature evenPoint (1 : Nat) :=
  Curve.ofLog_recovers rfl rfl (by decide +kernel)

/-- The library on the key one, as far as `keyOneDigest` is signed: with the given signature. -/
def keyOneLib (sig : EcdsaSignature) (rid : RecoveryId) :
    SigningLib Unit (ZMod secp256k1Order) where
  keccak256 _ := ⟨natToBe 32 0xc0a6c424ac7157ae408398df7e5f4552091a69125d5dfcb7b8c2659029395bdf,
    length_natToBe 32 _⟩
  keyFromSlice _ := some ()
  verifyingKey _ := (1 : Nat)
  toEncodedPoint _ :=
    ⟨4 :: (natToBe 32 0x79be667ef9dcbbac55a06295ce870b07029bfcdb2dce28d959f2815b16f81798 ++
      natToBe 32 0x483ada7726a3c4655da4fbfc0e1108a8fd17b448a68554199c47d08ffb10d4b8), by simp⟩
  signPrehashRecoverable _ digest := if digest = keyOneDigest then some (sig, rid) else none
  normalizeS sig := if sig.IsHigh then some sig.neg else none
  hexEncode _ := ""
  hexDecode _ := none
  fromDecStr _ := none
  toVec _ := .ok []

/-- A library with this one signature signs recoverably. -/
theorem recoverableSigning_keyOneLib {sig : EcdsaSignature} {rid : RecoveryId}
    (h : keyOneCurve.Recovers (digestNumber keyOneDigest) sig rid (1 : Nat)) :
    RecoverableSigning (keyOneLib sig rid) keyOneCurve where
  normalizeS_eq _ := rfl
  sign_recovers key digest sig' rid' hsign := by
    simp only [keyOneLib] at hsign
    split at hsign
    · next hdigest =>
      obtain ⟨rfl, rfl⟩ := Prod.mk.inj (Option.some.inj hsign)
      rw [hdigest]
      exact h
    · cases hsign

/-- The one signature that this library makes. -/
theorem keyOneLib_sign (sig : EcdsaSignature) (rid : RecoveryId) :
    (keyOneLib sig rid).signPrehashRecoverable () keyOneDigest = some (sig, rid) := by
  simp [keyOneLib]

/-- The address of the key one. -/
def keyOneAddress : H160 :=
  ⟨natToBe 20 0x7e5f4552091a69125d5dfcb7b8c2659029395bdf, length_natToBe 20 _⟩

/-- Of the signature with a low `s` both make the same bytes. -/
theorem clobAuth_agrees_low :
    let lib := keyOneLib keyOneSignature.neg evenPoint.flip
    ∃ bytes, signatureV2 lib keyOneSignature.neg evenPoint.flip = .ok bytes ∧
      clobAuthSignature lib keyOneSignature.neg evenPoint.flip = bytes ∧
      BytesRecoverTo lib keyOneCurve keyOneDigest bytes keyOneAddress := by
  have hlib := recoverableSigning_keyOneLib (keyOneCurve.recovers_neg_flip keyOneSignature_recovers)
  have hlow : ¬keyOneSignature.neg.IsHigh := by decide +kernel
  have haddress : deriveAddress (keyOneLib keyOneSignature.neg evenPoint.flip) (1 : Nat) =
      keyOneAddress := by
    decide +kernel
  rw [← haddress]
  exact (clobAuth_agrees_iff hlib (keyOneLib_sign _ _)).1.2 hlow

/-- Of the one with a high `s` they do not. -/
theorem clobAuth_keeps_parity :
    ¬ ∀ (lib : SigningLib Unit (ZMod secp256k1Order))
        (curve : Curve secp256k1Order (ZMod secp256k1Order)), RecoverableSigning lib curve →
      ∀ key digest sig rid, lib.signPrehashRecoverable key digest = some (sig, rid) →
        ∃ bytes, signatureV2 lib sig rid = .ok bytes ∧ clobAuthSignature lib sig rid = bytes ∧
          BytesRecoverTo lib curve digest bytes (deriveAddress lib (lib.verifyingKey key)) := by
  intro h
  have hlib := recoverableSigning_keyOneLib keyOneSignature_recovers
  have hhigh : keyOneSignature.IsHigh := by decide +kernel
  obtain ⟨bytes, hbytes, heq, -⟩ :=
    h _ _ hlib () keyOneDigest keyOneSignature evenPoint (keyOneLib_sign _ _)
  rw [signatureV2_eq hlib, if_pos hhigh] at hbytes
  rw [clobAuthSignature_eq hlib, ← Except.ok.inj hbytes] at heq
  exact flip_ne evenPoint (encodeSignature_inj.1 heq).2.symm

end Auth

end Polyrust
